import NameDirectory.Failover

/-!
# Who holds a session

A group holds one session at most, and whoever accounts for what sessions use can follow each of
them: it is the group's from when it was opened, and nobody's once it is closed.

* `Environment.Accounts J`: how the environment treats an account `J` of the session that is held;
* `Group.Accounted`: the session that the group holds is accounted for, and a closed group holds
  none; turns keep it so (`replace_accounts`, `obtain_accounts`);
* `run_accounts`, `close_accounts`: so do whole operations, and the end of the group;
* `run_of_current`: the result of an operation is what the session in use gives.
-/

namespace NameDirectory.Failover

variable {σ S α : Type}

/-- The environment keeps an account of the session that is held, if any: it is there once
opened and gone once closed. -/
structure Environment.Accounts (env : Environment σ S) (J : Option S → σ → Prop) : Prop where
  opened : ∀ {index w s w'}, J none w → env.connect index w = (.ok s, w') → J (some s) w'
  failed : ∀ {index w fault w'}, J none w → env.connect index w = (.error fault, w') → J none w'
  connected : ∀ {index s w}, J (some s) w → J (some s) (env.connected index s w)
  closeSession : ∀ {s w}, J (some s) w → J none (env.closeSession s w)

def Group.session? (g : Group S) : Option S := g.current.map (·.session)

/-- The group's session is accounted for, and it has none once it is closed. -/
structure Group.Accounted (J : Option S → σ → Prop) (g : Group S) (w : σ) : Prop where
  account : J g.session? w
  closed : g.closed = true → g.current = none

/-- What a turn leaves at the group `g`. -/
structure TurnAccounts (J : Option S → σ → Prop) (g : Group S)
    (turn : Except ClientFault (Current S) × Group S × σ) : Prop where
  account : J turn.2.1.session? turn.2.2
  closed : turn.2.1.closed = g.closed
  /-- Nothing is opened for a group that is closed. -/
  idle : g.closed = true → g.current = none → turn.2.1.current = none
  handed : ∀ c, turn.1 = .ok c → turn.2.1.current = some c

theorem TurnAccounts.accounted {turn : Except ClientFault (Current S) × Group S × σ}
    {J : Option S → σ → Prop} {g : Group S} (h : TurnAccounts J g turn)
    (hclosed : g.closed = true → g.current = none) : turn.2.1.Accounted J turn.2.2 where
  account := h.account
  closed hc := h.idle (h.closed ▸ hc) (hclosed (h.closed ▸ hc))

def Stage.current? : Stage S α → Option (Current S)
  | .applying c | .reapplying c => some c
  | _ => none

variable {env : Environment σ S} {J : Option S → σ → Prop} {g : Group S} {w : σ}

/-! ## Turns -/

theorem scan_accounts (henv : env.Accounts J) (servers : List String) (tries cursor : Nat)
    (attempts : List String) (cause : Option TransportFault) (hw : J none w) :
    match scan env servers tries cursor attempts cause w with
    | (.found _ s, _, w') => J (some s) w'
    | (.exhausted _ _, _, w') => J none w' := by
  induction tries generalizing cursor attempts cause w with
  | zero => exact hw
  | succ tries ih =>
    unfold scan
    rcases hconnect : env.connect cursor w with ⟨fault | s, w'⟩
    · exact ih _ _ _ (henv.failed hw hconnect)
    · exact henv.opened hw hconnect

theorem install_accounts (henv : env.Accounts J) (hopen : g.closed = false) (hw : J none w) :
    TurnAccounts J g (g.install env w) := by
  have hscan := scan_accounts henv g.servers g.servers.length g.cursor [] none hw
  unfold Group.install
  split at hscan
  · next index s next w' hr =>
    rw [hr]
    refine ⟨henv.connected hscan, rfl, fun hclosed _ => ?_, fun c hc => ?_⟩
    · exact absurd (hclosed.symm.trans hopen) (by decide)
    · cases hc
      rfl
  · next next w' hr =>
    rw [hr]
    exact ⟨hscan, rfl, fun _ _ => rfl, fun c hc => nomatch hc⟩

theorem shared_accounts (hw : J g.session? w) {c : Current S} (hc : g.current = some c) :
    TurnAccounts J g (.ok c, g, w) := by
  refine ⟨hw, rfl, fun _ hnone => hnone, fun c' hc' => ?_⟩
  cases hc'
  exact hc

theorem replace_accounts (henv : env.Accounts J) (failed : Option Nat) (hw : J g.session? w) :
    TurnAccounts J g (g.replace env failed w) := by
  unfold Group.replace
  split
  · exact ⟨hw, rfl, fun _ hnone => hnone, fun c hc => nomatch hc⟩
  · next hopen =>
    have hopen : g.closed = false := by simpa using hopen
    have haccount := hw
    unfold Group.session? at haccount
    split
    · next hc =>
      rw [hc] at haccount
      exact install_accounts henv hopen haccount
    · next c hc =>
      rw [hc] at haccount
      split
      · exact shared_accounts hw hc
      · obtain ⟨haccount', hclosed, hidle, hhanded⟩ := install_accounts
          (g := { g with current := none }) henv hopen (henv.closeSession haccount)
        exact ⟨haccount', hclosed, fun h _ => hidle h rfl, hhanded⟩

theorem obtain_accounts (henv : env.Accounts J) (hw : J g.session? w) :
    TurnAccounts J g (g.obtain env w) := by
  unfold Group.obtain
  split
  · next c hc => exact shared_accounts hw hc
  · exact replace_accounts henv none hw

theorem clear_accounts (henv : env.Accounts J) (hw : J g.session? w) :
    (g.clear env w).1.closed = g.closed ∧ (g.clear env w).1.current = none ∧
      J none (g.clear env w).2 := by
  unfold Group.session? at hw
  unfold Group.clear
  split
  · next c hc =>
    rw [hc] at hw
    exact ⟨rfl, rfl, henv.closeSession hw⟩
  · next hc =>
    rw [hc] at hw
    exact ⟨rfl, hc, hw⟩

/-! ## Operations -/

/-- Where a group is kept does not matter to the account. -/
structure Place.Beside (p : Place σ S) (J : Option S → σ → Prop) : Prop where
  get_set : ∀ {held g w}, J held w → p.get (p.set g w) = g
  set : ∀ {held g w}, J held w → J held (p.set g w)

/-- The group in the world is accounted for. -/
def Place.Accounted (p : Place σ S) (J : Option S → σ → Prop) (w : σ) : Prop :=
  (p.get w).Accounted J w

/-- Applying an operation keeps the account of the session it is applied to, and the group. -/
def Place.Admits (p : Place σ S) (J : Option S → σ → Prop)
    (apply : S → σ → Except ClientFault α × σ) : Prop :=
  ∀ {s w}, J (some s) w → J (some s) (apply s w).2 ∧ p.get (apply s w).2 = p.get w

variable {p : Place σ S} {apply : S → σ → Except ClientFault α × σ}

/-- A session in use gave this answer, and left the world so. -/
def Place.Answered (p : Place σ S) (J : Option S → σ → Prop)
    (apply : S → σ → Except ClientFault α × σ) (a : α) (w : σ) : Prop :=
  ∃ c w₀, p.Accounted J w₀ ∧ (p.get w₀).current = some c ∧ apply c.session w₀ = (.ok a, w)

/-- Between two steps of an operation that nobody interrupts: the session it is about to use is
the group's, and the answer it ended with is one that such a session gave. -/
structure Between (p : Place σ S) (J : Option S → σ → Prop)
    (apply : S → σ → Except ClientFault α × σ) (closed : Bool) (stage : Stage S α) (w : σ) :
    Prop where
  accounted : p.Accounted J w
  closed : (p.get w).closed = closed
  current : ∀ c, stage.current? = some c → (p.get w).current = some c
  answered : ∀ a, stage = .finished (.ok a) → p.Answered J apply a w

theorem TurnAccounts.between {turn : Except ClientFault (Current S) × Group S × σ}
    {next : Current S → Stage S α} (h : TurnAccounts J g turn)
    (hg : g.closed = true → g.current = none) (hp : p.Beside J) (hnext : ∀ c, (next c).current? = some c) :
    Between p J apply g.closed (.ofObtained turn.1 next) (p.set turn.2.1 turn.2.2) := by
  have hget := hp.get_set (g := turn.2.1) h.account
  have hset : p.Accounted J (p.set turn.2.1 turn.2.2) := by
    unfold Place.Accounted
    rw [hget]
    exact ⟨hp.set h.account, (h.accounted hg).closed⟩
  have hclosed : (p.get (p.set turn.2.1 turn.2.2)).closed = g.closed := by
    rw [hget]
    exact h.closed
  cases hturn : turn.1 with
  | error fault => exact ⟨hset, hclosed, fun c hc => (nomatch hc), fun a ha => nomatch ha⟩
  | ok c =>
    refine ⟨hset, hclosed, fun c' hc' => ?_, fun a ha => ?_⟩
    · obtain rfl : c = c' := Option.some.inj ((hnext c).symm.trans hc')
      rw [hget]
      exact h.handed c hturn
    · have hnone := (hnext c).symm.trans (congrArg Stage.current? ha)
      cases hnone

/-- Applying leaves the group as it was, so whatever comes next is between two steps too. -/
theorem Between.applied {closed : Bool} {stage : Stage S α} {c : Current S} (next : Stage S α)
    (h : Between p J apply closed stage w) (happly : p.Admits J apply)
    (hc : stage.current? = some c) (hnext : next.current? = none)
    (hanswer : ∀ a, next = .finished (.ok a) → (apply c.session w).1 = .ok a) :
    Between p J apply closed next (apply c.session w).2 := by
  have hcurrent := h.current c hc
  have haccount : J (some c.session) w := by
    have haccount := h.accounted.account
    rwa [Group.session?, hcurrent] at haccount
  obtain ⟨hkept, hget⟩ := happly haccount
  refine ⟨⟨?_, ?_⟩, ?_, fun c' hc' => ?_, fun a ha => ?_⟩
  · rw [hget, Group.session?, hcurrent]
    exact hkept
  · rw [hget]
    exact h.accounted.closed
  · rw [hget]
    exact h.closed
  · rw [hnext] at hc'
    cases hc'
  · exact ⟨c, w, h.accounted, hcurrent, Prod.ext (hanswer a ha) rfl⟩

theorem Between.step (henv : env.Accounts J) (hp : p.Beside J) (happly : p.Admits J apply)
    {closed : Bool} {stage : Stage S α} (h : Between p J apply closed stage w) :
    Between p J apply closed (stage.step env p apply w).1 (stage.step env p apply w).2 := by
  cases stage with
  | entering =>
    simp only [Stage.step]
    refine ⟨h.accounted, h.closed, fun c hc => ?_, fun a ha => ?_⟩
    · split at hc <;> cases hc
    · split at ha <;> cases ha
  | obtaining =>
    obtain rfl := h.closed
    exact (obtain_accounts henv h.accounted.account).between h.accounted.closed hp fun _ => rfl
  | replacing epoch =>
    obtain rfl := h.closed
    have hturn := replace_accounts henv (some epoch) h.accounted.account
    exact hturn.between h.accounted.closed hp fun _ => rfl
  | applying c =>
    refine h.applied (.afterFirst _ c (apply c.session w).1) happly rfl ?_ fun a ha => ?_
    · unfold Stage.afterFirst
      split <;> rfl
    · unfold Stage.afterFirst at ha
      split at ha
      · cases ha
      · exact Stage.finished.inj ha
  | reapplying c =>
    refine h.applied (.afterSecond _ c (apply c.session w).1) happly rfl ?_ fun a ha => ?_
    · unfold Stage.afterSecond
      split <;> rfl
    · unfold Stage.afterSecond at ha
      split at ha
      · cases ha
      · exact Stage.finished.inj ha
  | finished result => exact h

theorem go_finished (fuel : Nat) (r : Except ClientFault α) :
    run.go env p apply fuel (.finished r) w = (r, w) := by
  cases fuel <;> rfl

theorem go_succ (fuel : Nat) (stage : Stage S α) :
    run.go env p apply (fuel + 1) stage w =
      run.go env p apply fuel (stage.step env p apply w).1 (stage.step env p apply w).2 := by
  cases stage with
  | finished r => rw [go_finished, Stage.step, go_finished]
  | _ => rfl

/-- What an operation leaves that nobody interrupts. -/
structure RunAccounts (p : Place σ S) (J : Option S → σ → Prop)
    (apply : S → σ → Except ClientFault α × σ) (closed : Bool)
    (ended : Except ClientFault α × σ) : Prop where
  accounted : p.Accounted J ended.2
  closed : (p.get ended.2).closed = closed
  answered : ∀ a, ended.1 = .ok a → p.Answered J apply a ended.2

theorem Between.go (henv : env.Accounts J) (hp : p.Beside J) (happly : p.Admits J apply)
    {closed : Bool} (fuel : Nat) {stage : Stage S α} (h : Between p J apply closed stage w) :
    RunAccounts p J apply closed (run.go env p apply fuel stage w) := by
  induction fuel generalizing stage w with
  | zero =>
    cases stage with
    | finished r => exact ⟨h.accounted, h.closed, fun a ha => h.answered a (congrArg _ ha)⟩
    | _ => exact ⟨h.accounted, h.closed, fun a ha => nomatch ha⟩
  | succ fuel ih =>
    rw [go_succ]
    exact ih (h.step henv hp happly)

/-- Whatever comes of an operation, the group is accounted for afterwards, and an answer is one
that a session in use gave. -/
theorem run_accounts (henv : env.Accounts J) (hp : p.Beside J) (happly : p.Admits J apply)
    (h : p.Accounted J w) :
    RunAccounts p J apply (p.get w).closed (run env p apply w) :=
  Between.go henv hp happly 5 ⟨h, rfl, fun _ hc => (nomatch hc), fun _ ha => nomatch ha⟩

theorem run_of_closed (hclosed : (p.get w).closed = true) :
    run env p apply w = (.error .closed, w) := by
  unfold run
  simp only [go_succ, Stage.step, hclosed, if_true, go_finished]

/-- An operation is just applied where the session in use gives an outcome that does not call for
another server. -/
theorem run_of_current {c : Current S} (hopen : (p.get w).closed = false)
    (hc : (p.get w).current = some c) (hset : p.set (p.get w) w = w)
    (houtcome : callsForAnother (p.get (apply c.session w).2).closed (apply c.session w).1 = false) :
    run env p apply w = apply c.session w := by
  have hlocked : p.locked (Group.obtain env) w = (.ok c, w) := by
    simp only [Place.locked, Group.obtain, hc, hset]
  unfold run
  simp only [go_succ, Stage.step, hopen, hlocked, Stage.ofObtained, Stage.afterFirst, houtcome,
    Bool.false_eq_true, if_false, go_finished]

/-- The end of a group that is open: its session is closed, then what sessions are opened with. -/
theorem close_accounts (henv : env.Accounts J) (hp : p.Beside J) (h : p.Accounted J w)
    (hopen : (p.get w).closed = false) :
    ∃ w', close env p w = env.closeConnector w' ∧ J none w' ∧ (p.get w').closed = true ∧
      (p.get w').current = none := by
  have hmarked := hp.set (g := { p.get w with closed := true }) h.account
  have hget := hp.get_set (g := { p.get w with closed := true }) h.account
  have hclose : close env p w = env.closeConnector
      (p.locked (fun g w => ((), g.clear env w)) (p.set { p.get w with closed := true } w)).2 := by
    simp only [close, hopen, Bool.false_eq_true, if_false]
  generalize p.set { p.get w with closed := true } w = marked at hmarked hget hclose
  have hsession : J (p.get marked).session? marked := by
    rw [hget]
    exact hmarked
  obtain ⟨hclosed, hcurrent, hnone⟩ := clear_accounts henv hsession
  refine ⟨_, hclose, hp.set hnone, ?_, ?_⟩
  · rw [Place.locked, hp.get_set hnone, hclosed, hget]
  · rw [Place.locked, hp.get_set hnone, hcurrent]

end NameDirectory.Failover
