import NameDirectory.Proofs.Custody
import NameDirectory.Proofs.Scans

/-!
# The course of an operation

An operation obtains a session and is applied to it.  Where the session was lost on the way, it
obtains another one, and is applied once more.

* `Handover`: a turn at the group, with all that was asked of the environment during it;
  `obtain_handover`, `replace_handover`: the turns are such;
* `Course`: all that can come of an operation; `run_course`: an operation takes one of these
  courses;
* `run_retries`: how often it is applied and how many servers are asked, when it is applied again,
  and what it ends with.
-/

namespace NameDirectory.Failover

variable {σ S α : Type}

/-- The cursor and the session in use are at one of the servers. -/
structure Group.InRange (g : Group S) : Prop where
  cursor : g.cursor < g.servers.length
  index : ∀ c, g.current = some c → c.index < g.servers.length

/-! ## Turns at the group -/

/-- A turn at the group: what was asked of the environment during it, what was handed out, and how
it left the group and the world. -/
inductive Handover (env : Environment σ S) (g : Group S) (w : σ) :
    List (Event S) → Except ClientFault (Current S) → Group S → σ → Prop
  | refused (hclosed : g.closed = true) : Handover env g w [] (.error .closed) g w
  /-- The session in use is handed out. -/
  | shared {c : Current S} (hc : g.current = some c) : Handover env g w [] (.ok c) g w
  /-- The session in use is closed, and the servers are asked for another one. -/
  | scanned {events : List (Event S)} {r : Except ClientFault (Current S)} {g' : Group S} {w' : σ}
      (hhappens : Happens env (g.closings ++ events) w w') (hscanned : Scanned g events r g') :
      Handover env g w (g.closings ++ events) r g' w'

theorem Scanned.length_targets {g g' : Group S} {events : List (Event S)}
    {r : Except ClientFault (Current S)} (h : Scanned g events r g')
    (hcursor : g.cursor < g.servers.length) :
    (events.filterMap Event.target?).length ≤ g.servers.length := by
  cases h with
  | exhausted faults hall =>
    rw [targets_refusals hcursor]
    simp [hall]
  | found faults c hlt =>
    have hlast : ([.connect c.index (.ok c.session), .connected c.index c.session] :
        List (Event S)).filterMap Event.target? = [c.index] := rfl
    rw [List.filterMap_append, targets_refusals hcursor, hlast]
    simp only [List.length_append, List.length_map, List.length_range, List.length_singleton]
    omega

namespace Handover

variable {env : Environment σ S} {g g' : Group S} {w w' : σ} {events : List (Event S)}
  {r : Except ClientFault (Current S)}

/-- No more servers are asked than there are. -/
theorem length_targets (h : Handover env g w events r g' w') (hg : g.InRange) :
    (events.filterMap Event.target?).length ≤ g.servers.length := by
  cases h with
  | refused | shared => exact Nat.zero_le _
  | scanned _ hscanned =>
    have hclosings : g.closings.filterMap Event.target? = [] := by
      cases hc : g.current <;> simp [Group.closings, hc, Event.target?]
    rw [List.filterMap_append, hclosings, List.nil_append]
    exact hscanned.length_targets hg.cursor

theorem servers_eq (h : Handover env g w events r g' w') : g'.servers = g.servers := by
  cases h with
  | refused | shared => rfl
  | scanned _ hscanned => cases hscanned <;> rfl

theorem inRange (h : Handover env g w events r g' w') (hg : g.InRange) : g'.InRange := by
  cases h with
  | refused | shared => exact hg
  | scanned _ hscanned =>
    have hpos : 0 < g.servers.length := Nat.zero_lt_of_lt hg.cursor
    cases hscanned with
    | exhausted => exact ⟨hg.cursor, nofun⟩
    | found faults c _ hindex =>
      refine ⟨Nat.mod_lt _ hpos, ?_⟩
      rintro _ ⟨⟩
      rw [hindex]
      exact Nat.mod_lt _ hpos

theorem current_eq {c : Current S} (h : Handover env g w events (.ok c) g' w') :
    g'.current = some c := by
  cases h with
  | shared hc => exact hc
  | scanned _ hscanned =>
    cases hscanned
    rfl

end Handover

theorem install_handover (env : Environment σ S) {g : Group S} (hg : g.InRange)
    (hnone : g.current = none) (w : σ) :
    ∃ events r g' w', g.install env w = (r, g', w') ∧ Handover env g w events r g' w' := by
  obtain ⟨events, r, g', w', hinstall, hhappens, hscanned⟩ := install_happens env hg.cursor w
  have hclosings : g.closings = [] := by simp [Group.closings, hnone]
  exact ⟨_, r, g', w', hinstall, .scanned (by rwa [hclosings]) hscanned⟩

theorem replace_handover (env : Environment σ S) {g : Group S} (hg : g.InRange)
    (failed : Option Nat) (w : σ) :
    ∃ events r g' w', g.replace env failed w = (r, g', w') ∧ Handover env g w events r g' w' := by
  by_cases hclosed : g.closed = true
  · exact ⟨_, _, _, _, if_pos hclosed, .refused hclosed⟩
  cases hc : g.current with
  | none =>
    have hinstall : g.replace env failed w = g.install env w := by
      rw [Group.replace, if_neg hclosed, hc]
    rw [hinstall]
    exact install_handover env hg hc w
  | some c =>
    by_cases hfailed : failed = some c.epoch
    · have hopen : g.closed = false := by simpa using hclosed
      obtain ⟨events, r, g', w', hreplace, hhappens, hscanned⟩ :=
        replace_current_happens env hg.cursor hopen hc w
      have hclosings : g.closings = [.closeSession c.session] := by simp [Group.closings, hc]
      refine ⟨_, r, g', w', by rw [hfailed, hreplace], .scanned ?_ hscanned⟩
      rw [hclosings]
      exact hhappens
    · refine ⟨_, _, _, _, ?_, .shared hc⟩
      rw [Group.replace, if_neg hclosed, hc]
      exact if_pos hfailed

theorem obtain_handover (env : Environment σ S) {g : Group S} (hg : g.InRange) (w : σ) :
    ∃ events r g' w', g.obtain env w = (r, g', w') ∧ Handover env g w events r g' w' := by
  unfold Group.obtain
  split
  · next c hc => exact ⟨_, _, _, _, rfl, .shared hc⟩
  · exact replace_handover env hg none w

theorem Group.ofServers_inRange {servers : List String} {g : Group S}
    (h : Group.ofServers servers = .ok g) : g.InRange := by
  unfold Group.ofServers at h
  split at h
  · cases h
  · next hservers =>
    cases h
    exact ⟨List.length_pos_of_ne_nil (by simpa using hservers), nofun⟩

/-! ## Turns in the world -/

/-- A turn at the group in the world, and all that was asked of the environment during it. -/
structure Place.Took (p : Place σ S) (env : Environment σ S)
    (turn : Group S → σ → Except ClientFault (Current S) × Group S × σ) (w : σ)
    (events : List (Event S)) (r : Except ClientFault (Current S)) (w' : σ) : Prop where
  locked : p.locked turn w = (r, w')
  handover : ∃ w₁, Handover env (p.get w) w events r (p.get w') w₁ ∧ w' = p.set (p.get w') w₁

variable {env : Environment σ S} {p : Place σ S} {w : σ}

theorem Place.exists_took (hp : ∀ g w, p.get (p.set g w) = g)
    {turn : Group S → σ → Except ClientFault (Current S) × Group S × σ}
    (h : ∃ events r g' w₁, turn (p.get w) w = (r, g', w₁) ∧
      Handover env (p.get w) w events r g' w₁) :
    ∃ events r w', p.Took env turn w events r w' := by
  obtain ⟨events, r, g', w₁, hturn, hhandover⟩ := h
  refine ⟨events, r, p.set g' w₁, ?_, w₁, ?_, ?_⟩
  · simp only [Place.locked, hturn]
  · rwa [hp]
  · rw [hp]

namespace Place.Took

variable {turn : Group S → σ → Except ClientFault (Current S) × Group S × σ}
  {events : List (Event S)} {r : Except ClientFault (Current S)} {w' : σ}

theorem length_targets (h : p.Took env turn w events r w') (hg : (p.get w).InRange) :
    (events.filterMap Event.target?).length ≤ (p.get w).servers.length := by
  obtain ⟨_, hhandover, _⟩ := h.handover
  exact hhandover.length_targets hg

theorem servers_eq (h : p.Took env turn w events r w') :
    (p.get w').servers = (p.get w).servers := by
  obtain ⟨_, hhandover, _⟩ := h.handover
  exact hhandover.servers_eq

theorem inRange (h : p.Took env turn w events r w') (hg : (p.get w).InRange) :
    (p.get w').InRange := by
  obtain ⟨_, hhandover, _⟩ := h.handover
  exact hhandover.inRange hg

theorem current_eq {c : Current S} (h : p.Took env turn w events (.ok c) w') :
    (p.get w').current = some c := by
  obtain ⟨_, hhandover, _⟩ := h.handover
  exact hhandover.current_eq

end Place.Took

/-! ## Outcomes -/

/-- The session was lost: it failed on the way, or was closed underneath while the group is open. -/
def Lost (closed : Bool) (outcome : Except ClientFault α) : Prop :=
  (∃ fault, outcome = .error (.transport fault)) ∨ outcome = .error .closed ∧ closed = false

theorem callsForAnother_iff (closed : Bool) (outcome : Except ClientFault α) :
    callsForAnother closed outcome = true ↔ Lost closed outcome := by
  unfold Lost
  rcases outcome with fault | a
  · cases fault <;> simp [callsForAnother, ClientFault.isTransport]
  · simp [callsForAnother]

/-- What is reported of the outcome of the second application. -/
inductive Reported (servers : List String) (c : Current S) :
    Except ClientFault α → Except ClientFault α → Prop
  /-- The session was lost on the way too: its server is the only one that is named. -/
  | lost {fault : TransportFault} {server : String} (hserver : servers[c.index]? = some server) :
      Reported servers c (.error (.transport fault))
        (.error (.communication [attempt server fault] (some fault)))
  | verbatim {outcome : Except ClientFault α} (h : ∀ fault, outcome ≠ .error (.transport fault)) :
      Reported servers c outcome outcome

theorem exists_reported {servers : List String} {c : Current S} (hindex : c.index < servers.length)
    (outcome : Except ClientFault α) :
    ∃ r, Stage.afterSecond servers c outcome = .finished r ∧ Reported servers c outcome r := by
  unfold Stage.afterSecond
  split
  · next fault =>
    have hserver : servers[c.index]? = some servers[c.index] := List.getElem?_eq_getElem hindex
    rw [hserver]
    exact ⟨_, rfl, .lost hserver⟩
  · next h => exact ⟨outcome, rfl, .verbatim fun fault heq => h fault heq⟩

/-! ## Courses -/

structure Application (S α : Type) where
  current : Current S
  outcome : Except ClientFault α

/-- All that can come of an operation: what is asked of the environment, what it is applied to, how
the last turn leaves the group, and how it ends. -/
inductive Course (env : Environment σ S) (p : Place σ S) (apply : S → σ → Except ClientFault α × σ)
    (w : σ) :
    List (Event S) → List (Application S α) → Group S → Except ClientFault α × σ → Prop
  | closed (hclosed : (p.get w).closed = true) :
      Course env p apply w [] [] (p.get w) (.error .closed, w)
  /-- There is no session to be had. -/
  | unreached {events : List (Event S)} {fault : ClientFault} {w₁ : σ}
      (hopen : (p.get w).closed = false)
      (hobtain : p.Took env (Group.obtain env) w events (.error fault) w₁) :
      Course env p apply w events [] (p.get w₁) (.error fault, w₁)
  /-- The outcome is the one that the first session gives. -/
  | once {events : List (Event S)} {c : Current S} {outcome : Except ClientFault α} {w₁ w₂ : σ}
      (hopen : (p.get w).closed = false)
      (hobtain : p.Took env (Group.obtain env) w events (.ok c) w₁)
      (happly : apply c.session w₁ = (outcome, w₂)) (hkept : ¬ Lost (p.get w₂).closed outcome) :
      Course env p apply w events [⟨c, outcome⟩] (p.get w₁) (outcome, w₂)
  /-- The first session is lost, and there is no other to be had. -/
  | stranded {events more : List (Event S)} {c : Current S} {outcome : Except ClientFault α}
      {fault : ClientFault} {w₁ w₂ w₃ : σ} (hopen : (p.get w).closed = false)
      (hobtain : p.Took env (Group.obtain env) w events (.ok c) w₁)
      (happly : apply c.session w₁ = (outcome, w₂)) (hlost : Lost (p.get w₂).closed outcome)
      (hreplace : p.Took env (Group.replace env (some c.epoch)) w₂ more (.error fault) w₃) :
      Course env p apply w (events ++ more) [⟨c, outcome⟩] (p.get w₃) (.error fault, w₃)
  /-- The first session is lost, and the second gives the outcome. -/
  | twice {events more : List (Event S)} {c c' : Current S}
      {outcome outcome' r : Except ClientFault α} {w₁ w₂ w₃ w₄ : σ}
      (hopen : (p.get w).closed = false)
      (hobtain : p.Took env (Group.obtain env) w events (.ok c) w₁)
      (happly : apply c.session w₁ = (outcome, w₂)) (hlost : Lost (p.get w₂).closed outcome)
      (hreplace : p.Took env (Group.replace env (some c.epoch)) w₂ more (.ok c') w₃)
      (hreapply : apply c'.session w₃ = (outcome', w₄))
      (hreported : Reported (p.get w).servers c' outcome' r) :
      Course env p apply w (events ++ more) [⟨c, outcome⟩, ⟨c', outcome'⟩] (p.get w₃) (r, w₄)

/-- While the operation is applied, the group may take any turn, but is always one of the same
servers. -/
structure Place.Steady (p : Place σ S) (apply : S → σ → Except ClientFault α × σ) : Prop where
  servers_eq : ∀ s w, (p.get (apply s w).2).servers = (p.get w).servers
  inRange : ∀ s w, (p.get w).InRange → (p.get (apply s w).2).InRange

/-- Nobody takes a turn at the group while the operation is applied. -/
def Place.Apart (p : Place σ S) (apply : S → σ → Except ClientFault α × σ) : Prop :=
  ∀ s w, p.get (apply s w).2 = p.get w

section

variable {apply : S → σ → Except ClientFault α × σ}

theorem Place.Apart.steady (h : p.Apart apply) : p.Steady apply := by
  refine ⟨fun s w => ?_, fun s w hg => ?_⟩
  · rw [h s w]
  · rwa [h s w]

theorem Place.Apart.applied (h : p.Apart apply) {session : S} {outcome : Except ClientFault α}
    {w' : σ} (happlied : apply session w = (outcome, w')) : p.get w' = p.get w := by
  have hget := h session w
  rwa [happlied] at hget

theorem Place.Steady.applied (happly : p.Steady apply)
    {turn : Group S → σ → Except ClientFault (Current S) × Group S × σ} {events : List (Event S)}
    {r : Except ClientFault (Current S)} {w₁ w₂ : σ} (hturn : p.Took env turn w events r w₁)
    (hg : (p.get w).InRange) {session : S} {outcome : Except ClientFault α}
    (happlied : apply session w₁ = (outcome, w₂)) :
    (p.get w₂).InRange ∧ (p.get w₂).servers = (p.get w).servers := by
  have hrange := happly.inRange session w₁ (hturn.inRange hg)
  have hservers := happly.servers_eq session w₁
  rw [happlied] at hrange hservers
  exact ⟨hrange, hservers.trans hturn.servers_eq⟩

theorem go_replacing (env : Environment σ S) (hp : ∀ g w, p.get (p.set g w) = g)
    (happly : p.Steady apply) {c : Current S} (hg : (p.get w).InRange) :
    ∃ more r w', p.Took env (Group.replace env (some c.epoch)) w more r w' ∧
      match r with
      | .error fault => run.go env p apply 2 (.replacing c.epoch) w = (.error fault, w')
      | .ok c' => ∃ result, Reported (p.get w).servers c' (apply c'.session w').1 result ∧
          run.go env p apply 2 (.replacing c.epoch) w = (result, (apply c'.session w').2) := by
  obtain ⟨more, r, w', htook⟩ := Place.exists_took hp (replace_handover env hg (some c.epoch) w)
  refine ⟨more, r, w', htook, ?_⟩
  cases r with
  | error fault => simp only [go_succ, Stage.step, htook.locked, Stage.ofObtained, go_finished]
  | ok c' =>
    have hservers := (happly.servers_eq c'.session w').trans htook.servers_eq
    have hindex : c'.index < (p.get w).servers.length := by
      rw [← htook.servers_eq]
      exact (htook.inRange hg).index c' htook.current_eq
    obtain ⟨result, hafter, hreported⟩ := exists_reported hindex (apply c'.session w').1
    refine ⟨result, hreported, ?_⟩
    simp only [go_succ, Stage.step, htook.locked, Stage.ofObtained, hservers, hafter, go_finished]

theorem run_course (env : Environment σ S) (hp : ∀ g w, p.get (p.set g w) = g)
    (happly : p.Steady apply) (hg : (p.get w).InRange) :
    ∃ events used left, Course env p apply w events used left (run env p apply w) := by
  rcases hclosed : (p.get w).closed with _ | _
  case true =>
    rw [run_of_closed hclosed]
    exact ⟨_, _, _, .closed hclosed⟩
  have hrun : run env p apply w = run.go env p apply 4 .obtaining w := by
    unfold run
    simp only [go_succ 4, Stage.step, hclosed, Bool.false_eq_true, if_false]
  -- each turn and each application is the next step, and its result decides which one follows
  obtain ⟨events, r, w₁, hobtain⟩ := Place.exists_took hp (obtain_handover env hg w)
  rw [hrun, go_succ, Stage.step, hobtain.locked]
  cases r with
  | error fault =>
    simp only [Stage.ofObtained, go_finished]
    exact ⟨_, _, _, .unreached hclosed hobtain⟩
  | ok c =>
    rcases happlied : apply c.session w₁ with ⟨outcome, w₂⟩
    simp only [Stage.ofObtained, go_succ 2, Stage.step, happlied, Stage.afterFirst]
    by_cases hlost : Lost (p.get w₂).closed outcome
    case neg =>
      rw [if_neg ((callsForAnother_iff _ _).not.mpr hlost), go_finished]
      exact ⟨_, _, _, .once hclosed hobtain happlied hlost⟩
    obtain ⟨hrange, hservers⟩ := happly.applied hobtain hg happlied
    rw [if_pos ((callsForAnother_iff _ _).mpr hlost)]
    obtain ⟨more, r, w₃, hreplace, hends⟩ := go_replacing env hp happly (c := c) hrange
    cases r with
    | error fault =>
      rw [hends]
      exact ⟨_, _, _, .stranded hclosed hobtain happlied hlost hreplace⟩
    | ok c' =>
      obtain ⟨result, hreported, hends⟩ := hends
      rw [hservers] at hreported
      rw [hends]
      exact ⟨_, _, _, .twice hclosed hobtain happlied hlost hreplace rfl hreported⟩

/-- The first session is lost, and the turn that follows gives another one. -/
def Renewed (env : Environment σ S) (p : Place σ S) (apply : S → σ → Except ClientFault α × σ)
    (w : σ) : Prop :=
  (p.get w).closed = false ∧ ∃ c w₁ outcome w₂ c' w₃,
    p.locked (Group.obtain env) w = (.ok c, w₁) ∧
    apply c.session w₁ = (outcome, w₂) ∧ Lost (p.get w₂).closed outcome ∧
    p.locked (Group.replace env (some c.epoch)) w₂ = (.ok c', w₃)

namespace Course

variable {events : List (Event S)} {used : List (Application S α)} {left : Group S}
  {ended : Except ClientFault α × σ}

theorem length_used (h : Course env p apply w events used left ended) : used.length ≤ 2 := by
  cases h <;> simp

/-- Each of the two turns asks every server once at most. -/
theorem length_targets (h : Course env p apply w events used left ended) (happly : p.Steady apply)
    (hg : (p.get w).InRange) :
    (events.filterMap Event.target?).length ≤ 2 * (p.get w).servers.length := by
  -- whatever the second turn gives
  have both {first more : List (Event S)} {c : Current S} {outcome : Except ClientFault α}
      {r : Except ClientFault (Current S)} {w₁ w₂ w₃ : σ}
      (hobtain : p.Took env (Group.obtain env) w first (.ok c) w₁)
      (happlied : apply c.session w₁ = (outcome, w₂))
      (hreplace : p.Took env (Group.replace env (some c.epoch)) w₂ more r w₃) :
      ((first ++ more).filterMap Event.target?).length ≤ 2 * (p.get w).servers.length := by
    obtain ⟨hrange, hservers⟩ := happly.applied hobtain hg happlied
    have hfirst := hobtain.length_targets hg
    have hsecond := hreplace.length_targets hrange
    rw [hservers] at hsecond
    rw [List.filterMap_append, List.length_append]
    omega
  cases h with
  | closed => exact Nat.zero_le _
  | unreached _ hobtain | once _ hobtain =>
    have hfirst := hobtain.length_targets hg
    omega
  | stranded _ hobtain happlied _ hreplace | twice _ hobtain happlied _ hreplace =>
    exact both hobtain happlied hreplace

/-- It is applied a second time exactly if the first session is lost and there is another. -/
theorem length_used_eq_two_iff (h : Course env p apply w events used left ended) :
    used.length = 2 ↔ Renewed env p apply w := by
  unfold Renewed
  cases h with
  | closed hclosed => simp [hclosed]
  | unreached hopen hobtain => simp [hobtain.locked]
  | once hopen hobtain happlied hkept =>
    simp [hobtain.locked, happlied, hkept]
  | stranded hopen hobtain happlied hlost hreplace =>
    simp [hobtain.locked, happlied, hreplace.locked]
  | twice hopen hobtain happlied hlost hreplace =>
    simp [hopen, hobtain.locked, happlied, hlost, hreplace.locked]

theorem current_eq (h : Course env p apply w events used left ended)
    {first second : Application S α} (hused : used = [first, second]) :
    left.current = some second.current := by
  cases h with
  | twice _ _ _ _ hreplace =>
    cases hused
    exact hreplace.current_eq
  | _ => cases hused

theorem get_eq (h : Course env p apply w events used left ended) (happly : p.Apart apply) :
    p.get ended.2 = left := by
  cases h with
  | closed | unreached | stranded => rfl
  | once _ _ happlied => exact happly.applied happlied
  | twice _ _ _ _ _ hreapplied => exact happly.applied hreapplied

theorem inRange (h : Course env p apply w events used left ended) (happly : p.Steady apply)
    (hg : (p.get w).InRange) : (p.get ended.2).InRange := by
  cases h with
  | closed => exact hg
  | unreached _ hobtain => exact hobtain.inRange hg
  | once _ hobtain happlied => exact (happly.applied hobtain hg happlied).1
  | stranded _ hobtain happlied _ hreplace =>
    exact hreplace.inRange (happly.applied hobtain hg happlied).1
  | twice _ hobtain happlied _ hreplace hreapplied =>
    have hrange := (happly.applied hobtain hg happlied).1
    exact (happly.applied hreplace hrange hreapplied).1

end Course

theorem run_inRange (env : Environment σ S) (hp : ∀ g w, p.get (p.set g w) = g)
    (happly : p.Steady apply) (hg : (p.get w).InRange) : (p.get (run env p apply w).2).InRange := by
  obtain ⟨_, _, _, hcourse⟩ := run_course env hp happly hg
  exact hcourse.inRange happly hg

/-- The operation takes one of the courses. It is applied to two sessions at most, and no more
servers are asked for a session than two for each that there is. It is applied a second time exactly
if the first session is lost and there is another one; that one is in use then, and stays so while
nobody else takes a turn. -/
theorem run_retries (env : Environment σ S) (hp : ∀ g w, p.get (p.set g w) = g)
    (happly : p.Steady apply) (hg : (p.get w).InRange) :
    ∃ events used left, Course env p apply w events used left (run env p apply w) ∧
      used.length ≤ 2 ∧
      (events.filterMap Event.target?).length ≤ 2 * (p.get w).servers.length ∧
      (used.length = 2 ↔ Renewed env p apply w) ∧
      (∀ first second, used = [first, second] → left.current = some second.current) ∧
      (p.Apart apply → p.get (run env p apply w).2 = left) := by
  obtain ⟨events, used, left, hcourse⟩ := run_course env hp happly hg
  exact ⟨events, used, left, hcourse, hcourse.length_used, hcourse.length_targets happly hg,
    hcourse.length_used_eq_two_iff, fun _ _ hused => hcourse.current_eq hused, hcourse.get_eq⟩

end

/-- The session on the first of two servers is opened and lost, and so is that on the second: only
the second is named, and its session stays in use. -/
theorem run_retries_both_lost :
    let env : Environment (Group Nat) Nat :=
      { connect := fun index g => (.ok (index + 7), g)
        connected := fun _ _ g => g
        closeSession := fun _ g => g
        closeConnector := fun g => g }
    let p : Place (Group Nat) Nat := ⟨id, fun g _ => g⟩
    let apply : Nat → Group Nat → Except ClientFault Unit × Group Nat :=
      fun _ g => (.error (.transport .connectionClosed), g)
    let g : Group Nat := { servers := ["a", "b"] }
    let g' : Group Nat :=
      { servers := ["a", "b"], cursor := 0, epoch := 2, current := some ⟨8, 1, 2⟩ }
    (∀ g w, p.get (p.set g w) = g) ∧ p.Steady apply ∧ (p.get g).InRange ∧
    ∃ events used left,
      Course env p apply g events used left
        (.error (.communication [attempt "b" .connectionClosed] (some .connectionClosed)), g') ∧
      used.length = 2 ∧ (events.filterMap Event.target?).length ≤ 4 ∧ left = g' := by
  intro env p apply g g'
  have hp : ∀ g w, p.get (p.set g w) = g := fun _ _ => rfl
  have hapart : p.Apart apply := fun _ _ => rfl
  have hg : (p.get g).InRange := ⟨by decide, nofun⟩
  have hrun : run env p apply g =
      (.error (.communication [attempt "b" .connectionClosed] (some .connectionClosed)), g') := by
    dsimp only [env, p, apply, g, g']
    rfl
  obtain ⟨events, used, left, hcourse, -, htargets, htwice, -, hleft⟩ :=
    run_retries env hp hapart.steady hg
  rw [hrun] at hcourse hleft
  refine ⟨hp, hapart.steady, hg, events, used, left, hcourse, htwice.mpr ?_, htargets, ?_⟩
  · exact ⟨rfl, ⟨7, 0, 1⟩, _, _, _, ⟨8, 1, 2⟩, _, rfl, rfl, .inl ⟨_, rfl⟩, rfl⟩
  · exact (hleft hapart).symm

end NameDirectory.Failover
