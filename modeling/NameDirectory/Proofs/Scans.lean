import Mathlib.Data.List.Nodup
import Mathlib.Data.Nat.ModEq
import NameDirectory.Failover

/-!
# What replacing a session does

A failover asks its environment for one thing after the other; `Happens` says that a list of events
is what was asked, with the answers that were given, on the way from one world to another.

* `scan_happens`: a scan asks the servers from the cursor on, in order, until one accepts;
* `foldl_explain`: of the refusals, the last of who we are is kept, else the first failure to reach
  a server;
* `replace_scans`: all that replacing a session does, and what it gives.
-/

namespace NameDirectory.Failover

variable {σ S : Type}

/-! ## Events -/

/-- Something that was asked of the environment. -/
inductive Event (S : Type) where
  | connect (index : Nat) (outcome : Except TransportFault S)
  | connected (index : Nat) (session : S)
  | closeSession (session : S)

/-- The server that was asked for a session. -/
def Event.target? : Event S → Option Nat
  | connect index _ => some index
  | connected .. | closeSession _ => none

/-- These events, one after the other, lead from one world to another. -/
inductive Happens (env : Environment σ S) : List (Event S) → σ → σ → Prop
  | nothing (w : σ) : Happens env [] w w
  | connect {index : Nat} {outcome : Except TransportFault S} {events : List (Event S)} {w w₁ w₂ : σ}
      (h : env.connect index w = (outcome, w₁)) (rest : Happens env events w₁ w₂) :
      Happens env (.connect index outcome :: events) w w₂
  | connected {index : Nat} {session : S} {events : List (Event S)} {w w₁ : σ}
      (rest : Happens env events (env.connected index session w) w₁) :
      Happens env (.connected index session :: events) w w₁
  | closeSession {session : S} {events : List (Event S)} {w w₁ : σ}
      (rest : Happens env events (env.closeSession session w) w₁) :
      Happens env (.closeSession session :: events) w w₁

theorem Happens.append {env : Environment σ S} {events more : List (Event S)} {w w₁ w₂ : σ}
    (h : Happens env events w w₁) (h' : Happens env more w₁ w₂) :
    Happens env (events ++ more) w w₂ := by
  induction h with
  | nothing => exact h'
  | connect hconnect _ ih => exact .connect hconnect (ih h')
  | connected _ ih => exact .connected (ih h')
  | closeSession _ ih => exact .closeSession (ih h')

/-! ## Servers in order -/

/-- The server that is `i` places after the cursor, in a circle of `n`. -/
def serverAt (n cursor i : Nat) : Nat := (cursor + i) % n

theorem serverAt_zero {n cursor : Nat} (h : cursor < n) : serverAt n cursor 0 = cursor :=
  Nat.mod_eq_of_lt h

theorem serverAt_self {n cursor : Nat} (h : cursor < n) : serverAt n cursor n = cursor := by
  unfold serverAt
  rw [Nat.add_mod_right, Nat.mod_eq_of_lt h]

theorem serverAt_succ (n cursor i : Nat) :
    serverAt n ((cursor + 1) % n) i = serverAt n cursor (i + 1) := by
  unfold serverAt
  rw [Nat.mod_add_mod, Nat.add_assoc, Nat.add_comm 1 i]

theorem nodup_serverAt (n cursor : Nat) {k : Nat} (hk : k ≤ n) :
    ((List.range k).map (serverAt n cursor)).Nodup := by
  refine List.Nodup.map_on ?_ List.nodup_range
  intro i hi j hj heq
  rw [List.mem_range] at hi hj
  have hmod : Nat.ModEq n (cursor + i) (cursor + j) := heq
  exact (Nat.ModEq.add_left_cancel' cursor hmod).eq_of_lt_of_lt (by omega) (by omega)

/-- Attempts that failed, the first at the cursor. -/
def refusals (n cursor : Nat) (faults : List TransportFault) : List (Event S) :=
  faults.mapIdx fun i fault => .connect (serverAt n cursor i) (.error fault)

/-- What is reported of them. -/
def reports (servers : List String) (cursor : Nat) (faults : List TransportFault) : List String :=
  faults.mapIdx fun i fault =>
    attempt (servers[serverAt servers.length cursor i]?.getD "") fault

theorem refusals_cons {n cursor : Nat} (h : cursor < n) (fault : TransportFault)
    (faults : List TransportFault) :
    refusals n cursor (fault :: faults) =
      (.connect cursor (.error fault) :: refusals n ((cursor + 1) % n) faults : List (Event S)) := by
  simp only [refusals, List.mapIdx_cons, serverAt_zero h, serverAt_succ]

theorem reports_cons {servers : List String} {cursor : Nat} (h : cursor < servers.length)
    (fault : TransportFault) (faults : List TransportFault) :
    reports servers cursor (fault :: faults) =
      attempt (servers[cursor]?.getD "") fault ::
        reports servers ((cursor + 1) % servers.length) faults := by
  simp only [reports, List.mapIdx_cons, serverAt_zero h, serverAt_succ]

theorem targets_refusals {n cursor : Nat} (h : cursor < n) (faults : List TransportFault) :
    (refusals n cursor faults : List (Event S)).filterMap Event.target? =
      (List.range faults.length).map (serverAt n cursor) := by
  induction faults generalizing cursor with
  | nil => rfl
  | cons fault faults ih =>
    have hnext : (cursor + 1) % n < n := Nat.mod_lt _ (by omega)
    rw [refusals_cons h, List.length_cons, List.range_succ_eq_map, List.filterMap_cons, ih hnext]
    simp only [Event.target?, List.map_cons, List.map_map, serverAt_zero h]
    congr 1
    exact List.map_congr_left fun i _ => serverAt_succ n cursor i

/-! ## The fault of a scan -/

/-- What a scan in which every server failed is reported as. -/
def verdict (reports : List String) (faults : List TransportFault) : ClientFault :=
  match (faults.filter (·.isAuthentication)).getLast? with
  | some fault => .authentication reports (some fault)
  | none => .communication reports (faults.find? (·.isConnectivity))

theorem exists_verdict (reports : List String) (faults : List TransportFault) :
    ∃ cause, verdict reports faults = .communication reports cause ∨
      verdict reports faults = .authentication reports cause := by
  unfold verdict
  split
  · exact ⟨_, .inr rfl⟩
  · exact ⟨_, .inl rfl⟩

theorem isAuthentication_of_isConnectivity {fault : TransportFault}
    (h : fault.isConnectivity = true) : fault.isAuthentication = false := by
  cases fault <;> simp_all [TransportFault.isConnectivity, TransportFault.isAuthentication]

/-- The last refusal of who we are takes the place of every other cause, and the first failure to
reach a server that of none. -/
theorem foldl_explain (faults : List TransportFault) (cause : Option TransportFault) :
    faults.foldl explain cause =
      ((faults.filter (·.isAuthentication)).getLast?).or
        (cause.or (faults.find? (·.isConnectivity))) := by
  induction faults generalizing cause with
  | nil => simp
  | cons fault faults ih =>
    rw [List.foldl_cons, ih]
    by_cases hauth : fault.isAuthentication = true
    · simp [explain, hauth, List.getLast?_cons]
    · rw [List.filter_cons_of_neg hauth]
      cases cause with
      | some cause => simp [explain, hauth]
      | none => cases hfound : fault.isConnectivity <;> simp [explain, hauth, hfound]

theorem exhaustedFault_eq (reports : List String) (faults : List TransportFault) :
    exhaustedFault reports (faults.foldl explain none) = verdict reports faults := by
  rw [foldl_explain]
  unfold verdict
  cases hauth : (faults.filter (·.isAuthentication)).getLast? with
  | some fault =>
    have hmem := List.mem_filter.mp (List.mem_of_getLast? hauth)
    simp [exhaustedFault, hmem.2]
  | none =>
    cases hfind : faults.find? (·.isConnectivity) with
    | none => rfl
    | some fault =>
      have hconnectivity := List.find?_some hfind
      simp [exhaustedFault, isAuthentication_of_isConnectivity hconnectivity]

/-! ## Scanning and replacing -/

theorem scan_happens (env : Environment σ S) (servers : List String) (tries : Nat) {cursor : Nat}
    (hcursor : cursor < servers.length) (attempts : List String) (cause : Option TransportFault)
    (w : σ) :
    ∃ (faults : List TransportFault) (w₁ : σ),
      Happens env (refusals servers.length cursor faults) w w₁ ∧
      (faults.length = tries ∧
          scan env servers tries cursor attempts cause w =
            (.exhausted (attempts ++ reports servers cursor faults) (faults.foldl explain cause),
              serverAt servers.length cursor tries, w₁) ∨
        faults.length < tries ∧ ∃ (session : S) (w₂ : σ),
          env.connect (serverAt servers.length cursor faults.length) w₁ = (.ok session, w₂) ∧
          scan env servers tries cursor attempts cause w =
            (.found (serverAt servers.length cursor faults.length) session,
              serverAt servers.length cursor (faults.length + 1), w₂)) := by
  induction tries generalizing cursor attempts cause w with
  | zero =>
    refine ⟨[], w, .nothing w, .inl ⟨rfl, ?_⟩⟩
    simp [scan, reports, serverAt_zero hcursor]
  | succ tries ih =>
    have hnext : (cursor + 1) % servers.length < servers.length := Nat.mod_lt _ (by omega)
    unfold scan
    rcases hconnect : env.connect cursor w with ⟨fault | session, w₁⟩
    · obtain ⟨faults, w₂, hhappens, hends⟩ := ih hnext
        (attempts ++ [attempt (servers[cursor]?.getD "") fault]) (explain cause fault) w₁
      simp only [serverAt_succ] at hends
      refine ⟨fault :: faults, w₂, ?_, ?_⟩
      · rw [refusals_cons hcursor]
        exact .connect hconnect hhappens
      · rw [reports_cons hcursor, List.length_cons, List.foldl_cons]
        rcases hends with ⟨hlength, hscan⟩ | ⟨hlength, session, w₃, hfound, hscan⟩
        · refine .inl ⟨by omega, ?_⟩
          rw [List.append_assoc] at hscan
          exact hscan
        · exact .inr ⟨by omega, session, w₃, hfound, hscan⟩
    · refine ⟨[], w, .nothing w, .inr ⟨by simp, session, w₁, ?_, ?_⟩⟩
      · rw [List.length_nil, serverAt_zero hcursor]
        exact hconnect
      · rw [List.length_nil, serverAt_zero hcursor]
        rfl

/-- What comes of a scan, by all that was asked during it: what the caller is handed, and the
group afterwards. -/
inductive Scanned (g : Group S) :
    List (Event S) → Except ClientFault (Current S) → Group S → Prop
  /-- Every server refused; the cursor is where it was. -/
  | exhausted (faults : List TransportFault) (hall : faults.length = g.servers.length) :
      Scanned g (refusals g.servers.length g.cursor faults)
        (.error (verdict (reports g.servers g.cursor faults) faults)) { g with current := none }
  /-- A server accepted after those before it had refused. -/
  | found (faults : List TransportFault) (c : Current S) (hlt : faults.length < g.servers.length)
      (hindex : c.index = serverAt g.servers.length g.cursor faults.length)
      (hepoch : c.epoch = g.epoch + 1) :
      Scanned g
        (refusals g.servers.length g.cursor faults ++
          [.connect c.index (.ok c.session), .connected c.index c.session])
        (.ok c)
        { g with cursor := serverAt g.servers.length g.cursor (faults.length + 1),
                 epoch := c.epoch, current := some c }

theorem Scanned.nodup_targets {g g' : Group S} {events : List (Event S)}
    {r : Except ClientFault (Current S)} (h : Scanned g events r g')
    (hcursor : g.cursor < g.servers.length) : (events.filterMap Event.target?).Nodup := by
  cases h with
  | exhausted faults hall =>
    rw [targets_refusals hcursor]
    exact nodup_serverAt _ _ hall.le
  | found faults c hlt hindex _ =>
    have htargets := nodup_serverAt g.servers.length g.cursor (Nat.succ_le_of_lt hlt)
    have hlast : ([.connect c.index (.ok c.session), .connected c.index c.session] :
        List (Event S)).filterMap Event.target? = [c.index] := rfl
    rw [List.filterMap_append, targets_refusals hcursor, hlast, hindex]
    simpa [List.range_succ] using htargets

theorem install_happens (env : Environment σ S) {g : Group S}
    (hcursor : g.cursor < g.servers.length) (w : σ) :
    ∃ (events : List (Event S)) (r : Except ClientFault (Current S)) (g' : Group S) (w' : σ),
      g.install env w = (r, g', w') ∧ Happens env events w w' ∧ Scanned g events r g' := by
  obtain ⟨faults, w₁, hhappens, ⟨hlength, hscan⟩ | ⟨hlength, session, w₂, hconnect, hscan⟩⟩ :=
    scan_happens env g.servers g.servers.length hcursor [] none w
  · refine ⟨_, _, _, w₁, ?_, hhappens, .exhausted faults hlength⟩
    unfold Group.install
    rw [hscan, serverAt_self hcursor, ← exhaustedFault_eq]
    rfl
  · let c : Current S := ⟨session, serverAt g.servers.length g.cursor faults.length, g.epoch + 1⟩
    have hfound : Happens env [.connect c.index (.ok c.session), .connected c.index c.session] w₁
        (env.connected c.index c.session w₂) := .connect hconnect (.connected (.nothing _))
    refine ⟨_, _, _, _, ?_, hhappens.append hfound, .found faults c hlength rfl rfl⟩
    unfold Group.install
    rw [hscan]

/-- Replacing the session in use: it is closed, and the servers are asked for another one, which
does not depend on it. -/
theorem replace_current_happens (env : Environment σ S) {g : Group S}
    (hcursor : g.cursor < g.servers.length) (hopen : g.closed = false) {c : Current S}
    (hc : g.current = some c) (w : σ) :
    ∃ (events : List (Event S)) (r : Except ClientFault (Current S)) (g' : Group S) (w' : σ),
      g.replace env (some c.epoch) w = (r, g', w') ∧
      Happens env (.closeSession c.session :: events) w w' ∧ Scanned g events r g' := by
  have hempty : ({ g with current := none } : Group S).cursor < g.servers.length := hcursor
  obtain ⟨events, r, g', w', hinstall, hhappens, hscanned⟩ :=
    install_happens env hempty (env.closeSession c.session w)
  refine ⟨events, r, g', w', ?_, .closeSession hhappens, ?_⟩
  · unfold Group.replace
    rw [if_neg (by simp [hopen]), hc]
    simpa using hinstall
  · cases hscanned with
    | exhausted faults hall => exact .exhausted faults hall
    | found faults c' hlt hindex hepoch => exact .found faults c' hlt hindex hepoch

def Group.closings (g : Group S) : List (Event S) :=
  g.current.toList.map fun c => .closeSession c.session

/-- On an open group, a session that is not the one reported stays in use, and nothing happens.
Otherwise the session in use is closed, and the servers from the cursor on are asked for another
until one accepts, none of them twice: the session that is found is the one in use from then on,
with the next epoch, and is noticed once; if none is found, all attempts are reported. -/
theorem replace_scans (env : Environment σ S) {g : Group S}
    (hcursor : g.cursor < g.servers.length) (hopen : g.closed = false) (failed : Option Nat)
    (w : σ) :
    (∀ c, g.current = some c → failed ≠ some c.epoch →
      g.replace env failed w = (.ok c, g, w)) ∧
    ((∀ c, g.current = some c → failed = some c.epoch) →
      ∃ (events : List (Event S)) (r : Except ClientFault (Current S)) (g' : Group S) (w' : σ),
        g.replace env failed w = (r, g', w') ∧ Happens env (g.closings ++ events) w w' ∧
        Scanned g events r g' ∧ (events.filterMap Event.target?).Nodup) := by
  have hnotclosed : ¬ g.closed = true := by simp [hopen]
  constructor
  · intro c hc hfailed
    unfold Group.replace
    rw [if_neg hnotclosed, hc]
    simp only [if_pos hfailed]
  · intro hstale
    cases hc : g.current with
    | none =>
      obtain ⟨events, r, g', w', hinstall, hhappens, hscanned⟩ := install_happens env hcursor w
      refine ⟨events, r, g', w', ?_, ?_, hscanned, hscanned.nodup_targets hcursor⟩
      · unfold Group.replace
        rw [if_neg hnotclosed, hc]
        exact hinstall
      · simpa [Group.closings, hc] using hhappens
    | some c =>
      have hempty : ({ g with current := none } : Group S).cursor < g.servers.length := hcursor
      obtain ⟨events, r, g', w', hinstall, hhappens, hscanned⟩ :=
        install_happens env hempty (env.closeSession c.session w)
      have hscanned : Scanned g events r g' := by
        cases hscanned with
        | exhausted faults hall => exact .exhausted faults hall
        | found faults c' hlt hindex hepoch => exact .found faults c' hlt hindex hepoch
      refine ⟨events, r, g', w', ?_, ?_, hscanned, hscanned.nodup_targets hcursor⟩
      · unfold Group.replace
        rw [if_neg hnotclosed, hc]
        simp only [hstale c hc, ne_eq, not_true_eq_false, if_false]
        exact hinstall
      · simp only [Group.closings, hc, Option.toList, List.map_cons, List.map_nil,
          List.singleton_append]
        exact .closeSession hhappens

/-- The session on the second of three servers fails. The third is down, the first does not accept
who we are, the second breaks the rules: the cause is the refusal. -/
theorem replace_scans_all_refuse :
    let env : Environment Unit Nat :=
      { connect := fun index _ =>
          (.error ([.authentication "PLAIN" "no", .violation .unaskedChannel][index]?.getD
            (.stream .refused)), ())
        connected := fun _ _ _ => ()
        closeSession := fun _ _ => ()
        closeConnector := fun _ => () }
    let g : Group Nat :=
      { servers := ["a", "b", "c"], cursor := 2, epoch := 4, current := some ⟨7, 1, 4⟩ }
    let fault : ClientFault := .authentication
      [attempt "c" (.stream .refused), attempt "a" (.authentication "PLAIN" "no"),
        attempt "b" (.violation .unaskedChannel)]
      (some (.authentication "PLAIN" "no"))
    g.cursor < g.servers.length ∧ g.closed = false ∧
    ∃ events : List (Event Nat),
      g.replace env (some 4) () = (.error fault, { g with current := none }, ()) ∧
      Happens env (.closeSession 7 :: events) () () ∧
      Scanned g events (.error fault) { g with current := none } ∧
      (events.filterMap Event.target?).Nodup := by
  intro env g fault
  have hcursor : g.cursor < g.servers.length := by decide
  have hreplace : g.replace env (some 4) () = (.error fault, { g with current := none }, ()) := by
    dsimp only [g]
    rfl
  obtain ⟨events, r, g', w', hr, hhappens, hscanned, honce⟩ :=
    (replace_scans env hcursor rfl (some 4) ()).2 fun c hc => by cases hc; rfl
  rw [hreplace] at hr
  cases hr
  exact ⟨hcursor, rfl, events, hreplace, hhappens, hscanned, honce⟩

end NameDirectory.Failover
