import NameDirectory.Proofs.Contention

/-!
# What a group that nobody closed answers

Between the steps of an operation others may replace, and so close, the session it is about to use.
An operation that finds its session closed on the first application obtains another one; on the
second it reports what the session says.

* `replace_open`, `obtain_open`: an open group hands out a session or says which servers failed;
* `Call.Stands`: how an operation stands at a group that nobody closed; `Unclosed.step` keeps it so;
* `closed_only_by_retry`: the group is reported closed by second applications only.
-/

namespace NameDirectory.Failover

variable {σ S : Type} {env : Environment σ S} {g : Group S} {w : σ}

theorem exhaustedFault_ne_closed (attempts : List String) (cause : Option TransportFault) :
    exhaustedFault attempts cause ≠ .closed := by
  unfold exhaustedFault
  split
  · split <;> exact nofun
  · exact nofun

theorem install_open (g : Group S) (w : σ) : (g.install env w).1 ≠ .error .closed := by
  unfold Group.install
  split
  · exact fun h => exhaustedFault_ne_closed _ _ (Except.error.inj h)
  · exact nofun

theorem replace_open (hopen : g.closed = false) (failed : Option Nat) :
    (g.replace env failed w).1 ≠ .error .closed := by
  rw [Group.replace, if_neg (by simp [hopen])]
  split
  · exact install_open _ _
  · split
    · exact fun h => by cases h
    · exact install_open _ _

theorem obtain_open (hopen : g.closed = false) : (g.obtain env w).1 ≠ .error .closed := by
  unfold Group.obtain
  split
  · exact nofun
  · exact replace_open hopen none

end NameDirectory.Failover

namespace NameDirectory.Contention

open Failover

variable {σ S α : Type} {env : Environment σ S} {s s' : State σ S α}

/-- A session says that it is closed only when it is. -/
def OnlyOnceClosed (l : Ledger) (c : Current (Numbered S)) (outcome : Except ClientFault α) : Prop :=
  outcome = .error .closed → c.session.number ∈ l.closings

/-- How an operation stands at a group that nobody closed, where this was opened and closed. -/
def Call.Stands (l : Ledger) (call : Call S α) : Prop :=
  match call.stage with
  | .entering | .obtaining | .applying _ => call.used = []
  | .replacing _ | .reapplying _ => ∃ first, call.used = [first]
  | .finished r => r = .error .closed →
      ∃ first second, call.used = [second, first] ∧ second.session.number ∈ l.closings

theorem Call.Stands.mono {l l' : Ledger} {call : Call S α} (h : call.Stands l)
    (hl : ∀ n ∈ l.closings, n ∈ l'.closings) : call.Stands l' := by
  unfold Call.Stands at h ⊢
  split at h
  case h_6 =>
    intro hclosed
    obtain ⟨first, second, hused, hsecond⟩ := h hclosed
    exact ⟨first, second, hused, hl _ hsecond⟩
  all_goals exact h

/-- Without the lock: after the first application the fault that the session is closed calls for
another, after the second it is what the session said. -/
theorem Call.Stands.proceed {call : Call S α} {act : S → σ → Except ClientFault α × σ}
    {w : Shared σ S} {l : Ledger} (h : call.Stands l) (hstage : call.stage.needsLock = false)
    (hopen : w.group.closed = false)
    (hmay : ∀ c, call.stage.current? = some c →
      OnlyOnceClosed l c (act c.session.value w.world.world).1) :
    Call.Stands l ⟨(call.stage.step (environment env) place (applying act) w).1,
      call.stage.current?.toList ++ call.used⟩ := by
  obtain ⟨stage, used⟩ := call
  cases stage with
  | entering =>
    obtain rfl : used = [] := h
    simp only [Stage.step, place, hopen, Bool.false_eq_true, if_false]
    rfl
  | applying c =>
    obtain rfl : used = [] := h
    simp only [Stage.step, Stage.afterFirst]
    split
    · exact ⟨c, rfl⟩
    · next hanother =>
      intro hclosed
      rw [hclosed] at hanother
      exact absurd (by simp [callsForAnother, place, applying, Shared.elapse, hopen]) hanother
  | reapplying c =>
    obtain ⟨first, rfl⟩ : ∃ first, used = [first] := h
    have hclosed := hmay c rfl
    simp only [Stage.step, applying]
    generalize (act c.session.value w.world.world).1 = outcome at hclosed
    unfold Stage.afterSecond
    split
    · exact fun h => by cases h
    · exact fun h => ⟨first, c, rfl, hclosed h⟩
  | finished r => exact h
  | obtaining | replacing => cases hstage

/-- Under the lock: an open group does not refuse. -/
theorem Call.Stands.turn {call : Call S α} {act : S → σ → Except ClientFault α × σ}
    {w : Shared σ S} {l : Ledger} (h : call.Stands l) (hstage : call.stage.needsLock = true)
    (hopen : w.group.closed = false) :
    Call.Stands l ⟨(call.stage.step (environment env) place (applying act) w).1,
      call.stage.current?.toList ++ call.used⟩ := by
  obtain ⟨stage, used⟩ := call
  cases stage with
  | obtaining =>
    obtain rfl : used = [] := h
    have hobtain : (w.group.obtain (environment env) w).1 ≠ .error .closed := obtain_open hopen
    simp only [Stage.step, Place.locked, place]
    generalize (w.group.obtain (environment env) w).1 = r at hobtain
    cases r with
    | ok c => rfl
    | error fault => exact fun h => absurd (congrArg _ (Except.error.inj h)) hobtain
  | replacing epoch =>
    obtain ⟨first, rfl⟩ : ∃ first, used = [first] := h
    have hreplace : (w.group.replace (environment env) (some epoch) w).1 ≠ .error .closed :=
      replace_open hopen _
    simp only [Stage.step, Place.locked, place]
    generalize (w.group.replace (environment env) (some epoch) w).1 = r at hreplace
    cases r with
    | ok c => exact ⟨first, rfl⟩
    | error fault => exact fun h => absurd (congrArg _ (Except.error.inj h)) hreplace
  | entering | applying | reapplying | finished => cases hstage

/-- Nobody closed the group, or every operation stands so. -/
def Unclosed (s : State σ S α) : Prop :=
  s.closings = [] → ∀ call ∈ s.calls, call.Stands s.shared.world.ledger

namespace Unclosed

theorem set (h : Unclosed s) (hnone : s.closings = []) {k : Nat} {call : Call S α} {l : Ledger}
    (hl : ∀ n ∈ s.shared.world.ledger.closings, n ∈ l.closings) (hcall : call.Stands l) :
    ∀ call' ∈ s.calls.set k call, call'.Stands l := by
  intro call' hcall'
  rcases List.mem_or_eq_of_mem_set hcall' with hcall' | rfl
  · exact (h hnone call' hcall').mono hl
  · exact hcall

theorem step (h : Unclosed s) (hinv : Inv s) (hs : Step env OnlyOnceClosed s s') : Unclosed s' := by
  have hopen := hinv.open_of_nobody
  have hnobody : ∀ {j : Nat} {c : Closing} (c' : Closing), s.closings[j]? = some c →
      s.closings.set j c' ≠ [] := fun c' hj hnil => by
    rw [List.set_eq_nil_iff] at hnil
    rw [hnil] at hj
    cases hj
  cases hs with
  | ask =>
    intro hnone call hcall
    rcases List.mem_append.mp hcall with hcall | hcall
    · exact h hnone call hcall
    · obtain rfl := List.mem_singleton.mp hcall
      rfl
  | @proceed k call act hcall hstage hmay =>
    intro (hnone : s.closings = [])
    obtain ⟨world, hworld⟩ := step_of_not_needsLock env act hstage s.shared
    have hledger : (s.proceed env act k call).shared.world.ledger = s.shared.world.ledger :=
      (congrArg (fun w : Shared σ S => w.world.ledger) hworld).trans rfl
    have hstands := h hnone call (List.mem_of_getElem? hcall)
    rw [hledger]
    exact h.set hnone (fun _ hn => hn) (hstands.proceed hstage (hopen hnone) hmay)
  | lock => exact h
  | @turn k saw call act hcall hstage hlock =>
    intro (hnone : s.closings = [])
    have hsaw : saw = false := by
      by_contra hseen
      have hclosed := hinv.seen k (by simpa [hseen] using hlock)
      rw [hopen hnone] at hclosed
      cases hclosed
    obtain rfl := hsaw
    have hstands := h hnone call (List.mem_of_getElem? hcall)
    have hgrows : ∀ n ∈ s.shared.world.ledger.closings,
        n ∈ (s.turn env act k false call).shared.world.ledger.closings := fun n hn =>
      (kept_of_needsLock (w := s.shared.withFlag false) (account_closed env n) act hstage hn).1
    exact h.set hnone hgrows ((hstands.mono hgrows).turn hstage rfl)
  | close => exact fun hnil => absurd hnil (by simp)
  | leave hj _ => exact fun hnil => absurd hnil (hnobody _ hj)
  | mark hj _ => exact fun hnil => absurd hnil (hnobody _ hj)
  | clear hj _ => exact fun hnil => absurd hnil (hnobody _ hj)
  | finish hj => exact fun hnil => absurd hnil (hnobody _ hj)
  | elsewhere => exact h

end Unclosed

theorem Reachable.unclosed (h : Reachable env OnlyOnceClosed s) : Unclosed s := by
  induction h with
  | start => exact fun _ _ hcall => nomatch hcall
  | step h hs ih => exact ih.step h.inv hs

/-- Where nobody closed the group and sessions say that they are closed only once they are, an
operation ends with the fault that it is closed only after it was applied twice, the second time to
a session that had been replaced by then. -/
theorem closed_only_by_retry (h : Reachable env OnlyOnceClosed s) (hnone : s.closings = [])
    {call : Call S α} (hcall : call ∈ s.calls) (hended : call.stage = .finished (.error .closed)) :
    ∃ first second, call.used = [second, first] ∧
      second.session.number ∈ s.shared.world.ledger.closings ∧
      ∀ c, s.shared.group.current = some c → c.session.number ≠ second.session.number := by
  have hstands := h.unclosed hnone call hcall
  rw [Call.Stands, hended] at hstands
  obtain ⟨first, second, hused, hsecond⟩ := hstands rfl
  refine ⟨first, second, hused, hsecond, fun c hc heq => ?_⟩
  obtain ⟨-, hlive⟩ := h.inv.settled.mem_closings_iff.mp hsecond
  exact hlive (by simp [Failover.Group.session?, hc, heq])

/-- An operation lost the session on the first of three servers and is about to be applied to that on
the second; so it waits, and another operation begins. -/
def awaiting : State Unit Nat Nat where
  shared :=
    { group :=
        { servers := ["a", "b", "c"], cursor := 2, epoch := 2, current := some ⟨⟨1, 1⟩, 1, 2⟩ }
      world := { world := (), ledger := ⟨2, [0]⟩ }
      asked := 2 }
  calls := [⟨.reapplying ⟨⟨1, 1⟩, 1, 2⟩, [⟨⟨0, 0⟩, 0, 1⟩]⟩, {}]

theorem reachable_awaiting : Reachable willing OnlyOnceClosed awaiting := by
  let lost : Nat → Unit → Except ClientFault Nat × Unit :=
    fun _ _ => (.error (.transport (.stream .refused)), ())
  let unused : State Unit Nat Nat := .start ["a", "b", "c"] 0 ()
  have hs : Reachable willing OnlyOnceClosed unused := .start ["a", "b", "c"] 0 ()
  have hs := hs.step .ask
  have hs := hs.step (.proceed (k := 0) lost rfl rfl nofun)
  have hs := hs.step (.lock (k := 0) rfl rfl rfl)
  have hs := hs.step (.turn (k := 0) lost rfl rfl rfl)
  have hs := hs.step (.proceed (k := 0) lost rfl rfl fun _ _ => nofun)
  have hs := hs.step (.lock (k := 0) rfl rfl rfl)
  have hs := hs.step (.turn (k := 0) lost rfl rfl rfl)
  exact hs.step .ask

/-- The other operation loses the session as well, and replaces it before the first uses it. -/
theorem overtaken_retry :
    ∃ s : State Unit Nat Nat, Reachable willing OnlyOnceClosed s ∧ s.closings = [] ∧
      ⟨.finished (.error .closed), [⟨⟨1, 1⟩, 1, 2⟩, ⟨⟨0, 0⟩, 0, 1⟩]⟩ ∈ s.calls ∧
      s.shared.world.ledger = ⟨3, [1, 0]⟩ ∧ s.shared.group.current = some ⟨⟨2, 2⟩, 2, 3⟩ := by
  let lost : Nat → Unit → Except ClientFault Nat × Unit :=
    fun _ _ => (.error (.transport (.stream .refused)), ())
  let gone : Nat → Unit → Except ClientFault Nat × Unit := fun _ _ => (.error .closed, ())
  have hs := reachable_awaiting
  have hs := hs.step (.proceed (k := 1) lost rfl rfl nofun)
  have hs := hs.step (.lock (k := 1) rfl rfl rfl)
  have hs := hs.step (.turn (k := 1) lost rfl rfl rfl)
  have hs := hs.step (.proceed (k := 1) lost rfl rfl fun _ _ => nofun)
  have hs := hs.step (.lock (k := 1) rfl rfl rfl)
  have hs := hs.step (.turn (k := 1) lost rfl rfl rfl)
  have hs := hs.step (.proceed (k := 0) gone rfl rfl (by rintro c ⟨⟩ -; decide))
  exact ⟨_, hs, rfl, List.mem_cons_self, rfl, rfl⟩

/-- The second session is the one that the other operation replaced. -/
theorem closed_only_by_retry_overtaken :
    ∃ (s : State Unit Nat Nat) (call : Call Nat Nat), Reachable willing OnlyOnceClosed s ∧
      s.closings = [] ∧ call ∈ s.calls ∧ call.stage = .finished (.error .closed) ∧
      ∃ first second, call.used = [second, first] ∧
        second.session.number ∈ s.shared.world.ledger.closings ∧
        ∀ c, s.shared.group.current = some c → c.session.number ≠ second.session.number := by
  obtain ⟨s, hs, hnone, hcall, -, -⟩ := overtaken_retry
  exact ⟨s, _, hs, hnone, hcall, rfl, closed_only_by_retry hs hnone hcall rfl⟩

/-- Nobody closed the group, sessions say that they are closed only once they are, and one of the
servers is in use; still an operation ends with the fault that the group is closed. -/
theorem open_group_reported_closed :
    ∃ s : State Unit Nat Nat, Reachable willing OnlyOnceClosed s ∧ s.closings = [] ∧
      s.shared.group.closed = false ∧ s.shared.group.current.isSome ∧
      ∃ call ∈ s.calls, call.stage = .finished (.error .closed) := by
  obtain ⟨s, hs, hnone, hcall, -, hcurrent⟩ := overtaken_retry
  exact ⟨s, hs, hnone, hs.inv.open_of_nobody hnone, by rw [hcurrent]; rfl, _, hcall, rfl⟩

end NameDirectory.Contention
