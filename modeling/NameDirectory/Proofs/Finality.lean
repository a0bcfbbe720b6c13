import NameDirectory.Proofs.Contention

/-!
# A group that was closed

A call that closes may find the lock taken by an operation that had read the flag before: the
session that it still opens is then closed with the rest, for the lock is freed before the call
that closes gets it (`Inv.cleared`).

* `Over`: how a group stands after a call that closes returned; `Over.step`: it stays so;
* `closed_stays_closed`: nothing is in use or opened any more, and whoever asks is refused.
-/

namespace NameDirectory.Contention

open Failover

variable {σ S α : Type} {env : Environment σ S}
  {may : Ledger → Current (Numbered S) → Except ClientFault α → Prop} {s s' : State σ S α}

/-- A call that closes has returned; since then no session was asked for, and of the operations
from number `n` on none did more than to read the flag. -/
structure Over (asked n : Nat) (s : State σ S α) : Prop where
  inv : Inv s
  completed : .completed ∈ s.closings
  asked : s.shared.asked = asked
  refused : ∀ k call, n ≤ k → s.calls[k]? = some call →
    call.stage = .entering ∨ call.stage = .finished (.error .closed)

namespace Over

variable {asked n : Nat}

theorem closed (h : Over asked n s) : s.shared.group.closed = true :=
  h.inv.closed_of_clears h.completed rfl

theorem current (h : Over asked n s) : s.shared.group.current = none :=
  (h.inv.cleared _ h.completed rfl).1

theorem connectorClosings (h : Over asked n s) : s.shared.connectorClosings = 1 := by
  have hpos : 0 < s.closings.countP (· = .completed) :=
    List.countP_pos_iff.mpr ⟨_, h.completed, by decide⟩
  have hle := h.inv.connectorClosings_le
  rw [← h.inv.connector] at hpos
  omega

/-- Another call that closes goes on. -/
theorem completed_set (h : Over asked n s) {j : Nat} {c : Closing} (hj : s.closings[j]? = some c)
    (hc : c ≠ .completed) (c' : Closing) : .completed ∈ s.closings.set j c' := by
  obtain ⟨i, hi⟩ := List.mem_iff_getElem?.mp h.completed
  have hne : j ≠ i := by
    rintro rfl
    exact hc (Option.some.inj (hj.symm.trans hi))
  exact List.mem_of_getElem? ((List.getElem?_set_ne hne).trans hi)

/-- Whoever begins now is refused. -/
theorem step_refused (h : Over asked n s) {act : S → σ → Except ClientFault α × σ}
    {stage : Stage (Numbered S) α}
    (hstage : stage = .entering ∨ stage = .finished (.error .closed)) :
    (stage.step (environment env) place (applying act) s.shared).1 = .finished (.error .closed) := by
  rcases hstage with rfl | rfl
  · exact if_pos h.closed
  · rfl

theorem step (h : Over asked n s) (hs : Step env may s s') : Over asked n s' := by
  have hinv := h.inv.step hs
  cases hs with
  | ask =>
    refine ⟨hinv, h.completed, h.asked, fun k call hk hcall => ?_⟩
    rw [List.getElem?_append] at hcall
    split at hcall
    · exact h.refused k call hk hcall
    · obtain rfl := List.mem_singleton.mp (List.mem_of_getElem? hcall)
      exact .inl rfl
  | @proceed k call act hcall hstage _ =>
    obtain ⟨world, hworld⟩ := step_of_not_needsLock env act hstage s.shared
    refine ⟨hinv, h.completed, ?_, fun k' call' hk' hcall' => ?_⟩
    · exact (congrArg Shared.asked hworld).trans h.asked
    · rcases eq_or_ne k k' with rfl | hne
      · obtain rfl := Option.some.inj ((State.getElem?_proceed hcall).symm.trans hcall')
        exact .inr (h.step_refused (h.refused k call hk' hcall))
      · exact h.refused k' call' hk' ((List.getElem?_set_ne hne).symm.trans hcall')
  | lock => exact ⟨hinv, h.completed, h.asked, h.refused⟩
  | @turn k saw call act hcall hstage hlock =>
    obtain rfl := (h.inv.cleared _ h.completed rfl).2 k saw hlock
    refine ⟨hinv, h.completed, ?_, fun k' call' hk' hcall' => ?_⟩
    · have hkept := step_of_seen env act (w := s.shared.withFlag true) hstage rfl
      exact (congrArg Shared.asked hkept.1).trans h.asked
    · have hne : k ≠ k' := by
        rintro rfl
        rcases h.refused k call hk' hcall with hrefused | hrefused <;>
          cases hrefused ▸ hstage
      exact h.refused k' call' hk' ((List.getElem?_set_ne hne).symm.trans hcall')
  | close => exact ⟨hinv, List.mem_append_left _ h.completed, h.asked, h.refused⟩
  | leave hj _ => exact ⟨hinv, h.completed_set hj (by decide) _, h.asked, h.refused⟩
  | mark hj _ => exact ⟨hinv, h.completed_set hj (by decide) _, h.asked, h.refused⟩
  | clear hj _ =>
    refine ⟨hinv, h.completed_set hj (by decide) _, ?_, h.refused⟩
    simp only [Place.locked, place, Failover.Group.clear, h.current]
    exact h.asked
  | finish hj => exact ⟨hinv, h.completed_set hj (by decide) _, h.asked, h.refused⟩
  | elsewhere => exact ⟨hinv, h.completed, h.asked, h.refused⟩

theorem later (h : Over asked n s) (hs : Later env may s s') : Over asked n s' := by
  induction hs with
  | refl => exact h
  | tail _ hstep ih => exact ih.step hstep

end Over

/-- However many calls close a group, what its sessions are opened with is closed once at most; and
when the call that set the flag has returned, from then on no session is in use, none is asked for,
each that was opened was closed once, and so was what they were opened with; and every operation
that begins then has ended with the fault that the group is closed, or is about to read the flag,
and then ends so. -/
theorem closed_stays_closed (h : Reachable env may s) :
    s.shared.connectorClosings ≤ 1 ∧
    (.completed ∈ s.closings → ∀ s', Later env may s s' →
      s'.shared.group.current = none ∧
      s'.shared.asked = s.shared.asked ∧
      (∀ k call, s.calls.length ≤ k → s'.calls[k]? = some call →
        call.stage = .finished (.error .closed) ∨
        call.stage = .entering ∧ ∀ act, Step env may s' (s'.proceed env act k call) ∧
          (s'.proceed env act k call).calls[k]? = some ⟨.finished (.error .closed), call.used⟩) ∧
      s'.shared.world.ledger.closings.Perm (List.range s'.shared.world.ledger.opened) ∧
      s'.shared.connectorClosings = 1) := by
  refine ⟨h.inv.connectorClosings_le, fun hcompleted s' hlater => ?_⟩
  have hover : Over s.shared.asked s.calls.length s :=
    ⟨h.inv, hcompleted, rfl, fun k call hk hcall => by
      rw [List.getElem?_eq_none hk] at hcall
      cases hcall⟩
  have hover := hover.later hlater
  have hsettled := hover.inv.settled
  rw [Failover.Group.session?, hover.current] at hsettled
  refine ⟨hover.current, hover.asked, fun k call hk hcall => ?_,
    by simpa [Settled, Ledger.Settles] using hsettled, hover.connectorClosings⟩
  obtain ⟨stage, used⟩ := call
  rcases hover.refused k _ hk hcall with hstage | hstage
  · obtain rfl : stage = .entering := hstage
    refine .inr ⟨rfl, fun act => ⟨.proceed act hcall rfl fun c hc => (by cases hc), ?_⟩⟩
    rw [State.getElem?_proceed hcall, hover.step_refused (.inl rfl)]
    rfl
  · exact .inl hstage

/-- An operation has the lock, and read the flag before it is set; it still opens a session. Once
the call that set the flag has returned, another operation begins. -/
theorem closed_stays_closed_late_session :
    ∃ s s' : State Unit Nat Nat, Reachable willing (fun _ _ _ => True) s ∧
      .completed ∈ s.closings ∧ Later willing (fun _ _ _ => True) s s' ∧ s.calls.length = 1 ∧ s.shared.asked = 1 ∧
      s'.calls[1]? = some ⟨.finished (.error .closed), []⟩ ∧ s'.shared.world.ledger = ⟨1, [0]⟩ ∧
      s'.shared.group.current = none ∧ s'.shared.asked = 1 ∧ s'.shared.connectorClosings = 1 := by
  let act : Nat → Unit → Except ClientFault Nat × Unit := fun _ _ => (.error .closed, ())
  let unused : State Unit Nat Nat := .start ["a"] 0 ()
  have hs : Reachable willing (fun _ _ _ => True) unused := .start ["a"] 0 ()
  have hs := hs.step .ask
  have hs := hs.step (.proceed (k := 0) act rfl rfl fun _ _ => trivial)
  have hs := hs.step (.lock (k := 0) rfl rfl rfl)
  have hs := hs.step .close
  have hs := hs.step (.mark (j := 0) rfl rfl)
  have hs := hs.step (.turn (k := 0) act rfl rfl rfl)
  have hs := hs.step (.clear (j := 0) rfl rfl)
  have hs := hs.step (.finish (j := 0) rfl)
  have hlater := hs.now
  have hlater := hlater.tail .ask
  have hlater := hlater.tail (.proceed (k := 1) act rfl rfl fun _ _ => trivial)
  obtain ⟨-, hover⟩ := closed_stays_closed hs
  obtain ⟨hnone, hasked, -, -, honce⟩ := hover List.mem_cons_self _ hlater
  exact ⟨_, _, hs, List.mem_cons_self, hlater, rfl, rfl, rfl, rfl, hnone, hasked, honce⟩

end NameDirectory.Contention
