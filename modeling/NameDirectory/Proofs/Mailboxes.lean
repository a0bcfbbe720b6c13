import NameDirectory.InFlight

/-!
# Mailboxes

What the steps at a table of requests in flight do to its mailboxes: an outcome is put
only where somebody waits, a mailbox holds one at most, and the numbers and who waits
under them stay as they are (`SameNumbers`).
-/

namespace NameDirectory

namespace InFlight

/-- Two tables that differ in mailboxes only. -/
structure SameNumbers (t t' : InFlight) : Prop where
  waiting : t'.waiting = t.waiting
  next : t'.next = t.next
  tickets : t'.tickets = t.tickets

theorem SameNumbers.trans {t t' t'' : InFlight} (h : SameNumbers t t') (h' : SameNumbers t' t'') :
    SameNumbers t t'' :=
  ⟨h'.waiting.trans h.waiting, h'.next.trans h.next, h'.tickets.trans h.tickets⟩

theorem sameNumbers_post (t : InFlight) (k : Nat) (o : Outcome) :
    SameNumbers t (t.post k o).2 := by
  unfold post
  split <;> exact ⟨rfl, rfl, rfl⟩

theorem mem_mail_of_post {t : InFlight} {k : Nat} {o : Outcome} {a : Nat × Outcome}
    (h : a ∈ (t.post k o).2.mail) : a = (k, o) ∨ a ∈ t.mail := by
  unfold post at h
  split at h
  · exact .inr h
  · exact List.mem_cons.mp h

/-- No mailbox holds two outcomes. -/
def OneEach (t : InFlight) : Prop := (t.mail.map (·.1)).Nodup

theorem OneEach.post {t : InFlight} (h : OneEach t) (k : Nat) (o : Outcome) :
    OneEach (t.post k o).2 := by
  unfold InFlight.post
  split
  · exact h
  · next hempty =>
    refine List.nodup_cons.mpr ⟨fun hmem => ?_, h⟩
    obtain ⟨a, ha, hticket⟩ := List.mem_map.mp hmem
    refine hempty ?_
    simp only [mail?, Option.isSome_map, List.find?_isSome, decide_eq_true_eq]
    exact ⟨a, ha, hticket⟩

theorem OneEach.filter {t : InFlight} (h : OneEach t) (p : Nat × Outcome → Bool) :
    OneEach { t with mail := t.mail.filter p } :=
  h.sublist (List.filter_sublist.map _)

theorem sameNumbers_complete (t : InFlight) (n : Int32) (f : Option Name → Outcome) :
    SameNumbers t (t.complete n f).2 := by
  unfold complete
  split
  · exact ⟨rfl, rfl, rfl⟩
  · exact sameNumbers_post _ _ _

theorem mem_mail_of_complete {t : InFlight} {n : Int32} {f : Option Name → Outcome}
    {a : Nat × Outcome} (h : a ∈ (t.complete n f).2.mail) :
    a ∈ t.mail ∨ ∃ w ∈ t.waiting, w.number = n ∧ a = (w.ticket, f w.captured) := by
  unfold complete at h
  split at h
  · exact .inl h
  · next w hw =>
    have hn : w.number = n := by simpa using List.find?_some hw
    rcases mem_mail_of_post h with ha | ha
    · exact .inr ⟨w, List.mem_of_find?_eq_some hw, hn, ha⟩
    · exact .inl ha

theorem OneEach.complete {t : InFlight} (h : OneEach t) (n : Int32) (f : Option Name → Outcome) :
    OneEach (t.complete n f).2 := by
  unfold InFlight.complete
  split
  · exact h
  · exact h.post _ _

theorem complete_of_free {t : InFlight} {n : Int32} (h : ∀ w ∈ t.waiting, w.number ≠ n)
    (f : Option Name → Outcome) : t.complete n f = (false, t) := by
  have hnone : t.waiter? n = none := by simpa [waiter?] using h
  rw [complete, hnone]

theorem failAll_spec (t : InFlight) (fault : ClientFault) :
    SameNumbers t (t.failAll fault) ∧
      ∀ a ∈ (t.failAll fault).mail,
        a ∈ t.mail ∨ a.2 = .error fault ∧ ∃ w ∈ t.waiting, w.ticket = a.1 := by
  suffices ∀ (ws : List Waiter) (u : InFlight),
      let u' := ws.foldl (fun u w => (u.post w.ticket (.error fault)).2) u
      SameNumbers u u' ∧ ∀ a ∈ u'.mail,
        a ∈ u.mail ∨ a.2 = .error fault ∧ ∃ w ∈ ws, w.ticket = a.1 from
    this t.waiting t
  intro ws
  induction ws with
  | nil => exact fun u => ⟨⟨rfl, rfl, rfl⟩, fun a ha => .inl ha⟩
  | cons w ws ih =>
    intro u
    obtain ⟨hsame, hmail⟩ := ih (u.post w.ticket (.error fault)).2
    refine ⟨(sameNumbers_post u _ _).trans hsame, fun a ha => ?_⟩
    rcases hmail a ha with ha | ⟨hfault, x, hx, hticket⟩
    · rcases mem_mail_of_post ha with rfl | ha
      · exact .inr ⟨rfl, w, List.mem_cons_self, rfl⟩
      · exact .inl ha
    · exact .inr ⟨hfault, x, List.mem_cons_of_mem _ hx, hticket⟩

theorem OneEach.failAll {t : InFlight} (h : OneEach t) (fault : ClientFault) :
    OneEach (t.failAll fault) := by
  unfold InFlight.failAll
  generalize t.waiting = ws
  induction ws generalizing t with
  | nil => exact h
  | cons w ws ih => exact ih (h.post _ _)

theorem OneEach.receive {t : InFlight} (h : OneEach t) (v : Reservation) :
    OneEach (t.receive v).2 := by
  unfold InFlight.receive
  split
  · exact h.filter _
  · exact h

theorem sameNumbers_receive (t : InFlight) (v : Reservation) : SameNumbers t (t.receive v).2 := by
  unfold receive
  split <;> exact ⟨rfl, rfl, rfl⟩

theorem mail_of_receive (t : InFlight) (v : Reservation) :
    (∀ a ∈ (t.receive v).2.mail, a ∈ t.mail) ∧
      ∀ o, (t.receive v).1 = .outcome o → (v.ticket, o) ∈ t.mail := by
  unfold receive
  split
  · next o ho =>
    obtain ⟨a, ha, rfl⟩ := Option.map_eq_some_iff.mp ho
    have hticket : a.1 = v.ticket := by simpa using List.find?_some ha
    refine ⟨fun a ha => (List.mem_filter.mp ha).1, fun o h => ?_⟩
    cases h
    exact hticket ▸ List.mem_of_find?_eq_some ha
  · refine ⟨fun a ha => ha, fun o h => ?_⟩
    dsimp only at h
    split at h <;> cases h

/-- The number to be tried next is given if it is a number and free. -/
theorem reserve_of_free {t : InFlight} {captured : Option Name} (hnext : 1 ≤ t.next)
    (hfree : ∀ w ∈ t.waiting, w.number ≠ t.next) :
    t.reserve captured = (⟨t.next, t.tickets⟩,
      { t with next := t.next + 1, tickets := t.tickets + 1,
               waiting := ⟨t.next, t.tickets, captured⟩ :: t.waiting }) := by
  have hfirst : firstFrom t.next = t.next := if_neg (Int32.not_lt.mpr hnext)
  have htaken : t.isTaken t.next = false := by simpa [isTaken, waiter?] using hfree
  have hallocate : ∀ passes, allocate t.isTaken passes t.next = (t.next, t.next + 1) := by
    intro passes
    cases passes <;> simp [allocate, hfirst, htaken]
  unfold reserve
  rw [hallocate]

end InFlight

end NameDirectory
