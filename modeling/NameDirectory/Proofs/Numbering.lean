import Mathlib.Data.List.Perm.Subperm
import NameDirectory.Proofs.Mailboxes

/-!
# The numbers of requests in flight

A number is looked for from the one to be tried next, upwards and from the largest back
to 1, until one is found that no request waits under.  `Search` is that loop, pass by
pass; `allocate` is it with the passes counted.

* `exists_search`: the loop ends if there is a free number at all, having passed over each
  taken number at most once;
* `Desk.Reachable.accounted`: whatever is done at a table, the numbers that are waited
  under are those of the reservations not yet given up;
* `reserve_accounts`: both together.
-/

namespace NameDirectory

namespace InFlight

/-! ## The search -/

/-- The search from `n` on passes over `passed`, finds `number`, and leaves `next` to be tried
by the search after it. -/
inductive Search (taken : Int32 → Bool) : Int32 → List Int32 → Int32 → Int32 → Prop
  | found {n : Int32} (h : taken (firstFrom n) = false) :
      Search taken n [] (firstFrom n) (firstFrom n + 1)
  | pass {n number next : Int32} {passed : List Int32} (h : taken (firstFrom n) = true)
      (hs : Search taken (firstFrom n + 1) passed number next) :
      Search taken n (firstFrom n :: passed) number next

/-- There is a number that no request waits under. -/
def HasFree (t : InFlight) : Prop := ∃ n : Int32, 1 ≤ n ∧ t.isTaken n = false

variable {taken : Int32 → Bool} {n m number next : Int32} {passed : List Int32}

namespace Search

theorem one_le (h : Search taken n passed number next) : 1 ≤ number := by
  induction h with
  | found => exact one_le_firstFrom _
  | pass _ _ ih => exact ih

theorem free (h : Search taken n passed number next) : taken number = false := by
  induction h with
  | found h => exact h
  | pass _ _ ih => exact ih

theorem taken_of_mem (h : Search taken n passed number next) : ∀ p ∈ passed, taken p = true := by
  induction h with
  | found => simp
  | pass h _ ih =>
    intro p hp
    rcases List.mem_cons.mp hp with rfl | hp
    · exact h
    · exact ih p hp

/-- Counting the passes changes nothing, as long as they are enough. -/
theorem allocate_eq (h : Search taken n passed number next) {passes : Nat}
    (hpasses : passed.length ≤ passes) : allocate taken passes n = (number, next) := by
  induction h generalizing passes with
  | found hfree => cases passes <;> simp [allocate, hfree]
  | pass htaken hs ih =>
    obtain _ | passes := passes
    · simp at hpasses
    · rw [allocate, if_pos htaken]
      exact ih (by simpa using hpasses)

end Search

/-! ## Round the ring -/

theorem firstFrom_of_one_le (h : 1 ≤ n) : firstFrom n = n := if_neg (Int32.not_lt.mpr h)

theorem one_le_toInt (h : 1 ≤ n) : 1 ≤ n.toInt := by
  simpa using Int32.le_iff_toInt_le.mp h

theorem toInt_firstFrom_succ (h : 1 ≤ n) :
    (firstFrom (n + 1)).toInt = if n.toInt = 2147483647 then 1 else n.toInt + 1 := by
  have hn := one_le_toInt h
  have hlt := n.toInt_lt
  have hsucc : (n + 1).toInt = (n.toInt + 1).bmod (2 ^ 32) := Int32.toInt_add n 1
  have hone : (1 : Int32).toInt = 1 := rfl
  rw [Int.bmod_eq_emod] at hsucc
  unfold firstFrom
  split
  · next hless =>
    rw [Int32.lt_iff_toInt_lt, hone] at hless
    rw [hone, if_pos]
    split at hsucc <;> omega
  · next hless =>
    rw [Int32.lt_iff_toInt_lt, hone] at hless
    rw [if_neg] <;> split at hsucc <;> omega

/-- How many numbers there are from the one that stands for `n` up to `m`, round the ring. -/
def gap (n m : Int32) : Nat := ((m.toInt - (firstFrom n).toInt) % 2147483647).toNat

theorem gap_firstFrom (n m : Int32) : gap (firstFrom n) m = gap n m := by
  rw [gap, firstFrom_of_one_le (one_le_firstFrom n), gap]

/-- A number passed over that is not `m` brings the search one nearer to `m`. -/
theorem gap_succ (hm : 1 ≤ m) (hne : firstFrom n ≠ m) :
    gap (firstFrom n + 1) m + 1 = gap n m := by
  have hfirst := one_le_toInt (one_le_firstFrom n)
  have hm' := one_le_toInt hm
  have hlt := (firstFrom n).toInt_lt
  have hmlt := m.toInt_lt
  have hne' : (firstFrom n).toInt ≠ m.toInt := fun h => hne (Int32.toInt_inj.mp h)
  unfold gap
  rw [toInt_firstFrom_succ (one_le_firstFrom n)]
  split <;> omega

/-- If a number is free, the search ends, and passes over no number twice: each one passed over
is farther from the free one than the next. -/
theorem exists_search (hm : 1 ≤ m) (hfree : taken m = false) (n : Int32) :
    ∃ passed number next, Search taken n passed number next ∧ passed.Nodup := by
  suffices ∀ k n, gap n m = k → ∃ passed number next, Search taken n passed number next ∧
      passed.Nodup ∧ ∀ p ∈ passed, gap p m ≤ k by
    obtain ⟨passed, number, next, hs, hnodup, -⟩ := this _ n rfl
    exact ⟨passed, number, next, hs, hnodup⟩
  intro k
  induction k with
  | zero =>
    intro n hgap
    have heq : firstFrom n = m := by
      by_contra hne
      have hsucc := gap_succ hm hne
      omega
    exact ⟨[], _, _, .found (heq ▸ hfree), List.nodup_nil, by simp⟩
  | succ k ih =>
    intro n hgap
    cases htaken : taken (firstFrom n) with
    | false => exact ⟨[], _, _, .found htaken, List.nodup_nil, by simp⟩
    | true =>
      have hne : firstFrom n ≠ m := by
        rintro rfl
        rw [hfree] at htaken
        cases htaken
      have hsucc := gap_succ hm hne
      obtain ⟨passed, number, next, hs, hnodup, hle⟩ := ih (firstFrom n + 1) (by omega)
      refine ⟨firstFrom n :: passed, number, next, .pass htaken hs, ?_, ?_⟩
      · refine List.nodup_cons.mpr ⟨fun hmem => ?_, hnodup⟩
        have hfirst := hle _ hmem
        rw [gap_firstFrom] at hfirst
        omega
      · intro p hp
        rcases List.mem_cons.mp hp with rfl | hp
        · rw [gap_firstFrom]; omega
        · exact Nat.le_succ_of_le (hle p hp)

theorem search_ends_iff (t : InFlight) (n : Int32) :
    (∃ passed number next, Search t.isTaken n passed number next) ↔ t.HasFree := by
  constructor
  · rintro ⟨_, number, _, hs⟩
    exact ⟨number, hs.one_le, hs.free⟩
  · rintro ⟨m, hm, hfree⟩
    obtain ⟨passed, number, next, hs, -⟩ := exists_search hm hfree n
    exact ⟨passed, number, next, hs⟩

/-! ## Taking a number -/

theorem isTaken_iff {t : InFlight} {n : Int32} :
    t.isTaken n = true ↔ n ∈ t.waiting.map (·.number) := by
  simp [isTaken, waiter?]

/-- Taking a number is a search, with as many passes as there are requests at most. -/
theorem HasFree.reserve {t : InFlight} (h : t.HasFree) (captured : Option Name) :
    ∃ passed number next, Search t.isTaken t.next passed number next ∧
      passed.length ≤ t.waiting.length ∧
      t.reserve captured = (⟨number, t.tickets⟩,
        { t with next, tickets := t.tickets + 1,
                 waiting := ⟨number, t.tickets, captured⟩ :: t.waiting }) := by
  obtain ⟨m, hm, hfree⟩ := h
  obtain ⟨passed, number, next, hs, hnodup⟩ := exists_search hm hfree t.next
  have hsubset : passed ⊆ t.waiting.map (·.number) := fun p hp =>
    isTaken_iff.mp (hs.taken_of_mem p hp)
  have hpasses : passed.length ≤ t.waiting.length := by
    simpa using (List.subperm_of_subset hnodup hsubset).length_le
  refine ⟨passed, number, next, hs, hpasses, ?_⟩
  unfold InFlight.reserve
  rw [hs.allocate_eq hpasses]

/-! ## Runs -/

structure Desk where
  table : InFlight
  held : List Reservation

namespace Desk

inductive Step : Desk → Desk → Prop
  | reserve {d : Desk} (captured : Option Name) (h : d.table.HasFree) :
      Step d ⟨(d.table.reserve captured).2, (d.table.reserve captured).1 :: d.held⟩
  | complete {d : Desk} (number : Int32) (outcome : Option Name → Outcome) :
      Step d { d with table := (d.table.complete number outcome).2 }
  | failAll {d : Desk} (fault : ClientFault) : Step d { d with table := d.table.failAll fault }
  | receive {d : Desk} {v : Reservation} (h : v ∈ d.held) :
      Step d { d with table := (d.table.receive v).2 }
  /-- A reservation is given up, whatever came of its request. -/
  | drop {d : Desk} {v : Reservation} (h : v ∈ d.held) : Step d ⟨d.table.drop v, d.held.erase v⟩

/-- What runs from an empty table lead to, whichever number is to be tried first. -/
inductive Reachable : Desk → Prop
  | start {t : InFlight} (h : t.waiting = []) : Reachable ⟨t, []⟩
  | step {d d' : Desk} (h : Reachable d) (hs : Step d d') : Reachable d'

/-- The numbers waited under are those held; they are different, and none is below 1. -/
structure Accounted (d : Desk) : Prop where
  held : (d.held.map (·.number)).Perm (d.table.waiting.map (·.number))
  nodup : (d.held.map (·.number)).Nodup
  one_le : ∀ v ∈ d.held, 1 ≤ v.number

variable {d d' : Desk}

theorem Accounted.sameNumbers {t : InFlight} (h : Accounted d) (hs : SameNumbers d.table t) :
    Accounted { d with table := t } :=
  ⟨by simpa only [hs.waiting] using h.held, h.nodup, h.one_le⟩

theorem Accounted.reserve (h : Accounted d) (hfree : d.table.HasFree) (captured : Option Name) :
    Accounted ⟨(d.table.reserve captured).2, (d.table.reserve captured).1 :: d.held⟩ := by
  obtain ⟨passed, number, next, hs, -, heq⟩ := hfree.reserve captured
  have hnew : number ∉ d.held.map (·.number) := fun hmem => by
    have htaken := isTaken_iff.mpr (h.held.mem_iff.mp hmem)
    rw [hs.free] at htaken
    cases htaken
  rw [heq]
  refine ⟨h.held.cons number, List.nodup_cons.mpr ⟨hnew, h.nodup⟩, fun v hv => ?_⟩
  rcases List.mem_cons.mp hv with rfl | hv
  · exact hs.one_le
  · exact h.one_le v hv

/-- Nobody else waits under the number that is freed, for numbers held are different. -/
theorem Accounted.drop {v : Reservation} (h : Accounted d) (hv : v ∈ d.held) :
    Accounted ⟨d.table.drop v, d.held.erase v⟩ := by
  have hfront : (d.held.map (·.number)).Perm (v.number :: (d.held.erase v).map (·.number)) :=
    (List.perm_cons_erase hv).map _
  have hnodup := List.nodup_cons.mp (hfront.nodup_iff.mp h.nodup)
  refine ⟨?_, hnodup.2, fun u hu => h.one_le u (List.mem_of_mem_erase hu)⟩
  have hwaiting : (d.table.drop v).waiting.map (·.number) =
      (d.table.waiting.map (·.number)).filter (· ≠ v.number) := by
    simp only [InFlight.drop, release, List.filter_map]
    rfl
  have hfiltered := (hfront.symm.trans h.held).filter (· ≠ v.number)
  rw [hwaiting]
  refine .trans (.of_eq ?_) hfiltered
  rw [List.filter_cons_of_neg (by simp), List.filter_eq_self.mpr]
  intro n hn
  have hne : n ≠ v.number := by
    rintro rfl
    exact hnodup.1 hn
  simpa using hne

theorem Step.accounted (hs : Step d d') (h : Accounted d) : Accounted d' := by
  cases hs with
  | reserve captured hfree => exact h.reserve hfree captured
  | complete number outcome => exact h.sameNumbers (sameNumbers_complete _ _ _)
  | failAll fault => exact h.sameNumbers (failAll_spec _ _).1
  | receive hv => exact h.sameNumbers (sameNumbers_receive _ _)
  | drop hv => exact h.drop hv

theorem Reachable.accounted (h : Reachable d) : Accounted d := by
  induction h with
  | start h => exact ⟨by simp [h], List.nodup_nil, by simp⟩
  | step _ hs ih => exact hs.accounted ih

end Desk

/-- While any number is free, taking one ends, with no more passes than requests that wait, and
gives a number from 1 on that no request waits under.  Whatever is done at a table that was
empty, then, the reservations not yet given up have different numbers from 1 on, and these are
the numbers that are waited under. -/
theorem reserve_accounts :
    (∀ (t : InFlight) (captured : Option Name), t.HasFree →
      ∃ passed : List Int32,
        Search t.isTaken t.next passed (t.reserve captured).1.number (t.reserve captured).2.next ∧
        passed.length ≤ t.waiting.length ∧
        1 ≤ (t.reserve captured).1.number ∧
        t.isTaken (t.reserve captured).1.number = false) ∧
    ∀ d : Desk, d.Reachable →
      (∀ v ∈ d.held, 1 ≤ v.number) ∧
      (d.held.map (·.number)).Nodup ∧
      ∀ n : Int32, d.table.isTaken n = true ↔ ∃ v ∈ d.held, v.number = n := by
  refine ⟨fun t captured hfree => ?_, fun d hd => ?_⟩
  · obtain ⟨passed, number, next, hs, hpasses, heq⟩ := hfree.reserve captured
    rw [heq]
    exact ⟨passed, hs, hpasses, hs.one_le, hs.free⟩
  · have h := hd.accounted
    refine ⟨h.one_le, h.nodup, fun n => ?_⟩
    rw [isTaken_iff, ← h.held.mem_iff, List.mem_map]

/-- Past the largest number and 1, which are waited under, comes 2; and of two reservations at a
table where a negative number is to be tried, the one not given up is left. -/
theorem reserve_accounts_at_the_end :
    let t : InFlight := ⟨2147483647, 2, [⟨1, 1, none⟩, ⟨2147483647, 0, none⟩], []⟩
    let first := (⟨-5, 0, [], []⟩ : InFlight).reserve none
    let second := first.2.reserve none
    ((t.reserve none).1.number = 2 ∧
      ∃ passed : List Int32,
        Search t.isTaken t.next passed (t.reserve none).1.number (t.reserve none).2.next ∧
        passed.length ≤ t.waiting.length ∧
        1 ≤ (t.reserve none).1.number ∧
        t.isTaken (t.reserve none).1.number = false) ∧
    first.1.number = 1 ∧ second.1.number = 2 ∧
    ∀ n : Int32, (second.2.drop first.1).isTaken n = true ↔
      ∃ v ∈ [second.1], v.number = n := by
  intro t first second
  have hstart : Desk.Reachable ⟨⟨-5, 0, [], []⟩, []⟩ := .start rfl
  have hfirst : Desk.Reachable ⟨first.2, [first.1]⟩ :=
    hstart.step (.reserve none ⟨1, by decide, by decide⟩)
  have hsecond : Desk.Reachable ⟨second.2, [second.1, first.1]⟩ :=
    hfirst.step (.reserve none ⟨2, by decide, by decide⟩)
  have hdropped : Desk.Reachable ⟨second.2.drop first.1, [second.1]⟩ :=
    hsecond.step (.drop (by simp))
  exact ⟨⟨by decide, reserve_accounts.1 t none ⟨2, by decide, by decide⟩⟩, by decide, by decide,
    (reserve_accounts.2 _ hdropped).2.2⟩

end InFlight

end NameDirectory
