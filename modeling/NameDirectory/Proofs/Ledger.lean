import Mathlib.Data.List.Range

/-!
# Things that are opened and closed

What a part of the program opens is known by its place in the order of opening: in a list, to
which one is added or in which one is replaced (`getElem?_snoc`, `getElem?_set_cases`), or by a
number.  In a ledger the numbers of what is closed are written down.  A `Ledger` is settled
(`Ledger.Settles`) for a list of numbers when these are open and everything else that was
opened has been closed exactly once.
-/

namespace NameDirectory

/-! ## Lists -/

section

universe u

variable {α : Type u} {l : List α} {a x : α} {j k : Nat}

/-- What stands in a list with one more entry stood there before, or is that entry. -/
theorem getElem?_snoc (h : (l ++ [a])[k]? = some x) :
    l[k]? = some x ∨ k = l.length ∧ x = a := by
  rw [List.getElem?_append] at h
  split at h
  · exact .inl h
  · next hk =>
    obtain ⟨hzero, rfl⟩ := List.getElem?_eq_some_iff.mp h
    simp only [List.length_singleton] at hzero
    exact .inr ⟨by omega, by simp⟩

/-- What stands in a list with one entry replaced is the new one, or stood elsewhere before. -/
theorem getElem?_set_cases (h : (l.set k a)[j]? = some x) :
    j = k ∧ x = a ∨ j ≠ k ∧ l[j]? = some x := by
  by_cases hjk : j = k
  · subst hjk
    have hlt : j < l.length := by
      have hlt := (List.getElem?_eq_some_iff.mp h).1
      rwa [List.length_set] at hlt
    rw [List.getElem?_set_self hlt] at h
    exact .inl ⟨rfl, (Option.some.inj h).symm⟩
  · rw [List.getElem?_set_ne (Ne.symm hjk)] at h
    exact .inr ⟨hjk, h⟩

end

/-! ## Ledgers -/

/-- Something opened, with its number. -/
structure Numbered (α : Type) where
  number : Nat
  value : α
  deriving DecidableEq, Repr

structure Ledger where
  /-- How much was opened; this is the next number. -/
  opened : Nat := 0
  /-- The numbers of what was closed, the last first. -/
  closings : List Nat := []
  deriving DecidableEq, Repr

namespace Ledger

def add (l : Ledger) : Ledger := { l with opened := l.opened + 1 }

/-- Note what came of opening something. -/
def opening {ε α : Type} (l : Ledger) : Except ε α → Except ε (Numbered α) × Ledger
  | .ok a => (.ok ⟨l.opened, a⟩, l.add)
  | .error fault => (.error fault, l)

def close (l : Ledger) (ns : List Nat) : Ledger := { l with closings := ns ++ l.closings }

/-- Everything that was opened, and nothing else, is either among `live` or closed, and that
once. -/
def Settles (l : Ledger) (live : List Nat) : Prop :=
  (l.closings ++ live).Perm (List.range l.opened)

variable {l : Ledger} {live ns : List Nat} {n : Nat}

theorem settles_empty : Settles {} [] := List.Perm.refl _

namespace Settles

theorem add (h : l.Settles live) : l.add.Settles (l.opened :: live) := by
  unfold Settles Ledger.add
  rw [List.range_succ]
  exact List.perm_middle.trans ((h.cons _).trans (List.perm_append_singleton _ _).symm)

theorem close (h : l.Settles (ns ++ live)) : (l.close ns).Settles live := by
  unfold Settles Ledger.close
  rw [List.append_assoc]
  exact (List.perm_append_comm_assoc _ _ _).trans h

theorem perm {live' : List Nat} (h : l.Settles live) (hp : live'.Perm live) : l.Settles live' :=
  (hp.append_left _).trans h

theorem nodup (h : l.Settles live) : (l.closings ++ live).Nodup :=
  h.nodup_iff.mpr List.nodup_range

theorem nodup_closings (h : l.Settles live) : l.closings.Nodup :=
  (List.nodup_append.mp h.nodup).1

theorem lt_of_mem (h : l.Settles live) (hn : n ∈ live) : n < l.opened :=
  List.mem_range.mp (h.mem_iff.mp (List.mem_append_right _ hn))

/-- What is not live any more was closed, and nothing else was. -/
theorem mem_closings_iff (h : l.Settles live) : n ∈ l.closings ↔ n < l.opened ∧ n ∉ live := by
  constructor
  · intro hn
    refine ⟨List.mem_range.mp (h.mem_iff.mp (List.mem_append_left _ hn)), fun hlive => ?_⟩
    exact (List.nodup_append.mp h.nodup).2.2 n hn n hlive rfl
  · rintro ⟨hlt, hlive⟩
    have hmem := h.mem_iff.mpr (List.mem_range.mpr hlt)
    exact (List.mem_append.mp hmem).resolve_right hlive

end Settles

end Ledger

end NameDirectory
