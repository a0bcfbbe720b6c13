/-!
# Cutting and joining text

A cut at a separator keeps every character but the separator it is made at, so joining
the pieces with the separator gives the text back.

Blanks are the white space of Unicode.  A trimmed text starts and ends with none; the words of
a text are its longest blank-free pieces.
-/

namespace NameDirectory.Text

/-! ## Blanks -/

/-- Characters with the Unicode property `White_Space`. -/
def isBlank (c : Char) : Bool :=
  let n := c.toNat
  (0x9 ≤ n && n ≤ 0xD) || n == 0x20 || n == 0x85 || n == 0xA0 || n == 0x1680 ||
  (0x2000 ≤ n && n ≤ 0x200A) || n == 0x2028 || n == 0x2029 || n == 0x202F ||
  n == 0x205F || n == 0x3000

theorem isBlank_of_isDigit {c : Char} (h : c.isDigit = true) : isBlank c = false := by
  simp only [Char.isDigit, Bool.and_eq_true, decide_eq_true_eq] at h
  have hrange : 48 ≤ c.toNat ∧ c.toNat ≤ 57 := h
  simp only [isBlank, Bool.or_eq_false_iff, Bool.and_eq_false_iff, decide_eq_false_iff_not,
    beq_eq_false_iff_ne]
  omega

/-- Drop the characters at the end that satisfy `p`. -/
def dropEndWhile (p : Char → Bool) (cs : List Char) : List Char :=
  (cs.reverse.dropWhile p).reverse

def trimChars (cs : List Char) : List Char :=
  dropEndWhile isBlank (cs.dropWhile isBlank)

theorem trimChars_sublist (cs : List Char) : (trimChars cs).Sublist cs := by
  have hback : (trimChars cs).reverse.Sublist (cs.dropWhile isBlank).reverse := by
    rw [trimChars, dropEndWhile, List.reverse_reverse]
    exact List.dropWhile_sublist isBlank
  exact (List.reverse_sublist.mp hback).trans (List.dropWhile_sublist isBlank)

/-- The text without the blanks at its two ends. -/
def trim (s : String) : String := String.ofList (trimChars s.toList)

/-- The longest pieces without a blank, in order. -/
def words (s : String) : List String :=
  ((s.toList.splitOnP isBlank).filter (!·.isEmpty)).map String.ofList

/-! ## Separators -/

/-- All pieces between the occurrences of `c`; a text without `c` is its only piece. -/
def splitOn (c : Char) (s : String) : List String :=
  (s.toList.splitOn c).map String.ofList

def joinWith (c : Char) (pieces : List String) : String :=
  String.ofList ([c].intercalate (pieces.map String.toList))

/-- Cut the characters around the first occurrence of the separator `sep`. -/
def cutFirst (sep : List Char) : List Char → Option (List Char × List Char)
  | [] => if sep.isEmpty then some ([], []) else none
  | c :: cs =>
    if sep.isPrefixOf (c :: cs) then some ([], (c :: cs).drop sep.length)
    else (cutFirst sep cs).map fun (before, after) => (c :: before, after)

/-- Cut the characters around the last occurrence of `c`. -/
def cutLast (c : Char) (cs : List Char) : Option (List Char × List Char) :=
  (cutFirst [c] cs.reverse).map fun (after, before) => (before.reverse, after.reverse)

def splitFirst (sep s : String) : Option (String × String) :=
  (cutFirst sep.toList s.toList).map fun (a, b) => (String.ofList a, String.ofList b)

/-- `s` without `start` at its front, if it begins so. -/
def dropStart (start s : String) : Option String :=
  if start.toList.isPrefixOf s.toList then some (String.ofList (s.toList.drop start.length)) else none

theorem joinWith_splitOn (c : Char) (s : String) : joinWith c (splitOn c s) = s := by
  have h : (String.toList ∘ String.ofList : List Char → List Char) = id := funext fun l => by simp
  simp [joinWith, splitOn, h, List.intercalate_splitOn]

/-- A piece is part of the text, and the separator is not in it. -/
theorem infix_of_mem_splitOn {c : Char} {cs piece : List Char} (h : piece ∈ cs.splitOn c) :
    piece <:+: cs ∧ c ∉ piece := by
  induction hn : cs.length using Nat.strongRecOn generalizing cs with
  | ind n ih =>
    by_cases hc : c ∈ cs
    · obtain ⟨before, after, rfl, hbefore⟩ := List.eq_append_cons_of_mem hc
      rw [List.splitOn_append_cons_self_of_not_mem hbefore] at h
      rcases List.mem_cons.mp h with rfl | h
      · exact ⟨(List.prefix_append _ _).isInfix, hbefore⟩
      · have hlt : after.length < n := by
          simp only [List.length_append, List.length_cons] at hn
          omega
        obtain ⟨hpart, hfree⟩ := ih _ hlt h rfl
        have hafter : after <:+ before ++ c :: after :=
          (List.suffix_cons c after).trans (List.suffix_append _ _)
        exact ⟨hpart.trans hafter.isInfix, hfree⟩
    · rw [List.splitOn_eq_singleton hc, List.mem_singleton] at h
      exact ⟨h ▸ List.infix_rfl, h ▸ hc⟩

theorem eq_append_of_cutFirst {sep cs before after : List Char}
    (h : cutFirst sep cs = some (before, after)) : cs = before ++ sep ++ after := by
  induction cs generalizing before with
  | nil =>
    simp only [cutFirst] at h
    split at h <;> simp_all
  | cons c cs ih =>
    simp only [cutFirst] at h
    split at h
    · next hp =>
      obtain ⟨rest, hrest⟩ := List.isPrefixOf_iff_prefix.mp hp
      simp only [Option.some.injEq, Prod.mk.injEq] at h
      obtain ⟨rfl, rfl⟩ := h
      simp [← hrest]
    · obtain ⟨⟨before', after'⟩, hcut, heq⟩ := Option.map_eq_some_iff.mp h
      simp only [Prod.mk.injEq] at heq
      obtain ⟨rfl, rfl⟩ := heq
      simp [ih hcut]

/-- The first occurrence is the one before which there is none. -/
theorem cutFirst_append_cons {c : Char} {before : List Char} (h : c ∉ before) (after : List Char) :
    cutFirst [c] (before ++ c :: after) = some (before, after) := by
  induction before with
  | nil => simp [cutFirst]
  | cons d before ih =>
    rw [List.mem_cons, not_or] at h
    simp [cutFirst, h.1, ih h.2]

theorem eq_append_of_cutLast {c : Char} {cs before after : List Char}
    (h : cutLast c cs = some (before, after)) : cs = before ++ c :: after := by
  obtain ⟨⟨a, b⟩, hcut, heq⟩ := Option.map_eq_some_iff.mp h
  simp only [Prod.mk.injEq] at heq
  obtain ⟨rfl, rfl⟩ := heq
  have := congrArg List.reverse (eq_append_of_cutFirst hcut)
  simpa using this

section

variable {sep cs before after : List Char} {c : Char}

/-- Whether a text begins with another one is decided by its first characters. -/
theorem isPrefixOf_append_of_length_le (h : sep.length ≤ cs.length) (more : List Char) :
    sep.isPrefixOf (cs ++ more) = sep.isPrefixOf cs := by
  rw [Bool.eq_iff_iff, List.isPrefixOf_iff_prefix, List.isPrefixOf_iff_prefix]
  exact ⟨fun hprefix => List.prefix_of_prefix_length_le hprefix (List.prefix_append cs more) h,
    fun hprefix => hprefix.trans (List.prefix_append cs more)⟩

theorem cutFirst_append_self (sep after : List Char) :
    cutFirst sep (sep ++ after) = some ([], after) := by
  cases hcs : sep ++ after with
  | nil =>
    obtain ⟨rfl, rfl⟩ := List.append_eq_nil_iff.mp hcs
    rfl
  | cons c cs =>
    have hprefix : sep.isPrefixOf (c :: cs) = true :=
      List.isPrefixOf_iff_prefix.mpr (hcs ▸ List.prefix_append sep after)
    rw [cutFirst, if_pos hprefix, ← hcs, List.drop_left]

/-- Where the first cut is made does not depend on what comes after it. -/
theorem cutFirst_append (h : cutFirst sep cs = some (before, after)) (after' : List Char) :
    cutFirst sep (before ++ sep ++ after') = some (before, after') := by
  induction cs generalizing before with
  | nil =>
    simp only [cutFirst] at h
    split at h
    · cases h
      exact cutFirst_append_self sep after'
    · cases h
  | cons c cs ih =>
    simp only [cutFirst] at h
    split at h
    · cases h
      exact cutFirst_append_self sep after'
    · next hlater =>
      obtain ⟨⟨before₁, after₁⟩, hcut, heq⟩ := Option.map_eq_some_iff.mp h
      cases heq
      have hlong : sep.length ≤ (c :: before₁ ++ sep).length := by
        rw [List.length_append]
        omega
      -- the separator does not begin at `c`, and would not with other characters at the end
      have hshown : c :: cs = (c :: before₁ ++ sep) ++ after₁ := by
        rw [eq_append_of_cutFirst hcut]
        simp
      rw [hshown, isPrefixOf_append_of_length_le hlong,
        ← isPrefixOf_append_of_length_le hlong after'] at hlater
      have hrest := ih hcut
      simp only [List.cons_append, List.append_assoc] at hlater hrest ⊢
      rw [cutFirst, if_neg hlater, hrest]
      rfl

/-- The last occurrence is the one after which there is none. -/
theorem cutLast_append_cons (before : List Char) (h : c ∉ after) :
    cutLast c (before ++ c :: after) = some (before, after) := by
  have hback : c ∉ after.reverse := by simpa using h
  have hreverse : (before ++ c :: after).reverse = after.reverse ++ c :: before.reverse := by simp
  rw [cutLast, hreverse, cutFirst_append_cons hback]
  simp

end

end NameDirectory.Text
