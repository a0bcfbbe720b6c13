/-!
# Ordered association lists

Values under text keys, each key once, in the order of the keys' UTF-8 forms,
which for texts is the order of their code points.  Putting and erasing keep that
order, and change what is found under no other key.
-/

namespace NameDirectory

abbrev Keyed (α : Type) := List (String × α)

namespace Keyed

variable {α : Type}

def find? (k : String) : Keyed α → Option α
  | [] => none
  | (k', v) :: rest => if k' = k then some v else find? k rest

/-- Put `v` under `k`, over what was there. -/
def insert (k : String) (v : α) : Keyed α → Keyed α
  | [] => [(k, v)]
  | (k', v') :: rest =>
    if k < k' then (k, v) :: (k', v') :: rest
    else if k' = k then (k, v) :: rest
    else (k', v') :: insert k v rest

def erase (k : String) : Keyed α → Keyed α
  | [] => []
  | (k', v) :: rest => if k' = k then rest else (k', v) :: erase k rest

def ofPairs (pairs : List (String × α)) : Keyed α :=
  pairs.foldl (fun m (k, v) => insert k v m) []

/-- `m` with the values of `more` put on top. -/
def overlay (m more : Keyed α) : Keyed α :=
  more.foldl (fun m (k, v) => insert k v m) m

/-- The keys are strictly increasing. -/
def Sorted (m : Keyed α) : Prop := m.Pairwise fun a b => a.1 < b.1

theorem find?_insert_self (k : String) (v : α) (m : Keyed α) : find? k (insert k v m) = some v := by
  induction m with
  | nil => simp [insert, find?]
  | cons a rest ih =>
    obtain ⟨k', v'⟩ := a
    simp only [insert]
    split
    · simp [find?]
    · split
      · simp [find?]
      · simp_all [find?]

theorem find?_insert_of_ne {j k : String} (h : j ≠ k) (v : α) (m : Keyed α) :
    find? j (insert k v m) = find? j m := by
  induction m with
  | nil => simp [insert, find?, Ne.symm h]
  | cons a rest ih =>
    obtain ⟨k', v'⟩ := a
    simp only [insert]
    split
    · simp [find?, Ne.symm h]
    · split
      · simp_all [find?, Ne.symm h]
      · simp_all [find?]

theorem find?_insert (j k : String) (v : α) (m : Keyed α) :
    find? j (insert k v m) = if j = k then some v else find? j m := by
  split
  · next h => rw [h, find?_insert_self]
  · next h => exact find?_insert_of_ne h v m

/-- What was put last is found first. -/
theorem find?_overlay (k : String) (m more : Keyed α) :
    find? k (overlay m more) = ((more.reverse.find? (·.1 = k)).map (·.2)).or (find? k m) := by
  induction more generalizing m with
  | nil => rfl
  | cons a more ih =>
    change find? k (overlay (insert a.1 a.2 m) more) = _
    rw [ih, find?_insert, List.reverse_cons, List.find?_append]
    cases more.reverse.find? (·.1 = k) with
    | some b => rfl
    | none =>
      by_cases hk : k = a.1
      · simp [hk]
      · simp [hk, Ne.symm hk]

theorem find?_ofPairs (k : String) (pairs : List (String × α)) :
    find? k (ofPairs pairs) = (pairs.reverse.find? (·.1 = k)).map (·.2) := by
  change find? k (overlay [] pairs) = _
  rw [find?_overlay]
  exact Option.or_none

theorem find?_erase_of_ne {j k : String} (h : j ≠ k) (m : Keyed α) :
    find? j (erase k m) = find? j m := by
  induction m with
  | nil => rfl
  | cons a rest ih =>
    obtain ⟨k', v'⟩ := a
    simp only [erase]
    split
    · simp_all [find?, Ne.symm h]
    · simp_all [find?]

/-! ## The order of the keys -/

private theorem lt_of_not_lt {a b : String} (h : ¬ a < b) (h' : b ≠ a) : b < a := by
  rcases String.le_total a b with hab | hab
  · exact absurd (String.le_antisymm hab (String.not_lt.mp h)).symm h'
  · exact String.not_le.mp fun hle => h' (String.le_antisymm hab hle)

theorem mem_of_mem_insert {a : String × α} {k : String} {v : α} {m : Keyed α}
    (h : a ∈ insert k v m) : a = (k, v) ∨ a ∈ m := by
  induction m with
  | nil => simpa [insert] using h
  | cons b rest ih =>
    obtain ⟨k', v'⟩ := b
    simp only [insert] at h
    split at h
    · simpa using h
    · split at h
      · rcases List.mem_cons.mp h with h | h
        · exact .inl h
        · exact .inr (List.mem_cons_of_mem _ h)
      · rcases List.mem_cons.mp h with h | h
        · exact .inr (h ▸ List.mem_cons_self)
        · exact (ih h).imp_right (List.mem_cons_of_mem _)

theorem mem_of_mem_erase {a : String × α} {k : String} {m : Keyed α} (h : a ∈ erase k m) : a ∈ m := by
  induction m with
  | nil => exact h
  | cons b rest ih =>
    simp only [erase] at h
    split at h
    · exact List.mem_cons_of_mem _ h
    · rcases List.mem_cons.mp h with h | h
      · exact h ▸ List.mem_cons_self
      · exact List.mem_cons_of_mem _ (ih h)

theorem Sorted.insert {m : Keyed α} (h : Sorted m) (k : String) (v : α) : Sorted (insert k v m) := by
  induction m with
  | nil => simp [Sorted, Keyed.insert]
  | cons a rest ih =>
    obtain ⟨k', v'⟩ := a
    obtain ⟨hhead, hrest⟩ := List.pairwise_cons.mp h
    simp only [Keyed.insert]
    split
    · next hlt =>
      refine List.pairwise_cons.mpr ⟨fun b hb => ?_, h⟩
      rcases List.mem_cons.mp hb with rfl | hb
      · exact hlt
      · exact String.lt_trans hlt (hhead b hb)
    · next hlt =>
      split
      · next heq => exact List.pairwise_cons.mpr ⟨fun b hb => heq ▸ hhead b hb, hrest⟩
      · next hne =>
        refine List.pairwise_cons.mpr ⟨fun b hb => ?_, ih hrest⟩
        rcases mem_of_mem_insert hb with rfl | hb
        · exact lt_of_not_lt hlt hne
        · exact hhead b hb

theorem Sorted.erase {m : Keyed α} (h : Sorted m) (k : String) : Sorted (erase k m) := by
  induction m with
  | nil => exact h
  | cons a rest ih =>
    obtain ⟨hhead, hrest⟩ := List.pairwise_cons.mp h
    simp only [Keyed.erase]
    split
    · exact hrest
    · exact List.pairwise_cons.mpr ⟨fun b hb => hhead b (mem_of_mem_erase hb), ih hrest⟩

theorem find?_eq_none_of_lt {k : String} {m : Keyed α} (h : ∀ b ∈ m, k < b.1) : find? k m = none := by
  induction m with
  | nil => rfl
  | cons a rest ih =>
    have hne : a.1 ≠ k := fun e => String.lt_irrefl k (e ▸ h a List.mem_cons_self)
    simp [find?, hne, ih fun b hb => h b (List.mem_cons_of_mem _ hb)]

theorem Sorted.find?_erase_self {m : Keyed α} (h : Sorted m) (k : String) :
    find? k (Keyed.erase k m) = none := by
  induction m with
  | nil => rfl
  | cons a rest ih =>
    obtain ⟨hhead, hrest⟩ := List.pairwise_cons.mp h
    simp only [Keyed.erase]
    split
    · next heq => exact find?_eq_none_of_lt fun b hb => heq ▸ hhead b hb
    · next hne => simp [find?, hne, ih hrest]

section

variable {m m' : Keyed α} {k : String} {v : α}

theorem mem_of_find? (h : m.find? k = some v) : (k, v) ∈ m := by
  induction m with
  | nil => cases h
  | cons b rest ih =>
    obtain ⟨k', v'⟩ := b
    simp only [find?] at h
    split at h
    · next heq =>
      cases h
      exact heq ▸ List.mem_cons_self
    · exact List.mem_cons_of_mem _ (ih h)

theorem find?_head (b : String × α) (rest : Keyed α) : find? b.1 (b :: rest) = some b.2 := by
  simp [find?]

/-- In order, a key has no other entry. -/
theorem Sorted.find?_of_mem (h : Sorted m) (hmem : (k, v) ∈ m) : m.find? k = some v := by
  induction m with
  | nil => cases hmem
  | cons b rest ih =>
    obtain ⟨hhead, hrest⟩ := List.pairwise_cons.mp h
    rcases List.mem_cons.mp hmem with rfl | hmem
    · exact find?_head (k, v) rest
    · have hlt : b.1 < k := hhead (k, v) hmem
      have hne : b.1 ≠ k := fun heq => String.lt_irrefl k (heq ▸ hlt)
      rw [find?, if_neg hne]
      exact ih hrest hmem

/-- In order, the keys after the first are not found before it. -/
theorem Sorted.find?_tail {b : String × α} (h : Sorted (b :: m)) (j : String) :
    m.find? j = if j = b.1 then none else find? j (b :: m) := by
  obtain ⟨hhead, -⟩ := List.pairwise_cons.mp h
  split
  · next heq => exact heq ▸ find?_eq_none_of_lt hhead
  · next hne => simp [find?, Ne.symm hne]

/-- The first key of a list in order is the least that is found in it. -/
theorem Sorted.le_of_find? {b : String × α} (h : Sorted (b :: m)) (hk : find? k (b :: m) = some v) :
    b.1 = k ∨ b.1 < k := by
  obtain ⟨hhead, -⟩ := List.pairwise_cons.mp h
  rcases List.mem_cons.mp (mem_of_find? hk) with rfl | hmem
  · exact .inl rfl
  · exact .inr (hhead _ hmem)

/-- Lists in order are told apart by what is found in them. -/
theorem Sorted.ext (h : Sorted m) (h' : Sorted m') (hfind : ∀ k, m.find? k = m'.find? k) : m = m' := by
  induction m generalizing m' with
  | nil =>
    cases m' with
    | nil => rfl
    | cons b rest =>
      have hb := hfind b.1
      rw [find?_head] at hb
      cases hb
  | cons a rest ih =>
    cases m' with
    | nil =>
      have ha := hfind a.1
      rw [find?_head] at ha
      cases ha
    | cons b rest' =>
      have ha := (hfind a.1).symm.trans (find?_head a rest)
      have hb := (hfind b.1).trans (find?_head b rest')
      have hkey : a.1 = b.1 := by
        rcases h.le_of_find? hb with heq | hlt
        · exact heq
        · rcases h'.le_of_find? ha with heq | hgt
          · exact heq.symm
          · exact absurd (String.lt_trans hlt hgt) (String.lt_irrefl _)
      have hab : a = b := by
        rw [hkey, find?_head] at ha
        exact Prod.ext hkey (Option.some.inj ha).symm
      subst hab
      have htail : rest = rest' := ih (List.Pairwise.of_cons h) (List.Pairwise.of_cons h') fun j => by
        rw [h.find?_tail, h'.find?_tail, hfind]
      rw [htail]

end

end Keyed

end NameDirectory
