import Mathlib.Data.List.DropRight
import NameDirectory.Name

/-!
# Names written and read back

The text of a name is its components with slashes between them.  Reading trims the whole text, and
drops what is empty between two slashes, so not every name is read back from its text.

* `Text.trim_eq_self_iff`: the texts that trimming leaves alone;
* `Name.of_mem_parse`: the components that reading gives;
* `Name.text_parse_sublist`: no more is read than was written;
* `Name.read_back_iff_legible`: the names that are read back.
-/

namespace NameDirectory

/-! ## Trimmed texts -/

namespace Text

variable {cs : List Char}

theorem dropEndWhile_eq_rdropWhile (p : Char → Bool) (cs : List Char) :
    dropEndWhile p cs = cs.rdropWhile p := rfl

theorem dropWhile_eq_self_iff_head? (p : Char → Bool) :
    cs.dropWhile p = cs ↔ ∀ c ∈ cs.head?, p c = false := by
  rw [List.dropWhile_eq_self_iff]
  cases cs <;> simp

theorem dropEndWhile_eq_self_iff_getLast? (p : Char → Bool) :
    dropEndWhile p cs = cs ↔ ∀ c ∈ cs.getLast?, p c = false := by
  rw [dropEndWhile_eq_rdropWhile, List.rdropWhile_eq_self_iff]
  rcases cs.eq_nil_or_concat with rfl | ⟨l, c, rfl⟩ <;> simp

theorem trimChars_eq_self_iff :
    trimChars cs = cs ↔
      (∀ c ∈ cs.head?, isBlank c = false) ∧ ∀ c ∈ cs.getLast?, isBlank c = false := by
  rw [← dropWhile_eq_self_iff_head?, ← dropEndWhile_eq_self_iff_getLast?]
  constructor
  · intro h
    -- what is dropped at the front is missing in the end
    have hback : (trimChars cs).length ≤ (cs.dropWhile isBlank).length := by
      have hsublist := List.dropWhile_sublist isBlank (l := (cs.dropWhile isBlank).reverse)
      have hlength := hsublist.length_le
      rwa [List.length_reverse, ← List.length_reverse] at hlength
    rw [h] at hback
    have hfront := (List.dropWhile_sublist isBlank).eq_of_length_le hback
    exact ⟨hfront, by rwa [trimChars, hfront] at h⟩
  · rintro ⟨hfront, hback⟩
    rw [trimChars, hfront, hback]

theorem trim_eq_self_iff {s : String} :
    trim s = s ↔
      (∀ c ∈ s.toList.head?, isBlank c = false) ∧ ∀ c ∈ s.toList.getLast?, isBlank c = false := by
  rw [← trimChars_eq_self_iff, trim, ← String.toList_inj, String.toList_ofList]

theorem head?_dropWhile {p : Char → Bool} {c : Char} (h : (cs.dropWhile p).head? = some c) :
    p c = false :=
  (dropWhile_eq_self_iff_head? p).mp (List.dropWhile_idempotent p cs) c h

theorem getLast?_dropEndWhile {p : Char → Bool} {c : Char}
    (h : (dropEndWhile p cs).getLast? = some c) : p c = false :=
  (dropEndWhile_eq_self_iff_getLast? p).mp (List.rdropWhile_idempotent p cs) c h

/-- What is dropped at the end is not at the front of what is left. -/
theorem head?_dropEndWhile_dropWhile {p q : Char → Bool} {c : Char}
    (h : (dropEndWhile p (cs.dropWhile q)).head? = some c) : q c = false := by
  obtain ⟨rest, hrest⟩ := List.rdropWhile_prefix p (cs.dropWhile q)
  have hfirst : (cs.dropWhile q).head? = some c := by
    rw [← hrest, List.head?_append, ← dropEndWhile_eq_rdropWhile, h]
    rfl
  exact head?_dropWhile hfirst

theorem trim_trim (s : String) : trim (trim s) = trim s := by
  rw [trim_eq_self_iff, trim, String.toList_ofList]
  exact ⟨fun _ hc => head?_dropEndWhile_dropWhile hc, fun _ hc => getLast?_dropEndWhile hc⟩

/-! ## Pieces with a separator between them -/

variable {α : Type} {c : α} {l : List α} {pieces pieces' : List (List α)}

theorem intercalate_ne_nil (h : l ≠ []) : [c].intercalate (l :: pieces) ≠ [] := by
  cases pieces with
  | nil => simpa using h
  | cons l' rest => simp

theorem head?_intercalate (h : l ≠ []) : ([c].intercalate (l :: pieces)).head? = l.head? := by
  cases pieces with
  | nil => simp
  | cons l' rest =>
    rw [List.intercalate_cons_cons, List.append_assoc, List.head?_append_of_ne_nil _ h]

theorem getLast?_intercalate (h : ∀ l ∈ pieces, l ≠ []) :
    ([c].intercalate pieces).getLast? = pieces.getLast?.bind List.getLast? := by
  induction pieces with
  | nil => rfl
  | cons l rest ih =>
    cases rest with
    | nil => simp
    | cons l' rest =>
      have hrest := ih fun x hx => h x (List.mem_cons_of_mem l hx)
      have hnonempty : [c].intercalate (l' :: rest) ≠ [] := intercalate_ne_nil (h l' (by simp))
      rw [List.intercalate_cons_cons, List.getLast?_append_of_ne_nil _ hnonempty, hrest,
        List.getLast?_cons_cons]

/-- Where there are fewer pieces, nothing is added. -/
theorem intercalate_sublist (h : pieces.Sublist pieces') :
    ([c].intercalate pieces).Sublist ([c].intercalate pieces') := by
  induction h with
  | slnil => exact List.Sublist.refl _
  | @cons ls ls' l hsub ih =>
    cases ls' with
    | nil =>
      rw [List.eq_nil_of_sublist_nil hsub]
      exact List.nil_sublist _
    | cons l' rest =>
      rw [List.intercalate_cons_cons]
      exact ih.trans (List.sublist_append_right _ _)
  | @cons_cons ls ls' l hsub ih =>
    cases ls with
    | nil =>
      rw [List.intercalate_singleton]
      cases ls' with
      | nil => rw [List.intercalate_singleton]
      | cons l' rest =>
        rw [List.intercalate_cons_cons, List.append_assoc]
        exact List.sublist_append_left _ _
    | cons l₁ rest₁ =>
      cases ls' with
      | nil => cases hsub
      | cons l₂ rest₂ =>
        rw [List.intercalate_cons_cons, List.intercalate_cons_cons]
        exact ih.append_left _

end Text

namespace Name

variable {n : Name}

/-! ## What is read -/

/-- What is read as a component can be written between two slashes. -/
theorem of_mem_parse {s k : String} (h : k ∈ (parse s).components) :
    k ≠ "" ∧ '/' ∉ k.toList := by
  simp only [parse, ofComponents, Text.splitOn, List.mem_filter, List.mem_map] at h
  obtain ⟨⟨cs, hcs, rfl⟩, hnonempty⟩ := h
  obtain ⟨-, hslash⟩ := Text.infix_of_mem_splitOn hcs
  exact ⟨by simpa using hnonempty, by simpa using hslash⟩

theorem ofComponents_of_not_mem {components : List String} (h : "" ∉ components) :
    ofComponents components = ⟨components⟩ := by
  unfold ofComponents
  rw [List.filter_eq_self.mpr]
  intro k hk
  have hne : k ≠ "" := fun heq => h (heq ▸ hk)
  simpa using hne

theorem toList_text (n : Name) : n.text.toList = ['/'].intercalate (n.components.map String.toList) := by
  rw [text, Text.joinWith, String.toList_ofList]

/-- The name that is read is written with no more than was read. -/
theorem text_parse_sublist (s : String) : (parse s).text.toList.Sublist (Text.trim s).toList := by
  have hjoin := congrArg String.toList (Text.joinWith_splitOn '/' (Text.trim s))
  rw [toList_text, ← hjoin, Text.joinWith, String.toList_ofList, parse]
  generalize Text.splitOn '/' (Text.trim s) = pieces
  exact Text.intercalate_sublist (List.filter_sublist.map _)

/-! ## What is read back -/

/-- The text of the name shows its components: none is empty or has a slash in it, and no blank is
at either end of the text. -/
structure Legible (n : Name) : Prop where
  plain : ∀ k ∈ n.components, k ≠ "" ∧ '/' ∉ k.toList
  front : ∀ k ∈ n.components.head?, ∀ c ∈ k.toList.head?, Text.isBlank c = false
  back : ∀ k ∈ n.components.getLast?, ∀ c ∈ k.toList.getLast?, Text.isBlank c = false

/-- Where no component is empty, the ends of the text are those of the first and the last one. -/
theorem trim_text_iff (h : ∀ k ∈ n.components, k ≠ "") :
    Text.trim n.text = n.text ↔
      (∀ k ∈ n.components.head?, ∀ c ∈ k.toList.head?, Text.isBlank c = false) ∧
      ∀ k ∈ n.components.getLast?, ∀ c ∈ k.toList.getLast?, Text.isBlank c = false := by
  have hpieces : ∀ l ∈ n.components.map String.toList, l ≠ [] := by
    intro l hl
    obtain ⟨k, hk, rfl⟩ := List.mem_map.mp hl
    simpa using h k hk
  rw [Text.trim_eq_self_iff, toList_text, Text.getLast?_intercalate hpieces]
  obtain ⟨components⟩ := n
  cases components with
  | nil => simp
  | cons k rest =>
    rw [List.map_cons, Text.head?_intercalate (hpieces _ (by simp)), ← List.map_cons, List.getLast?_map]
    generalize (k :: rest).getLast? = last
    cases last <;> simp

theorem parse_text (h : n.Legible) : parse n.text = n := by
  have htrim := (trim_text_iff fun k hk => (h.plain k hk).1).mpr ⟨h.front, h.back⟩
  rw [parse, htrim, Text.splitOn, toList_text]
  obtain ⟨components⟩ := n
  cases components with
  | nil => rfl
  | cons k rest =>
    have hslash : ∀ l ∈ (k :: rest).map String.toList, '/' ∉ l := by
      intro l hl
      obtain ⟨j, hj, rfl⟩ := List.mem_map.mp hl
      exact (h.plain j hj).2
    rw [List.splitOn_intercalate '/' hslash (by simp)]
    have hback : (String.ofList ∘ String.toList : String → String) = id := funext fun s => by simp
    rw [List.map_map, hback, List.map_id]
    exact ofComponents_of_not_mem fun hmem => (h.plain "" hmem).1 rfl

theorem legible_of_parse_text (h : parse n.text = n) : n.Legible := by
  have hplain : ∀ k ∈ n.components, k ≠ "" ∧ '/' ∉ k.toList := fun k hk => of_mem_parse (h ▸ hk)
  -- the text is no longer than the trimmed text
  have hwritten := (text_parse_sublist n.text).length_le
  rw [h] at hwritten
  have htrim : Text.trim n.text = n.text := by
    have hpart := Text.trimChars_sublist n.text.toList
    rw [Text.trim, String.toList_ofList] at hwritten
    rw [Text.trim, hpart.eq_of_length_le hwritten, String.ofList_toList]
  obtain ⟨hfront, hback⟩ := (trim_text_iff fun k hk => (hplain k hk).1).mp htrim
  exact ⟨hplain, hfront, hback⟩

/-- A name is read back from its text exactly if it is legible; and what is read from any text has
components that are not empty and have no slash in them. -/
theorem read_back_iff_legible :
    (∀ n : Name, parse n.text = n ↔ n.Legible) ∧
      ∀ s, ∀ k ∈ (parse s).components, k ≠ "" ∧ '/' ∉ k.toList :=
  ⟨fun _ => ⟨legible_of_parse_text, parse_text⟩, fun _ _ => of_mem_parse⟩

/-- A blank is kept where a component begins, but not where the text does. -/
example : parse (Name.mk ["a", " b"]).text = ⟨["a", " b"]⟩ ∧ parse (Name.mk [" b"]).text = ⟨["b"]⟩ := by
  decide +kernel

end Name

end NameDirectory
