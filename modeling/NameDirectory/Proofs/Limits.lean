import Mathlib.Algebra.BigOperators.Group.List.Basic
import NameDirectory.Proofs.Counter

/-!
# The limits of reading

Lists are read to a fixed depth only, and only while the count of claimed bytes stays
within the budget.  What is beyond either limit is refused, wherever in a value it is.

* `Refuses` says where a decoder fails on the bytes of one value; sequences of readings
  are put together by `Refuses.bind`, elements of a container by `Refuses.elements`;
* `Value.refuses`: a value beyond a limit is not read;
* `Value.readCounted_encode`: any other value is read back as it was written.
-/

namespace NameDirectory.Wire

variable {α β : Type}

/-! ## Refusing -/

/-- `d` fails on anything that starts with `bytes`, where the count is within the budget and
`unfit`. -/
def Refuses (d : Decoder α) (bytes : Bytes) (unfit : Nat → Prop) : Prop :=
  ∀ rest claimed, claimed ≤ budget → unfit claimed →
    ∃ fault, d ⟨bytes ++ rest, claimed⟩ = .error fault

/-- There is no room for `need` more. -/
def Lacks (need claimed : Nat) : Prop := budget < claimed + need

namespace Refuses

theorem pure (a : α) : Refuses (Pure.pure a) [] (Lacks 0) := by
  intro rest claimed hle hlack
  unfold Lacks at hlack
  omega

theorem append {d : Decoder α} {b : Bytes} {unfit : Nat → Prop} (h : Refuses d b unfit)
    (b' : Bytes) : Refuses d (b ++ b') unfit := by
  intro rest claimed hle hunfit
  rw [List.append_assoc]
  exact h (b' ++ rest) claimed hle hunfit

/-- What would follow is not reached. -/
theorem first {d : Decoder α} {f : α → Decoder β} {b : Bytes} {unfit : Nat → Prop}
    (h : Refuses d b unfit) : Refuses (d >>= f) b unfit := by
  intro rest claimed hle hunfit
  obtain ⟨fault, hd⟩ := h rest claimed hle hunfit
  exact ⟨fault, Decoder.bind_of_error hd⟩

theorem map {d : Decoder α} {b : Bytes} {unfit : Nat → Prop} (h : Refuses d b unfit) (f : α → β) :
    Refuses (do return f (← d)) b unfit := h.first

/-- The first part cannot be read, or what follows it cannot. -/
theorem bind {d : Decoder α} {f : α → Decoder β} {b b' : Bytes} {n : Nat} {a : α}
    {unfit : Nat → Prop} (hreads : Reads d b n a) (hlength : b.length ≤ n)
    (h : Refuses d b (Lacks n)) (h' : Refuses (f a) b' unfit) :
    Refuses (d >>= f) (b ++ b') fun c => Lacks n c ∨ unfit (c + b.length) := by
  intro rest claimed hle hunfit
  by_cases hroom : claimed + n ≤ budget
  · have hrest : unfit (claimed + b.length) := by
      rcases hunfit with hlack | hrest
      · exact absurd hroom (Nat.not_le.mpr hlack)
      · exact hrest
    obtain ⟨fault, hf⟩ := h' rest (claimed + b.length) (by omega) hrest
    refine ⟨fault, ?_⟩
    rw [List.append_assoc, Decoder.bind_of_ok (hreads (b' ++ rest) claimed hroom)]
    exact hf
  · exact (h.append b').first rest claimed hle (Nat.not_le.mp hroom)

theorem mono {d : Decoder α} {b : Bytes} {unfit unfit' : Nat → Prop} (h : Refuses d b unfit')
    (himp : ∀ c, unfit c → unfit' c) : Refuses d b unfit := by
  intro rest claimed hle hunfit
  exact h rest claimed hle (himp claimed hunfit)

/-- Two parts that need room. -/
theorem bind_lacks {d : Decoder α} {f : α → Decoder β} {b b' : Bytes} {n n' : Nat} {a : α}
    (hreads : Reads d b n a) (hlength : b.length ≤ n) (h : Refuses d b (Lacks n))
    (h' : Refuses (f a) b' (Lacks n')) :
    Refuses (d >>= f) (b ++ b') (Lacks (max n (b.length + n'))) := by
  refine (bind hreads hlength h h').mono fun c hlack => ?_
  unfold Lacks at hlack ⊢
  omega

/-! ### Numbers and texts -/

theorem claim {n : Nat} {c : Cursor} (h : budget < c.claimed + n) :
    Decoder.claim n c = .error .overBudget := by
  unfold Decoder.claim
  rw [if_neg (by omega)]

theorem number (width : Nat) (b : Bytes) : Refuses (Decoder.number width) b (Lacks width) := by
  intro rest claimed _ hlack
  unfold Decoder.number
  exact ⟨_, Decoder.bind_of_error (claim hlack)⟩

theorem bool (b : Bytes) : Refuses Decoder.bool b (Lacks 1) := (number 1 b).first

theorem variant {kind : String} {last : Nat} (b : Bytes) :
    Refuses (Decoder.variant kind last) b (Lacks 4) := (number 4 b).first

/-- Once the variant is known, what follows is refused. -/
theorem tagged {kind : String} {last k : Nat} {f : Nat → Decoder α} {b : Bytes}
    {unfit : Nat → Prop} (h : Refuses (f k) b unfit) (hk : k ≤ last := by decide)
    (hlast : last < 256 := by decide) :
    Refuses (Decoder.variant kind last >>= f) (bigEndian 4 k ++ b)
      fun c => Lacks 4 c ∨ unfit (c + 4) := by
  have hvariant : Reads (Decoder.variant kind last) (bigEndian 4 k) 4 k := Reads.variant hk hlast
  have hbind := bind hvariant (by simp) (variant _) h
  rwa [length_bigEndian] at hbind

theorem tagged_lacks {kind : String} {last k n : Nat} {f : Nat → Decoder α} {b : Bytes}
    (h : Refuses (f k) b (Lacks n)) (hk : k ≤ last := by decide)
    (hlast : last < 256 := by decide) :
    Refuses (Decoder.variant kind last >>= f) (bigEndian 4 k ++ b) (Lacks (4 + n)) := by
  refine (tagged h hk hlast).mono fun c hlack => ?_
  unfold Lacks at hlack ⊢
  omega

/-- The count of more elements than there is room for is not taken. -/
theorem count_of_many {size n claimed : Nat} (hn : n < 2 ^ 64) (hroom : claimed + 8 ≤ budget)
    (hmany : budget < claimed + 8 + n * size) (rest : Bytes) :
    Decoder.count size ⟨bigEndian 8 n ++ rest, claimed⟩ = .error .overBudget := by
  have hread : Reads (Decoder.number 8) (bigEndian 8 n) 8 n :=
    Reads.number (Nat.lt_of_lt_of_eq hn (by decide))
  have hnumber := hread rest claimed hroom
  rw [length_bigEndian] at hnumber
  unfold Decoder.count
  rw [Decoder.bind_of_ok hnumber]
  exact Decoder.bind_of_error (claim hmany)

/-- The count of a container is refused if its elements have no room. -/
theorem count (size : Nat) {n : Nat} (hn : n < 2 ^ 64) :
    Refuses (Decoder.count size) (bigEndian 8 n) (Lacks (8 + n * size)) := by
  intro rest claimed hle hlack
  by_cases hroom : claimed + 8 ≤ budget
  · unfold Lacks at hlack
    exact ⟨_, count_of_many hn hroom (by omega) rest⟩
  · unfold Decoder.count
    exact ⟨_, Decoder.bind_of_error (Decoder.bind_of_error (claim (by simpa using by omega)))⟩

theorem byteString {b : Bytes} (hb : b.length < 2 ^ 64) :
    Refuses Decoder.byteString (encodeByteString b) (Lacks (encodeByteString b).length) := by
  unfold Decoder.byteString encodeByteString
  refine ((count 1 hb).append b).first.mono fun c hlack => ?_
  unfold Lacks at hlack ⊢
  simpa using hlack

theorem text {s : String} (hs : (Text.utf8 s).length < 2 ^ 64) :
    Refuses Decoder.text (encodeText s) (Lacks (encodeText s).length) := (byteString hs).first

/-- A variant that holds a text only. -/
theorem tagged_text {kind : String} {last k : Nat} {f : Nat → Decoder α} {s : String}
    (make : String → α) (hf : f k = do return make (← Decoder.text))
    (h : (bigEndian 4 k ++ encodeText s).length < 2 ^ 64) (hk : k ≤ last := by decide)
    (hlast : last < 256 := by decide) :
    Refuses (Decoder.variant kind last >>= f) (bigEndian 4 k ++ encodeText s)
      (Lacks (bigEndian 4 k ++ encodeText s).length) := by
  have hlength : (bigEndian 4 k ++ encodeText s).length = 4 + (encodeText s).length := by simp
  have htext : (Text.utf8 s).length < 2 ^ 64 := by
    simp only [encodeText, encodeByteString, List.length_append] at h
    omega
  rw [hlength]
  refine tagged_lacks ?_ hk hlast
  rw [hf]
  exact (text htext).map make

/-! ### Containers -/

variable {d : Decoder α} {encode : α → Bytes} {need : α → Nat} {fit : α → Prop} {items : List α}

/-- Elements are refused if one of them is no fit for reading, or if they need too much; those
before it are read. -/
theorem elements (size : Nat) (hreads : ∀ a ∈ items, fit a → Reads d (encode a) (need a) a)
    (hlength : ∀ a ∈ items, (encode a).length ≤ need a)
    (hrefuses : ∀ a ∈ items, Refuses d (encode a) fun c => ¬ fit a ∨ Lacks (need a) c)
    (done : List α) (rest : Bytes) (claimed : Nat) (hroom : claimed + items.length * size ≤ budget)
    (hunfit : (∃ a ∈ items, ¬ fit a) ∨
      Lacks (needEach size (fun a => (encode a).length) need items) claimed) :
    ∃ fault, Decoder.elements size d items.length done
      ⟨items.flatMap encode ++ rest, claimed + items.length * size⟩ = .error fault := by
  induction items generalizing done claimed with
  | nil =>
    rcases hunfit with ⟨a, ha, -⟩ | hlack
    · cases ha
    · simp only [Lacks, needEach, List.length_nil, Nat.zero_mul] at hlack hroom
      omega
  | cons a as ih =>
    have hback : claimed + (as.length + 1) * size - size = claimed + as.length * size := by
      rw [Nat.succ_mul]
      omega
    simp only [List.length_cons] at hroom
    rw [Nat.succ_mul] at hroom
    simp only [List.length_cons, Decoder.elements_succ, List.flatMap_cons, List.append_assoc, hback]
    by_cases ha : fit a ∧ claimed + as.length * size + need a ≤ budget
    · have hd := hreads a List.mem_cons_self ha.1 (as.flatMap encode ++ rest)
        (claimed + as.length * size) ha.2
      have hlen := hlength a List.mem_cons_self
      have hrest : (∃ x ∈ as, ¬ fit x) ∨
          Lacks (needEach size (fun a => (encode a).length) need as)
            (claimed + (encode a).length) := by
        rcases hunfit with ⟨x, hx, hfit⟩ | hlack
        · rcases List.mem_cons.mp hx with rfl | hx
          · exact absurd ha.1 hfit
          · exact .inl ⟨x, hx, hfit⟩
        · right
          simp only [Lacks, needEach] at hlack ⊢
          omega
      have hih := ih (fun x hx => hreads x (List.mem_cons_of_mem _ hx))
        (fun x hx => hlength x (List.mem_cons_of_mem _ hx))
        (fun x hx => hrefuses x (List.mem_cons_of_mem _ hx)) (a :: done)
        (claimed + (encode a).length) (by omega) hrest
      rw [Nat.add_right_comm] at hih
      rw [Decoder.bind_of_ok hd]
      exact hih
    · have hbad : ¬ fit a ∨ Lacks (need a) (claimed + as.length * size) := by
        by_cases hfit : fit a
        · right
          unfold Lacks
          have hlack : ¬ claimed + as.length * size + need a ≤ budget := fun h => ha ⟨hfit, h⟩
          omega
        · exact .inl hfit
      obtain ⟨fault, hd⟩ := hrefuses a List.mem_cons_self (as.flatMap encode ++ rest)
        (claimed + as.length * size) (by omega) hbad
      exact ⟨fault, Decoder.bind_of_error hd⟩

theorem list {size : Nat} (hsize : 0 < size) (hcount : items.length < 2 ^ 64)
    (hreads : ∀ a ∈ items, fit a → Reads d (encode a) (need a) a)
    (hlength : ∀ a ∈ items, (encode a).length ≤ need a)
    (hrefuses : ∀ a ∈ items, Refuses d (encode a) fun c => ¬ fit a ∨ Lacks (need a) c) :
    Refuses (Decoder.list size d) (encodeList encode items) fun c =>
      (∃ a ∈ items, ¬ fit a) ∨ Lacks (needList size (fun a => (encode a).length) need items) c := by
  intro rest claimed hle hunfit
  unfold Decoder.list encodeList
  rw [List.append_assoc]
  by_cases hroom : claimed + (8 + items.length * size) ≤ budget
  · have helements := elements size hreads hlength hrefuses [] rest (claimed + 8)
      (by omega) (hunfit.imp_right fun hlack => by
        simp only [Lacks, needList] at hlack ⊢
        omega)
    have hcount := Reads.count hsize (items.flatMap encode ++ rest) hroom
    rw [Decoder.bind_of_ok hcount]
    exact helements
  · obtain ⟨fault, hcount⟩ := count size hcount (items.flatMap encode ++ rest) claimed hle
      (Nat.not_le.mp hroom)
    exact ⟨fault, Decoder.bind_of_error hcount⟩

end Refuses

/-! ## Bytes of a list -/

variable {α : Type} (encode : α → Bytes) {items : List α}

theorem length_le_encodeAll (h : ∀ a ∈ items, 1 ≤ (encode a).length) :
    items.length ≤ (items.flatMap encode).length := by
  have hsum := List.length_le_sum_of_one_le (items.map fun a => (encode a).length) (by simpa using h)
  rwa [List.length_map, ← List.length_flatMap] at hsum

theorem length_le_of_mem {a : α} (h : a ∈ items) :
    (encode a).length ≤ (items.flatMap encode).length :=
  (List.sublist_flatten_of_mem (List.mem_map_of_mem h)).length_le

theorem length_encodeText (s : String) : (encodeText s).length = 8 + (Text.utf8 s).length := by
  simp [encodeText, encodeByteString]

end NameDirectory.Wire

namespace NameDirectory

open Wire (Refuses Lacks)

/-! ## Names and objects -/

theorem Name.refuses {n : Name} (h : n.encode.length < 2 ^ 64) :
    Refuses Name.decode n.encode (Lacks n.need) := by
  simp only [encode, Wire.encodeList, List.length_append, Wire.length_bigEndian] at h
  have hcount := Wire.length_le_encodeAll Wire.encodeText
    fun s (_ : s ∈ n.components) => by rw [Wire.length_encodeText]; omega
  have htext : ∀ s ∈ n.components, Refuses Wire.Decoder.text (Wire.encodeText s) fun c =>
      ¬ True ∨ Lacks (Wire.encodeText s).length c := by
    intro s hs
    have hlength := Wire.length_le_of_mem Wire.encodeText hs
    rw [Wire.length_encodeText] at hlength
    exact (Refuses.text (by omega)).mono fun c hc => by simpa using hc
  have hsize : 0 < Name.componentSize := by decide
  have hlist := Refuses.list hsize (by omega)
    (fun s _ _ => Wire.Reads.text s) (fun _ _ => Nat.le_refl _) htext
  exact (hlist.mono fun c hc => .inr hc).map Name.mk

namespace Object

theorem nestingAll_le_iff (os : List Object) (n : Nat) :
    nestingAll os ≤ n ↔ ∀ o ∈ os, o.nesting ≤ n := by
  induction os with
  | nil => simp [nestingAll]
  | cons o os ih => rw [nestingAll, Nat.max_le, ih, List.forall_mem_cons]

theorem four_le_length_encode (o : Object) : 4 ≤ o.encode.length := by
  cases o <;> simp [encode]

mutual
theorem refuses : ∀ (o : Object) (levels : Nat), o.encode.length < 2 ^ 64 →
    Refuses (decodeWithin levels) o.encode fun c => ¬ o.nesting ≤ levels ∨ Lacks o.need c
  | null, levels, _ => by
    unfold decodeWithin
    refine (Refuses.tagged_lacks (b := []) (k := 0) (Refuses.pure null)).mono fun c hc => ?_
    simpa [nesting, need] using hc
  | bool b, levels, _ => by
    unfold decodeWithin
    refine (Refuses.tagged_lacks (k := 1) ((Refuses.bool _).map bool)).mono fun c hc => ?_
    simpa [nesting, need] using hc
  | integer i, levels, _ => by
    unfold decodeWithin
    refine (Refuses.tagged_lacks (k := 2)
      ((Refuses.number 8 _).map fun n => integer n.toUInt64.toInt64)).mono fun c hc => ?_
    simpa [nesting, need] using hc
  | text s, levels, h => by
    simp only [encode, List.length_append, Wire.length_encodeText] at h
    unfold decodeWithin
    refine (Refuses.tagged_lacks (k := 3)
      ((Refuses.text (by omega)).map text)).mono fun c hc => ?_
    simpa [nesting, need] using hc
  | bytes b, levels, h => by
    simp only [encode, Wire.encodeByteString, List.length_append] at h
    unfold decodeWithin
    refine (Refuses.tagged_lacks (k := 4)
      ((Refuses.byteString (by omega)).map bytes)).mono fun c hc => ?_
    simpa [nesting, need] using hc
  | list items, 0, _ => by
    have hthrow : Refuses (throw .nestedTooDeeply : Wire.Decoder Object)
        (Wire.bigEndian 8 items.length ++ encodeAll items) fun _ => True :=
      fun _ _ _ _ => ⟨_, rfl⟩
    rw [encode, List.append_assoc]
    unfold decodeWithin
    exact (Refuses.tagged (k := 5) hthrow).mono fun c _ => .inr trivial
  | list items, levels + 1, h => by
    rw [encode, encodeAll_eq, List.append_assoc] at h ⊢
    simp only [List.length_append, Wire.length_bigEndian] at h
    have hcount := Wire.length_le_encodeAll encode
      fun o (_ : o ∈ items) => by have := four_le_length_encode o; omega
    have hitems : ∀ o ∈ items, o.encode.length < 2 ^ 64 := fun o ho => by
      have := Wire.length_le_of_mem encode ho
      omega
    have hsize : 0 < elementSize := by decide
    have hlist := Refuses.list hsize (by omega)
      (fun o _ ho => reads o levels ho) (fun o _ => (counts o).length_le)
      (refuses_of_mem items levels hitems)
    unfold decodeWithin
    refine (Refuses.tagged (k := 5) (hlist.map list)).mono fun c hc => ?_
    rcases hc with hdeep | hlack
    · have hdeep : ¬ nestingAll items ≤ levels := by simpa [nesting] using hdeep
      rw [nestingAll_le_iff] at hdeep
      have hbad : ∃ o ∈ items, ¬ o.nesting ≤ levels := by
        simpa only [Classical.not_forall, exists_prop] using hdeep
      exact .inr (.inl hbad)
    · rw [need, needAll_eq] at hlack
      simp only [Lacks, Wire.needList] at hlack ⊢
      omega
  | link n, levels, h => by
    simp only [encode, List.length_append] at h
    unfold decodeWithin
    refine (Refuses.tagged_lacks (k := 6) ((Name.refuses (by omega)).map link)).mono fun c hc => ?_
    simpa [nesting, need] using hc

theorem refuses_of_mem : ∀ (os : List Object) (levels : Nat),
    (∀ o ∈ os, o.encode.length < 2 ^ 64) → ∀ o ∈ os,
      Refuses (decodeWithin levels) o.encode fun c => ¬ o.nesting ≤ levels ∨ Lacks o.need c
  | [], _, _ => by simp
  | a :: os, levels, h => by
    have ha := refuses a levels (h a List.mem_cons_self)
    have hos := refuses_of_mem os levels fun o ho => h o (List.mem_cons_of_mem _ ho)
    intro o ho
    rcases List.mem_cons.mp ho with rfl | ho
    · exact ha
    · exact hos o ho
end

end Object

/-! ## Faults, bindings and classes -/

theorem NamingFault.refuses {f : NamingFault} (h : f.encode.length < 2 ^ 64) :
    Refuses NamingFault.decode f.encode (Lacks f.encode.length) := by
  unfold NamingFault.decode
  cases f with
  | nameNotFound n => exact Refuses.tagged_text (k := 0) nameNotFound rfl h
  | nameAlreadyBound n => exact Refuses.tagged_text (k := 1) nameAlreadyBound rfl h
  | invalidName n reason =>
    simp only [encode, List.length_append, Wire.length_encodeText] at h
    have hreason := (Refuses.text (s := reason) (by omega)).map (invalidName n)
    have htexts := Refuses.bind_lacks (f := fun n => do
      return invalidName n (← Wire.Decoder.text)) (Wire.Reads.text n) (Nat.le_refl _)
      (Refuses.text (by omega)) hreason
    rw [encode, List.append_assoc]
    refine (Refuses.tagged_lacks (k := 2) htexts).mono fun c hc => ?_
    simpa using hc
  | notContext n => exact Refuses.tagged_text (k := 3) notContext rfl h
  | contextNotEmpty n => exact Refuses.tagged_text (k := 4) contextNotEmpty rfl h
  | internal m => exact Refuses.tagged_text (k := 5) internal rfl h
  | other m => exact Refuses.tagged_text (k := 6) other rfl h

theorem Binding.refuses {b : Binding Object} (h : b.encode.length < 2 ^ 64) :
    Refuses Binding.decode b.encode fun c =>
      ¬ b.value.nesting ≤ Wire.maxNesting ∨ Lacks b.need c := by
  simp only [encode, List.length_append, Wire.length_encodeText] at h
  have hvalue := (b.value.refuses Wire.maxNesting (by omega)).map (Binding.mk b.name b.className)
  have hclass := Refuses.bind (f := fun className => do
    return Binding.mk b.name className (← Object.decode)) (Wire.Reads.text b.className)
    (Nat.le_refl _) (Refuses.text (by omega)) hvalue
  have hname := Refuses.bind (f := fun name => do
    return Binding.mk name (← Wire.Decoder.text) (← Object.decode)) (Wire.Reads.text b.name)
    (Nat.le_refl _) (Refuses.text (by omega)) hclass
  rw [encode, List.append_assoc]
  refine hname.mono fun c hc => ?_
  rcases hc with hdeep | hlack
  · exact .inr (.inr (.inl hdeep))
  · have hneed := b.value.counts.length_le
    simp only [Lacks, need] at hlack ⊢
    omega

theorem NameClass.refuses {p : NameClass} (h : p.encode.length < 2 ^ 64) :
    Refuses NameClass.decode p.encode (Lacks p.encode.length) := by
  simp only [encode, List.length_append, Wire.length_encodeText] at h
  have htexts := Refuses.bind_lacks (f := fun name => do
    return NameClass.mk name (← Wire.Decoder.text)) (Wire.Reads.text p.name) (Nat.le_refl _)
    (Refuses.text (by omega)) ((Refuses.text (s := p.className) (by omega)).map (NameClass.mk p.name))
  refine htexts.mono fun c hc => ?_
  simpa [encode] using hc

/-! ## Values -/

namespace Wire.Value

theorem refuses {v : Value} (h : v.encode.length < 2 ^ 64) :
    Refuses decode v.encode fun c => ¬ v.nesting ≤ maxNesting ∨ Lacks v.need c := by
  unfold decode
  cases v with
  | name n =>
    simp only [encode, List.length_append] at h
    refine (Refuses.tagged_lacks (k := 0) ((Name.refuses (by omega)).map name)).mono fun c hc => ?_
    simpa [nesting, need] using hc
  | object o =>
    simp only [encode, List.length_append] at h
    refine (Refuses.tagged (k := 1) ((o.refuses maxNesting (by omega)).map object)).mono
      fun c hc => ?_
    simp only [Lacks, nesting, need] at hc ⊢
    omega
  | fault f =>
    simp only [encode, List.length_append] at h
    refine (Refuses.tagged_lacks (k := 2) ((NamingFault.refuses (by omega)).map fault)).mono
      fun c hc => ?_
    simpa [nesting, need] using hc
  | binding b =>
    simp only [encode, List.length_append] at h
    refine (Refuses.tagged (k := 3) ((Binding.refuses (by omega)).map binding)).mono fun c hc => ?_
    simp only [Lacks, nesting, need] at hc ⊢
    omega
  | nameClass p =>
    simp only [encode, List.length_append] at h
    refine (Refuses.tagged_lacks (k := 4) ((NameClass.refuses (by omega)).map nameClass)).mono
      fun c hc => ?_
    simpa [nesting, need] using hc

/-- A value is read back, with the count of its bytes, if its lists are not nested too deeply and
the count of claimed bytes stays within the budget.  Otherwise reading fails, provided that the
value fits into a memory of which sizes are words of 64 bits. -/
theorem readCounted_encode (v : Value) (rest : Bytes) :
    (v.nesting ≤ maxNesting ∧ peak 0 v.moves ≤ budget →
      readCounted (v.encode ++ rest) = .ok (v, v.encode.length)) ∧
    (¬ (v.nesting ≤ maxNesting ∧ peak 0 v.moves ≤ budget) → v.encode.length < 2 ^ 64 →
      ∃ fault, readCounted (v.encode ++ rest) = .error fault) := by
  rw [peak_moves, Nat.zero_add]
  constructor
  · intro hfits
    unfold readCounted
    rw [read_encode hfits rest]
    simp [Except.map]
  · intro hunfit hsize
    have hbad : ¬ v.nesting ≤ maxNesting ∨ Lacks v.need 0 := by
      unfold Lacks
      omega
    obtain ⟨fault, hdecode⟩ := refuses hsize rest 0 (Nat.zero_le _) hbad
    refine ⟨fault, ?_⟩
    unfold readCounted read Decoder.run
    rw [hdecode]
    rfl

/-- 64 lists within each other are read back, in front of more; 65 are not. -/
theorem readCounted_encode_nested :
    let nested (n : Nat) : Value := .object (Nat.repeat (fun o => .list [o]) n (.bool true))
    readCounted ((nested 64).encode ++ [7]) = .ok (nested 64, (nested 64).encode.length) ∧
      ∃ fault, readCounted ((nested 65).encode ++ [7]) = .error fault :=
  ⟨(readCounted_encode _ [7]).1 (by decide +kernel),
    (readCounted_encode _ [7]).2 (by decide +kernel) (by decide +kernel)⟩

end Wire.Value

end NameDirectory
