import Mathlib.Algebra.GroupWithZero.Nat
import NameDirectory.Proofs.Limits

/-!
# The room that is claimed and the bytes that are there

The budget is spent in claimed room, and the elements of a list claim the room of their
type, which may be more than the bytes they take.  So bytes within the budget are not
enough for a value to be read back; it depends on how densely its lists fill the room.

* `Object.need_le`, `Value.need_le`: if no element claims more than `k` times its bytes, no
  value does; `Value.dense_eight`: none claims more than eight times;
* `Value.readCounted_list_of_many`: a list of so many elements is refused, however few bytes
  they take;
* `Value.read_back_of_dense`: which values within the documented limits are read back.
-/

namespace NameDirectory.Wire

variable {α : Type}

/-- Elements that claim at most `k` times their bytes, and are read with no more, make a list
of which the same is true. -/
theorem needList_le {size k : Nat} {length need : α → Nat} {items : List α} (hk : 1 ≤ k)
    (h : ∀ a ∈ items, size ≤ k * length a ∧ need a ≤ k * length a) :
    needList size length need items ≤ k * (8 + (items.map length).sum) := by
  suffices items.length * size ≤ k * (items.map length).sum ∧
      needEach size length need items ≤ k * (items.map length).sum by
    have height : 8 ≤ k * 8 := by omega
    rw [needList, Nat.mul_add]
    omega
  induction items with
  | nil => simp [needEach]
  | cons a as ih =>
    obtain ⟨hsize, hneed⟩ := h a List.mem_cons_self
    obtain ⟨hroom, heach⟩ := ih fun x hx => h x (List.mem_cons_of_mem _ hx)
    have hself : length a ≤ k * length a := Nat.le_mul_of_pos_left _ hk
    rw [List.map_cons, List.sum_cons, List.length_cons, needEach, Nat.mul_add, Nat.succ_mul]
    omega

end NameDirectory.Wire

namespace NameDirectory

open Wire (budget)

/-! ## Density -/

/-- No component claims more than `k` times its bytes. -/
def Name.Dense (k : Nat) (n : Name) : Prop :=
  ∀ s ∈ n.components, componentSize ≤ k * (Wire.encodeText s).length

theorem Name.need_le {k : Nat} {n : Name} (hk : 1 ≤ k) (h : n.Dense k) :
    n.need ≤ k * n.encode.length := by
  have hlist := Wire.needList_le hk fun s hs =>
    ⟨h s hs, Nat.le_mul_of_pos_left (Wire.encodeText s).length hk⟩
  rw [encode, Wire.encodeList, List.length_append, Wire.length_bigEndian, List.length_flatMap]
  exact hlist

theorem Name.dense_three (n : Name) : n.Dense 3 := by
  intro s _
  have hsize : componentSize = 24 := rfl
  rw [Wire.length_encodeText]
  omega

namespace Object

mutual
/-- Nowhere in an object does an element of a list, or a component of a name, claim more than `k`
times its bytes. -/
def Dense (k : Nat) : Object → Prop
  | list items => DenseAll k items
  | link n => n.Dense k
  | _ => True

def DenseAll (k : Nat) : List Object → Prop
  | [] => True
  | o :: os => (elementSize ≤ k * o.encode.length ∧ o.Dense k) ∧ DenseAll k os
end

mutual
theorem need_le {k : Nat} (hk : 1 ≤ k) : ∀ o : Object, o.Dense k → o.need ≤ k * o.encode.length
  | null, _ | bool _, _ | integer _, _ | text _, _ | bytes _, _ => by
    refine Nat.le_trans (Nat.le_of_eq ?_) (Nat.le_mul_of_pos_left _ hk)
    simp [need, encode, Wire.encodeBool]
  | list items, h => by
    have hlist := Wire.needList_le hk (needs_le hk items h)
    have hfour : 4 ≤ k * 4 := by omega
    rw [need, needAll_eq, encode, encodeAll_eq]
    simp only [Wire.needList] at hlist
    simp only [List.length_append, Wire.length_bigEndian, List.length_flatMap, Nat.mul_add]
      at hlist ⊢
    omega
  | link n, h => by
    have hname := n.need_le hk h
    have hfour : 4 ≤ k * 4 := by omega
    rw [need, encode, List.length_append, Wire.length_bigEndian, Nat.mul_add]
    omega

theorem needs_le {k : Nat} (hk : 1 ≤ k) : ∀ os : List Object, DenseAll k os →
    ∀ o ∈ os, elementSize ≤ k * o.encode.length ∧ o.need ≤ k * o.encode.length
  | [], _ => by simp
  | a :: os, h => by
    have ha := need_le hk a h.1.2
    have hos := needs_le hk os h.2
    intro o ho
    rcases List.mem_cons.mp ho with rfl | ho
    · exact ⟨h.1.1, ha⟩
    · exact hos o ho
end

mutual
/-- An element of a list takes the bytes of its variant at least. -/
theorem dense_eight : ∀ o : Object, o.Dense 8
  | null | bool _ | integer _ | text _ | bytes _ => trivial
  | list items => denseAll_eight items
  | link n => fun s hs => by
    have hthree := n.dense_three s hs
    omega

theorem denseAll_eight : ∀ os : List Object, DenseAll 8 os
  | [] => trivial
  | o :: os => by
    have hsize : elementSize = 32 := rfl
    have hfour := o.four_le_length_encode
    exact ⟨⟨by omega, dense_eight o⟩, denseAll_eight os⟩
end

end Object

namespace Wire.Value

/-- Nowhere in a value does an element claim more than `k` times its bytes. -/
def Dense (k : Nat) : Value → Prop
  | name n => n.Dense k
  | object o => o.Dense k
  | binding b => b.value.Dense k
  | _ => True

theorem need_le {k : Nat} {v : Value} (hk : 1 ≤ k) (h : v.Dense k) :
    v.need ≤ k * v.encode.length := by
  have hfour : 4 ≤ k * 4 := by omega
  cases v with
  | name n =>
    have hname := n.need_le hk h
    simp only [need, encode, List.length_append, length_bigEndian, Nat.mul_add]
    omega
  | object o =>
    have hobject := o.need_le hk h
    simp only [need, encode, List.length_append, length_bigEndian, Nat.mul_add]
    omega
  | binding b =>
    have hobject := b.value.need_le hk h
    have htexts := Nat.le_mul_of_pos_left
      ((encodeText b.name).length + (encodeText b.className).length) hk
    simp only [need, encode, Binding.need, Binding.encode, List.length_append, length_bigEndian,
      Nat.mul_add] at htexts ⊢
    omega
  | fault _ | nameClass _ =>
    refine Nat.le_trans (Nat.le_of_eq ?_) (Nat.le_mul_of_pos_left _ hk)
    simp [need, encode]

theorem dense_eight (v : Value) : v.Dense 8 := by
  cases v with
  | name n =>
    intro s hs
    have hthree := n.dense_three s hs
    omega
  | object o => exact o.dense_eight
  | binding b => exact b.value.dense_eight
  | fault _ | nameClass _ => trivial

/-! ## Reading back -/

/-- Within the documented limits, 64 lists within each other and the bytes of a packet, a value
is read back exactly if the room that is claimed for it stays within the budget.  That is so if
its elements claim no more room than they take bytes, and, whatever they are, if the value takes
an eighth of the budget at most. -/
theorem read_back_of_dense (v : Value) (rest : Bytes) (hnesting : v.nesting ≤ maxNesting)
    (hsize : v.encode.length ≤ budget) :
    (readCounted (v.encode ++ rest) = .ok (v, v.encode.length) ↔ v.need ≤ budget) ∧
    (∀ k, 1 ≤ k → v.Dense k → k * v.encode.length ≤ budget →
      readCounted (v.encode ++ rest) = .ok (v, v.encode.length)) ∧
    v.Dense 8 := by
  have hroom : v.need ≤ budget → readCounted (v.encode ++ rest) = .ok (v, v.encode.length) := by
    intro hneed
    rw [readCounted, read_encode ⟨hnesting, hneed⟩]
    simp [Except.map]
  refine ⟨⟨fun hread => ?_, hroom⟩, fun k hk hdense hlength => ?_, v.dense_eight⟩
  · by_contra hlack
    have hword : v.encode.length < 2 ^ 64 := Nat.lt_of_le_of_lt hsize (by decide)
    obtain ⟨fault, hdecode⟩ := refuses hword rest 0 (Nat.zero_le _)
      (.inr (by unfold Lacks; omega))
    rw [readCounted, read, Decoder.run, hdecode] at hread
    cases hread
  · exact hroom (Nat.le_trans (need_le hk hdense) hlength)

/-- A list of one text that takes more bytes than an element claims. -/
theorem read_back_of_dense_text :
    let v : Value := .object (.list [.text "a text that takes more room than its element"])
    (v.nesting ≤ maxNesting ∧ v.encode.length ≤ budget) ∧
      readCounted (v.encode ++ [7]) = .ok (v, v.encode.length) :=
  ⟨⟨by decide, by decide +kernel⟩,
    (read_back_of_dense _ [7] (by decide) (by decide +kernel)).2.1 1 (by decide)
      ⟨⟨by decide +kernel, trivial⟩, trivial⟩ (by decide +kernel)⟩

/-- A list of more elements than the budget has room for is refused as soon as their count is
read. -/
theorem readCounted_list_of_many {items : List Object} (hword : items.length < 2 ^ 64)
    (hmany : budget < 16 + items.length * Object.elementSize) (rest : Bytes) :
    readCounted ((object (.list items)).encode ++ rest) = .error .overBudget := by
  have hcount : Decoder.count Object.elementSize
      ⟨bigEndian 8 items.length ++ (Object.encodeAll items ++ rest), 8⟩ = .error .overBudget :=
    Refuses.count_of_many hword (by decide) hmany _
  have hobject : Object.decode
      ⟨bigEndian 4 5 ++ (bigEndian 8 items.length ++ (Object.encodeAll items ++ rest)), 4⟩ =
        .error .overBudget := by
    have hvariant : Reads (Decoder.variant "Object" 6) (bigEndian 4 5) 4 5 :=
      Reads.variant (by decide) (by decide)
    unfold Object.decode maxNesting Object.decodeWithin
    rw [Decoder.bind_of_ok (hvariant _ 4 (by decide))]
    exact Decoder.bind_of_error (Decoder.bind_of_error hcount)
  have hdecode : decode ⟨bigEndian 4 1 ++ (bigEndian 4 5 ++
      (bigEndian 8 items.length ++ (Object.encodeAll items ++ rest))), 0⟩ =
        .error .overBudget := by
    have hvariant : Reads (Decoder.variant "Marshalled" 4) (bigEndian 4 1) 4 1 :=
      Reads.variant (by decide) (by decide)
    unfold decode
    rw [Decoder.bind_of_ok (hvariant _ 0 (by decide))]
    exact Decoder.bind_of_error hobject
  simp only [readCounted, read, Decoder.run, encode, Object.encode, List.append_assoc, hdecode]
  rfl

theorem list_of_nulls (n : Nat) :
    let v : Value := .object (.list (List.replicate n .null))
    v.nesting ≤ maxNesting ∧ v.encode.length = 16 + n * 4 := by
  have hnesting : Object.nestingAll (List.replicate n .null) ≤ 63 :=
    (Object.nestingAll_le_iff _ _).mpr fun o ho => by
      rw [List.eq_of_mem_replicate ho]
      decide
  refine ⟨Nat.succ_le_succ hnesting, ?_⟩
  simp only [encode, Object.encode, Object.encodeAll_eq, List.length_append, length_bigEndian,
    List.length_flatMap, List.map_replicate, List.sum_replicate_nat]
  omega

/-- Two mebibytes of nulls, which take four bytes each and claim 32, are not read back. -/
theorem list_of_nulls_not_read_back :
    let v : Value := .object (.list (List.replicate 524288 .null))
    v.nesting ≤ maxNesting ∧ v.encode.length ≤ budget ∧
      readCounted v.encode = .error .overBudget ∧
      ¬ readCounted v.encode = .ok (v, v.encode.length) := by
  obtain ⟨hnesting, hlength⟩ := list_of_nulls 524288
  have hword : (List.replicate 524288 Object.null).length < 2 ^ 64 := by
    rw [List.length_replicate]
    decide
  have hmany :
      budget < 16 + (List.replicate 524288 Object.null).length * Object.elementSize := by
    rw [List.length_replicate]
    decide
  have hread := readCounted_list_of_many hword hmany []
  rw [List.append_nil] at hread
  refine ⟨hnesting, ?_, hread, ?_⟩
  · rw [hlength]
    decide
  · rw [hread]
    nofun

end Wire.Value

end NameDirectory
