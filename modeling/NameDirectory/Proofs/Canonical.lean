import NameDirectory.Proofs.Limits

/-!
# One form for each value

Whatever bytes a value is read from, they are the bytes that it is written as.  So nobody can
send a value in two forms, or the form of one value as the beginning of that of another.

* `Took` says what a reading that succeeded did with the bytes and the count of claimed ones;
  readings in sequence are put together by `Took.append`;
* `Takes` says of a decoder that what it reads has the form that is written: `Object.takes`,
  `Value.takes`;
* `Value.readCounted_canonical`: what is read is within the limits, and is read again from
  anything that starts the same way.
-/

namespace NameDirectory.Wire

variable {α β : Type} {c c' : Cursor}

/-! ## Readings that succeed -/

namespace Decoder

theorem exists_of_bind {d : Decoder α} {f : α → Decoder β} {b : β}
    (h : (d >>= f) c = .ok (b, c')) : ∃ a c₁, d c = .ok (a, c₁) ∧ f a c₁ = .ok (b, c') := by
  cases hd : d c with
  | error fault =>
    rw [Decoder.bind_of_error hd] at h
    cases h
  | ok p =>
    obtain ⟨a, c₁⟩ := p
    rw [Decoder.bind_of_ok hd] at h
    exact ⟨a, c₁, rfl, h⟩

theorem exists_of_map {d : Decoder α} {f : α → β} {b : β}
    (h : (do return f (← d) : Decoder β) c = .ok (b, c')) :
    ∃ a, d c = .ok (a, c') ∧ b = f a := by
  obtain ⟨a, c₁, hd, h⟩ := exists_of_bind h
  cases h
  exact ⟨a, hd, rfl⟩

theorem le_of_claim {n : Nat} {u : Unit} (h : claim n c = .ok (u, c')) :
    c' = { c with claimed := c.claimed + n } ∧ c'.claimed ≤ budget := by
  unfold claim at h
  split at h
  · next hle =>
    cases h
    exact ⟨rfl, hle⟩
  · cases h

theorem eq_append_of_take {n : Nat} {b : Bytes} (h : take n c = .ok (b, c')) :
    b.length = n ∧ c.rest = b ++ c'.rest ∧ c'.claimed = c.claimed := by
  unfold take at h
  dsimp only at h
  split at h
  · cases h
  · next hlong =>
    cases h
    refine ⟨?_, (List.take_append_drop n c.rest).symm, rfl⟩
    have hle := List.length_take_le n c.rest
    omega

end Decoder

/-- Exactly `bytes` were read between `c` and `c'`, and of what was claimed meanwhile only they
stay claimed. -/
structure Took (c : Cursor) (bytes : Bytes) (c' : Cursor) : Prop where
  rest : c.rest = bytes ++ c'.rest
  claimed : c'.claimed = c.claimed + bytes.length
  within : c.claimed ≤ budget → c'.claimed ≤ budget

namespace Took

theorem append {b b' : Bytes} {c'' : Cursor} (h : Took c b c') (h' : Took c' b' c'') :
    Took c (b ++ b') c'' where
  rest := by rw [h.rest, h'.rest, List.append_assoc]
  claimed := by
    rw [h'.claimed, h.claimed, List.length_append]
    omega
  within hle := h'.within (h.within hle)

end Took

/-- What `d` reads stands in the bytes as it is written. -/
def Takes (d : Decoder α) (encode : α → Bytes) : Prop :=
  ∀ ⦃c c' a⦄, d c = .ok (a, c') → Took c (encode a) c'

namespace Takes

/-! ## Numbers and texts -/

theorem number (width : Nat) : Takes (Decoder.number width) (bigEndian width) := by
  intro c c' n h
  obtain ⟨u, c₁, hclaim, h⟩ := Decoder.exists_of_bind h
  obtain ⟨b, htake, rfl⟩ := Decoder.exists_of_map h
  obtain ⟨rfl, hle⟩ := Decoder.le_of_claim hclaim
  obtain ⟨rfl, hrest, hclaimed⟩ := Decoder.eq_append_of_take htake
  rw [bigEndian_ofBigEndian]
  exact ⟨hrest, hclaimed, fun _ => hclaimed ▸ hle⟩

theorem lt_of_number {width n : Nat} (h : Decoder.number width c = .ok (n, c')) :
    n < Nat.pow 256 width := by
  obtain ⟨u, c₁, -, h⟩ := Decoder.exists_of_bind h
  obtain ⟨b, htake, rfl⟩ := Decoder.exists_of_map h
  obtain ⟨rfl, -⟩ := Decoder.eq_append_of_take htake
  exact ofBigEndian_lt b

theorem bool : Takes Decoder.bool encodeBool := by
  intro c c' b h
  obtain ⟨n, c₁, hn, h⟩ := Decoder.exists_of_bind h
  have htook := number 1 hn
  split at h
  · cases h
    exact htook
  · cases h
    exact htook
  · cases h

/-- Only the variants that there are can be read. -/
theorem variant {kind : String} {last k : Nat} (h : Decoder.variant kind last c = .ok (k, c')) :
    k ≤ last ∧ Took c (bigEndian 4 k) c' := by
  obtain ⟨n, c₁, hn, h⟩ := Decoder.exists_of_bind h
  have htook := number 4 hn
  split at h
  · next hle =>
    cases h
    exact ⟨hle, htook⟩
  · cases h

/-- The elements of a container are claimed as soon as their number is known. -/
theorem count {size n : Nat} (h : Decoder.count size c = .ok (n, c')) :
    c.rest = bigEndian 8 n ++ c'.rest ∧ c'.claimed = c.claimed + 8 + n * size ∧
      c'.claimed ≤ budget := by
  obtain ⟨m, c₁, hm, h⟩ := Decoder.exists_of_bind h
  obtain ⟨u, c₂, hclaim, h⟩ := Decoder.exists_of_bind h
  cases h
  obtain ⟨rfl, hle⟩ := Decoder.le_of_claim hclaim
  have htook := number 8 hm
  have hclaimed := htook.claimed
  rw [length_bigEndian] at hclaimed
  exact ⟨htook.rest, by rw [hclaimed], hle⟩

theorem byteString : Takes Decoder.byteString encodeByteString := by
  intro c c' b h
  obtain ⟨n, c₁, hn, htake⟩ := Decoder.exists_of_bind h
  obtain ⟨hrest, hclaimed, hle⟩ := count hn
  obtain ⟨rfl, hrest', hclaimed'⟩ := Decoder.eq_append_of_take htake
  refine ⟨?_, ?_, fun _ => ?_⟩
  · rw [hrest, hrest', encodeByteString, List.append_assoc]
  · rw [hclaimed', hclaimed, encodeByteString, List.length_append, length_bigEndian]
    omega
  · rw [hclaimed']
    exact hle

/-- Bytes are read as a text only if they are its form. -/
theorem text : Takes Decoder.text encodeText := by
  intro c c' s h
  obtain ⟨b, c₁, hb, h⟩ := Decoder.exists_of_bind h
  have htook := byteString hb
  cases hs : Text.ofUtf8? b with
  | none =>
    simp only [Text.ofUtf8, hs] at h
    cases h
  | some s' =>
    simp only [Text.ofUtf8, hs] at h
    cases h
    rw [encodeText, Text.utf8_of_ofUtf8? hs]
    exact htook

/-! ## Containers -/

variable {d : Decoder α} {encode : α → Bytes}

/-- The count starts above `base` by the room of the elements, and ends above it by their bytes. -/
theorem elements (hd : Takes d encode) (size : Nat) {n base : Nat} {done items : List α}
    (hclaimed : c.claimed = base + n * size)
    (h : Decoder.elements size d n done c = .ok (items, c')) :
    ∃ more, items = done.reverse ++ more ∧ more.length = n ∧
      c.rest = more.flatMap encode ++ c'.rest ∧
      c'.claimed = base + (more.flatMap encode).length ∧
      (c.claimed ≤ budget → c'.claimed ≤ budget) := by
  induction n generalizing done base c with
  | zero =>
    cases h
    refine ⟨[], by simp, rfl, rfl, ?_, id⟩
    simpa using hclaimed
  | succ n ih =>
    rw [Decoder.elements_succ] at h
    obtain ⟨a, c₁, ha, h⟩ := Decoder.exists_of_bind h
    have htook := hd ha
    have hback : c.claimed - size = base + n * size := by
      rw [hclaimed, Nat.succ_mul]
      omega
    have hnext : c₁.claimed = base + (encode a).length + n * size := by
      have hread := htook.claimed
      simp only [hback] at hread
      omega
    obtain ⟨more, rfl, hlength, hrest, hend, hwithin⟩ := ih hnext h
    refine ⟨a :: more, by simp, by simp [hlength], ?_, ?_, fun hle => ?_⟩
    · have hread := htook.rest
      simp only [hrest] at hread
      rw [hread, List.flatMap_cons, List.append_assoc]
    · rw [hend, List.flatMap_cons, List.length_append]
      omega
    · refine hwithin (htook.within ?_)
      simp only
      omega

theorem list (hd : Takes d encode) (size : Nat) :
    Takes (Decoder.list size d) (encodeList encode) := by
  intro c c' items h
  obtain ⟨n, c₁, hn, h⟩ := Decoder.exists_of_bind h
  obtain ⟨hrest, hclaimed, hle⟩ := count hn
  obtain ⟨more, rfl, rfl, hrest', hend, hwithin⟩ := elements hd size hclaimed h
  refine ⟨?_, ?_, fun _ => hwithin hle⟩
  · rw [hrest, hrest', encodeList, List.append_assoc]
  · rw [hend, encodeList, List.length_append, length_bigEndian]
    omega

end Takes

end NameDirectory.Wire

namespace NameDirectory

open Wire (Took Takes)

/-! ## Names and objects -/

theorem Name.takes : Takes Name.decode Name.encode := by
  intro c c' n h
  obtain ⟨components, hlist, rfl⟩ := Wire.Decoder.exists_of_map h
  exact Takes.text.list componentSize hlist

namespace Object

/-- An object has the form that is written if the elements of lists in it do. -/
theorem takes_of_elements {levels : Nat}
    (helements : ∀ l, levels = l + 1 → Takes (decodeWithin l) encode) :
    Takes (decodeWithin levels) encode := by
  intro c c' o h
  unfold decodeWithin at h
  obtain ⟨k, c₁, hk, h⟩ := Wire.Decoder.exists_of_bind h
  obtain ⟨hle, hvariant⟩ := Takes.variant hk
  split at h
  · cases h
    simpa [encode] using hvariant
  · obtain ⟨b, hb, rfl⟩ := Wire.Decoder.exists_of_map h
    exact hvariant.append (Takes.bool hb)
  · obtain ⟨n, hn, rfl⟩ := Wire.Decoder.exists_of_map h
    have hback : n.toUInt64.toInt64.toUInt64.toNat = n := by
      have hlt : n < 2 ^ 64 := Nat.lt_of_lt_of_eq (Takes.lt_of_number hn) (by decide)
      rw [UInt64.toUInt64_toInt64]
      simpa using hlt
    rw [encode, hback]
    exact hvariant.append (Takes.number 8 hn)
  · obtain ⟨s, hs, rfl⟩ := Wire.Decoder.exists_of_map h
    exact hvariant.append (Takes.text hs)
  · obtain ⟨b, hb, rfl⟩ := Wire.Decoder.exists_of_map h
    exact hvariant.append (Takes.byteString hb)
  · cases levels with
    | zero => cases h
    | succ levels =>
      obtain ⟨items, hitems, rfl⟩ := Wire.Decoder.exists_of_map h
      rw [encode, encodeAll_eq, List.append_assoc]
      exact hvariant.append ((helements levels rfl).list elementSize hitems)
  · obtain ⟨n, hn, rfl⟩ := Wire.Decoder.exists_of_map h
    obtain rfl : k = 6 := by grind
    exact hvariant.append (Name.takes hn)

theorem takes (levels : Nat) : Takes (decodeWithin levels) encode := by
  induction levels with
  | zero => exact takes_of_elements fun l hl => by cases hl
  | succ levels ih =>
    refine takes_of_elements fun l hl => ?_
    obtain rfl := Nat.succ.inj hl
    exact ih

end Object

/-! ## Faults, bindings and classes -/

theorem NamingFault.takes : Takes NamingFault.decode NamingFault.encode := by
  intro c c' f h
  obtain ⟨k, c₁, hk, h⟩ := Wire.Decoder.exists_of_bind h
  obtain ⟨hle, hvariant⟩ := Takes.variant hk
  split at h
  case h_3 =>
    obtain ⟨n, c₂, hn, h⟩ := Wire.Decoder.exists_of_bind h
    obtain ⟨reason, hreason, rfl⟩ := Wire.Decoder.exists_of_map h
    exact (hvariant.append (Takes.text hn)).append (Takes.text hreason)
  case h_7 =>
    obtain ⟨s, hs, rfl⟩ := Wire.Decoder.exists_of_map h
    obtain rfl : k = 6 := by grind
    exact hvariant.append (Takes.text hs)
  all_goals
    obtain ⟨s, hs, rfl⟩ := Wire.Decoder.exists_of_map h
    exact hvariant.append (Takes.text hs)

theorem Binding.takes : Takes Binding.decode Binding.encode := by
  intro c c' b h
  obtain ⟨name, c₁, hname, h⟩ := Wire.Decoder.exists_of_bind h
  obtain ⟨className, c₂, hclass, h⟩ := Wire.Decoder.exists_of_bind h
  obtain ⟨value, hvalue, rfl⟩ := Wire.Decoder.exists_of_map h
  exact ((Takes.text hname).append (Takes.text hclass)).append (Object.takes _ hvalue)

theorem NameClass.takes : Takes NameClass.decode NameClass.encode := by
  intro c c' p h
  obtain ⟨name, c₁, hname, h⟩ := Wire.Decoder.exists_of_bind h
  obtain ⟨className, hclass, rfl⟩ := Wire.Decoder.exists_of_map h
  exact (Takes.text hname).append (Takes.text hclass)

/-! ## Values -/

namespace Wire.Value

theorem takes : Takes decode encode := by
  intro c c' v h
  obtain ⟨k, c₁, hk, h⟩ := Decoder.exists_of_bind h
  obtain ⟨hle, hvariant⟩ := Takes.variant hk
  split at h
  · obtain ⟨n, hn, rfl⟩ := Decoder.exists_of_map h
    exact hvariant.append (Name.takes hn)
  · obtain ⟨o, ho, rfl⟩ := Decoder.exists_of_map h
    exact hvariant.append (Object.takes _ ho)
  · obtain ⟨f, hf, rfl⟩ := Decoder.exists_of_map h
    exact hvariant.append (NamingFault.takes hf)
  · obtain ⟨b, hb, rfl⟩ := Decoder.exists_of_map h
    exact hvariant.append (Binding.takes hb)
  · obtain ⟨p, hp, rfl⟩ := Decoder.exists_of_map h
    obtain rfl : k = 4 := by grind
    exact hvariant.append (NameClass.takes hp)

/-- What is read is within the limits, and stands at the front of the bytes as it is written. -/
theorem fits_of_read {bytes rest : Bytes} {v : Value} (h : read bytes = .ok (v, rest)) :
    v.Fits ∧ bytes = v.encode ++ rest ∧ v.encode.length ≤ budget := by
  unfold read Decoder.run at h
  split at h
  · next a c' hdecode =>
    cases h
    have htook := takes hdecode
    have hlength : v.encode.length ≤ budget := by
      have hend := htook.within (Nat.zero_le _)
      rwa [htook.claimed, Nat.zero_add] at hend
    refine ⟨?_, htook.rest, hlength⟩
    by_contra hunfit
    have hbad : ¬ v.nesting ≤ maxNesting ∨ Lacks v.need 0 := by
      unfold Fits at hunfit
      unfold Lacks
      omega
    have hsize : v.encode.length < 2 ^ 64 := Nat.lt_of_le_of_lt hlength (by decide)
    obtain ⟨fault, hfault⟩ := refuses hsize c'.rest 0 (Nat.zero_le _) hbad
    have hrest : bytes = v.encode ++ c'.rest := htook.rest
    rw [hrest, hfault] at hdecode
    cases hdecode
  · cases h

theorem readCounted_eq_ok {bytes : Bytes} {v : Value} {n : Nat}
    (h : readCounted bytes = .ok (v, n)) :
    v.Fits ∧ v.encode.length = n ∧ n ≤ budget ∧ v.encode <+: bytes := by
  unfold readCounted at h
  cases hread : read bytes with
  | error fault =>
    rw [hread] at h
    cases h
  | ok p =>
    obtain ⟨v', rest⟩ := p
    rw [hread] at h
    cases h
    obtain ⟨hfits, rfl, hlength⟩ := fits_of_read hread
    have hcount : (v.encode ++ rest).length - rest.length = v.encode.length := by simp
    rw [hcount]
    exact ⟨hfits, rfl, hlength, List.prefix_append _ _⟩

/-- A value within the limits is read from anything that starts with its form. -/
theorem readCounted_of_prefix {bytes : Bytes} {v : Value} (h : v.Fits)
    (hstart : v.encode <+: bytes) : readCounted bytes = .ok (v, v.encode.length) := by
  obtain ⟨rest, rfl⟩ := hstart
  unfold readCounted
  rw [read_encode h rest]
  simp [Except.map]

/-- Bytes that a value is read from are within the limits and are its form, and it is read from
whatever starts with them; so a value has one form only, and no form is the beginning of
another. -/
theorem readCounted_canonical {bytes : Bytes} {v : Value} {n : Nat}
    (h : readCounted bytes = .ok (v, n)) :
    n ≤ bytes.length ∧ n ≤ budget ∧ v.nesting ≤ maxNesting ∧ v.encode = bytes.take n ∧
    (∀ bytes', bytes.take n <+: bytes' → readCounted bytes' = .ok (v, n)) ∧
    ∀ bytes' v' n', readCounted bytes' = .ok (v', n') →
      (v' = v → bytes'.take n' = bytes.take n) ∧
      (bytes.take n <+: bytes'.take n' → bytes'.take n' = bytes.take n) := by
  have hform : ∀ {bytes' v' n'}, readCounted bytes' = .ok (v', n') → v'.encode = bytes'.take n' := by
    intro bytes' v' n' h'
    obtain ⟨-, hn', -, hstart'⟩ := readCounted_eq_ok h'
    rw [← hn']
    exact List.prefix_iff_eq_take.mp hstart'
  obtain ⟨hfits, hn, hbudget, hstart⟩ := readCounted_eq_ok h
  have hagain : ∀ bytes', bytes.take n <+: bytes' → readCounted bytes' = .ok (v, n) := by
    intro bytes' hstart
    rw [← hform h] at hstart
    rw [← hn]
    exact readCounted_of_prefix hfits hstart
  refine ⟨hn ▸ hstart.length_le, hbudget, hfits.1, hform h, hagain, fun bytes' v' n' h' => ?_⟩
  have hsame : v' = v → bytes'.take n' = bytes.take n := by
    rintro rfl
    rw [← hform h', ← hform h]
  refine ⟨hsame, fun hstart => hsame ?_⟩
  have hread := hagain bytes' (hstart.trans (List.take_prefix n' bytes'))
  rw [h'] at hread
  cases hread
  rfl

/-- A truth value within two lists, in front of more. -/
theorem readCounted_canonical_nested :
    let v : Value := .object (.list [.list [.bool true], .null])
    let bytes : Bytes := v.encode ++ [1, 2]
    readCounted bytes = .ok (v, 37) ∧ v.encode = bytes.take 37 ∧
      ∀ bytes', bytes.take 37 <+: bytes' → readCounted bytes' = .ok (v, 37) := by
  intro v bytes
  have hread : readCounted bytes = .ok (v, 37) := by decide +kernel
  obtain ⟨-, -, -, hform, hagain, -⟩ := readCounted_canonical hread
  exact ⟨hread, hform, hagain⟩

end Wire.Value

end NameDirectory
