import NameDirectory.Wire.Value

/-!
# Values read back

What is written is read back, in front of whatever bytes, as long as the count of
claimed bytes stays within the budget and lists are not nested too deeply.

* `Reads` says so of a decoder and the bytes of one value, with the most that is
  claimed while they are read; sequences of readings are put together by `Reads.bind`;
* `Value.need` is the most that is claimed while a value is read;
* `Value.read_encode`: a value that `Fits` is read back and the rest is left.
-/

namespace NameDirectory.Wire

variable {α β : Type}

theorem Decoder.bind_of_ok {d : Decoder α} {f : α → Decoder β} {c c' : Cursor} {a : α}
    (h : d c = .ok (a, c')) : (d >>= f) c = f a c' := by
  change (d c >>= fun p => f p.1 p.2) = f a c'
  rw [h]
  rfl

theorem Decoder.bind_of_error {d : Decoder α} {f : α → Decoder β} {c : Cursor} {fault : DecodeFault}
    (h : d c = .error fault) : (d >>= f) c = .error fault := by
  change (d c >>= fun p => f p.1 p.2) = .error fault
  rw [h]
  rfl

theorem Decoder.elements_succ (size n : Nat) (d : Decoder α) (done : List α) (c : Cursor) :
    Decoder.elements size d (n + 1) done c =
      (d >>= fun a => Decoder.elements size d n (a :: done))
        { c with claimed := c.claimed - size } := by
  rw [Decoder.elements]
  dsimp only
  cases hd : d { c with claimed := c.claimed - size } with
  | ok x => rw [Decoder.bind_of_ok hd]
  | error fault => rw [Decoder.bind_of_error hd]

theorem Decoder.claim_of_le {n : Nat} {c : Cursor} (h : c.claimed + n ≤ budget) :
    claim n c = .ok ((), { c with claimed := c.claimed + n }) := if_pos h

/-! ## Reading in sequence -/

/-- `d` reads `a` off the front of anything that starts with `bytes`, wherever the count of
claimed bytes has room for `need` more.  Only the bytes themselves stay claimed. -/
def Reads (d : Decoder α) (bytes : Bytes) (need : Nat) (a : α) : Prop :=
  ∀ rest claimed, claimed + need ≤ budget →
    d ⟨bytes ++ rest, claimed⟩ = .ok (a, ⟨rest, claimed + bytes.length⟩)

namespace Reads

theorem bind {d : Decoder α} {f : α → Decoder β} {b b' : Bytes} {n n' : Nat} {a : α} {a' : β}
    (h : Reads d b n a) (h' : Reads (f a) b' n' a') :
    Reads (d >>= f) (b ++ b') (max n (b.length + n')) a' := by
  intro rest claimed hroom
  rw [List.append_assoc, Decoder.bind_of_ok (h (b' ++ rest) claimed (by omega)),
    h' rest (claimed + b.length) (by omega), List.length_append, Nat.add_assoc]

theorem map {d : Decoder α} {b : Bytes} {n : Nat} {a : α} (h : Reads d b n a) (f : α → β) :
    Reads (do return f (← d)) b n (f a) := by
  intro rest claimed hroom
  exact Decoder.bind_of_ok (h rest claimed hroom)

theorem mono {d : Decoder α} {b : Bytes} {n m : Nat} {a : α} (h : Reads d b n a) (hnm : n ≤ m) :
    Reads d b m a := fun rest claimed hroom => h rest claimed (by omega)

theorem pure (a : α) : Reads (Pure.pure a) [] 0 a := fun _ _ _ => rfl

/-! ## Numbers and texts -/

theorem number {width n : Nat} (hn : n < Nat.pow 256 width) :
    Reads (Decoder.number width) (bigEndian width n) width n := by
  intro rest claimed hroom
  have htake : Decoder.take (bigEndian width n).length
      ⟨bigEndian width n ++ rest, claimed + width⟩ =
      .ok (bigEndian width n, ⟨rest, claimed + width⟩) := Decoder.take_append rest _
  rw [length_bigEndian] at htake ⊢
  unfold Decoder.number
  rw [Decoder.bind_of_ok (Decoder.claim_of_le hroom), Decoder.bind_of_ok htake]
  exact congrArg (fun m => Except.ok (m, _)) (ofBigEndian_bigEndian hn)

theorem bool (b : Bool) : Reads Decoder.bool (encodeBool b) 1 b := by
  intro rest claimed hroom
  have hb : encodeBool b = bigEndian 1 b.toNat := by cases b <;> rfl
  have hn : b.toNat < Nat.pow 256 1 := by cases b <;> decide
  unfold Decoder.bool
  rw [hb, Decoder.bind_of_ok (number hn rest claimed hroom)]
  cases b <;> rfl

theorem variant {kind : String} {last k : Nat} (hk : k ≤ last) (hlast : last < 256) :
    Reads (Decoder.variant kind last) (bigEndian 4 k) 4 k := by
  intro rest claimed hroom
  have hpow : k < Nat.pow 256 4 := Nat.lt_of_lt_of_le (by omega) (by decide : 256 ≤ Nat.pow 256 4)
  unfold Decoder.variant
  rw [Decoder.bind_of_ok (number hpow rest claimed hroom), if_pos hk]
  rfl

/-- What is read once the variant is known. -/
theorem tagged {kind : String} {last k n : Nat} {f : Nat → Decoder α} {b : Bytes} {a : α}
    (h : Reads (f k) b n a) (hk : k ≤ last := by decide) (hlast : last < 256 := by decide) :
    Reads (Decoder.variant kind last >>= f) (bigEndian 4 k ++ b) (4 + n) a :=
  ((variant hk hlast).bind h).mono (by rw [length_bigEndian]; omega)

/-- A container's count claims the room of its elements, which is not read yet. -/
theorem count {size n : Nat} (hsize : 0 < size) (rest : Bytes) {claimed : Nat}
    (hroom : claimed + (8 + n * size) ≤ budget) :
    Decoder.count size ⟨bigEndian 8 n ++ rest, claimed⟩ =
      .ok (n, ⟨rest, claimed + 8 + n * size⟩) := by
  have hle : n ≤ n * size := Nat.le_mul_of_pos_right n hsize
  have hbudget : budget < Nat.pow 256 8 := by decide
  have hread : Reads (Decoder.number 8) (bigEndian 8 n) 8 n := number (by omega)
  have hnumber := hread rest claimed (by omega)
  rw [length_bigEndian] at hnumber
  unfold Decoder.count
  rw [Decoder.bind_of_ok hnumber, Decoder.bind_of_ok (Decoder.claim_of_le (by simpa using by omega))]
  rfl

theorem byteString (b : Bytes) :
    Reads Decoder.byteString (encodeByteString b) (encodeByteString b).length b := by
  intro rest claimed hroom
  simp only [encodeByteString, List.length_append, length_bigEndian] at hroom ⊢
  unfold Decoder.byteString
  rw [List.append_assoc, Decoder.bind_of_ok (count (by decide) _ (by omega)),
    Decoder.take_append, Nat.mul_one, Nat.add_assoc]

theorem text (s : String) : Reads Decoder.text (encodeText s) (encodeText s).length s := by
  intro rest claimed hroom
  unfold Decoder.text encodeText
  rw [Decoder.bind_of_ok (byteString (Text.utf8 s) rest claimed hroom), Text.ofUtf8,
    Text.ofUtf8?_utf8]
  rfl

end Reads

/-! ## Containers -/

/-- The most that is claimed while elements are read, beyond what was claimed before their count:
with each element, the room of those behind it and the bytes of those before it. -/
def needEach (size : Nat) (length need : α → Nat) : List α → Nat
  | [] => 0
  | a :: as => max (as.length * size + need a) (length a + needEach size length need as)

/-- The most that is claimed while a container is read. -/
def needList (size : Nat) (length need : α → Nat) (items : List α) : Nat :=
  8 + max (items.length * size) (needEach size length need items)

namespace Reads

theorem elements {size : Nat} {d : Decoder α} {encode : α → Bytes} {need : α → Nat}
    {items : List α} (h : ∀ a ∈ items, Reads d (encode a) (need a) a) (done : List α)
    (rest : Bytes) (claimed : Nat)
    (hroom : claimed + needEach size (fun a => (encode a).length) need items ≤ budget) :
    Decoder.elements size d items.length done
        ⟨items.flatMap encode ++ rest, claimed + items.length * size⟩ =
      .ok (done.reverse ++ items, ⟨rest, claimed + (items.flatMap encode).length⟩) := by
  induction items generalizing done claimed with
  | nil =>
    simp only [List.length_nil, Nat.zero_mul, List.flatMap_nil, List.nil_append, List.append_nil]
    rfl
  | cons a as ih =>
    simp only [needEach] at hroom
    have hback : claimed + (as.length + 1) * size - size = claimed + as.length * size := by
      rw [Nat.succ_mul]; omega
    have hd := h a List.mem_cons_self (as.flatMap encode ++ rest) (claimed + as.length * size)
      (by omega)
    have hrest := ih (fun x hx => h x (List.mem_cons_of_mem _ hx)) (a :: done)
      (claimed + (encode a).length) (by omega)
    simp only [List.length_cons, Decoder.elements_succ, List.flatMap_cons, List.append_assoc, hback]
    rw [Decoder.bind_of_ok hd, Nat.add_right_comm, hrest]
    simp [Nat.add_assoc]

theorem list {size : Nat} {d : Decoder α} {encode : α → Bytes} {need : α → Nat}
    {items : List α} (hsize : 0 < size) (h : ∀ a ∈ items, Reads d (encode a) (need a) a) :
    Reads (Decoder.list size d) (encodeList encode items)
      (needList size (fun a => (encode a).length) need items) items := by
  intro rest claimed hroom
  simp only [needList] at hroom
  unfold Decoder.list encodeList
  rw [List.append_assoc, Decoder.bind_of_ok (count hsize _ (by omega)),
    elements h [] rest (claimed + 8) (by omega)]
  simp [Nat.add_assoc]

end Reads

end NameDirectory.Wire

namespace NameDirectory

open Wire (Reads budget)

/-! ## Names and objects -/

def Name.need (n : Name) : Nat :=
  Wire.needList componentSize (fun s => (Wire.encodeText s).length)
    (fun s => (Wire.encodeText s).length) n.components

theorem Name.reads (n : Name) : Reads Name.decode n.encode n.need n :=
  (Reads.list (by decide) fun s _ => Reads.text s).map Name.mk

namespace Object

mutual
/-- The most that is claimed while an object is read. -/
def need : Object → Nat
  | null => 4 + 0
  | bool _ => 4 + 1
  | integer _ => 4 + 8
  | text s => 4 + (Wire.encodeText s).length
  | bytes b => 4 + (Wire.encodeByteString b).length
  | list items => 4 + 8 + max (items.length * elementSize) (needAll items)
  | link n => 4 + n.need

def needAll : List Object → Nat
  | [] => 0
  | o :: os => max (os.length * elementSize + o.need) (o.encode.length + needAll os)
end

theorem needAll_eq (os : List Object) :
    needAll os = Wire.needEach elementSize (fun o => o.encode.length) need os := by
  induction os with
  | nil => rfl
  | cons o os ih => rw [needAll, Wire.needEach, ih]

theorem encodeAll_eq (os : List Object) : encodeAll os = os.flatMap encode := by
  induction os with
  | nil => rfl
  | cons o os ih => rw [encodeAll, ih, List.flatMap_cons]

mutual
theorem reads : ∀ (o : Object) (levels : Nat), o.nesting ≤ levels →
    Reads (decodeWithin levels) o.encode o.need o
  | null, levels, _ => by
    unfold decodeWithin
    exact Reads.tagged (b := []) (k := 0) (Reads.pure null)
  | bool b, levels, _ => by
    unfold decodeWithin
    exact Reads.tagged (k := 1) ((Reads.bool b).map bool)
  | integer i, levels, _ => by
    have hback : i.toUInt64.toNat.toUInt64.toInt64 = i := by simp
    have hnumber : Reads (Wire.Decoder.number 8) _ 8 _ := Reads.number i.toUInt64.toNat_lt
    have h := hnumber.map fun n => integer n.toUInt64.toInt64
    rw [hback] at h
    unfold decodeWithin
    exact Reads.tagged (k := 2) h
  | text s, levels, _ => by
    unfold decodeWithin
    exact Reads.tagged (k := 3) ((Reads.text s).map text)
  | bytes b, levels, _ => by
    unfold decodeWithin
    exact Reads.tagged (k := 4) ((Reads.byteString b).map bytes)
  | list items, 0, h => by simp [nesting] at h
  | list items, levels + 1, h => by
    have hsize : 0 < elementSize := by decide
    have hitems := (Reads.list hsize (reads_of_mem items levels (by simpa [nesting] using h))).map list
    rw [encode, List.append_assoc, encodeAll_eq, need, needAll_eq, Nat.add_assoc 4 8]
    unfold decodeWithin
    exact Reads.tagged (k := 5) hitems
  | link n, levels, _ => by
    unfold decodeWithin
    exact Reads.tagged (k := 6) (n.reads.map link)

theorem reads_of_mem : ∀ (os : List Object) (levels : Nat), nestingAll os ≤ levels →
    ∀ o ∈ os, Reads (decodeWithin levels) o.encode o.need o
  | [], _, _ => by simp
  | a :: os, levels, h => by
    rw [nestingAll] at h
    have ha := reads a levels (by omega)
    have hos := reads_of_mem os levels (by omega)
    intro o ho
    rcases List.mem_cons.mp ho with rfl | ho
    · exact ha
    · exact hos o ho
end

end Object

/-! ## Faults, bindings and classes -/

namespace NamingFault

theorem reads (f : NamingFault) : Reads NamingFault.decode f.encode f.encode.length f := by
  unfold NamingFault.decode
  cases f with
  | nameNotFound n =>
    exact (Reads.tagged (k := 0) ((Reads.text n).map nameNotFound)).mono (by simp [encode])
  | nameAlreadyBound n =>
    exact (Reads.tagged (k := 1) ((Reads.text n).map nameAlreadyBound)).mono (by simp [encode])
  | invalidName n reason =>
    rw [encode, List.append_assoc]
    exact (Reads.tagged (k := 2)
      ((Reads.text n).bind ((Reads.text reason).map (invalidName n)))).mono (by simp)
  | notContext n =>
    exact (Reads.tagged (k := 3) ((Reads.text n).map notContext)).mono (by simp [encode])
  | contextNotEmpty n =>
    exact (Reads.tagged (k := 4) ((Reads.text n).map contextNotEmpty)).mono (by simp [encode])
  | internal m =>
    exact (Reads.tagged (k := 5) ((Reads.text m).map internal)).mono (by simp [encode])
  | other m =>
    exact (Reads.tagged (k := 6) ((Reads.text m).map other)).mono (by simp [encode])

end NamingFault

namespace Binding

/-- The most that is claimed while a binding is read. -/
def need (b : Binding Object) : Nat :=
  (Wire.encodeText b.name).length + ((Wire.encodeText b.className).length + b.value.need)

theorem reads {b : Binding Object} (h : b.value.nesting ≤ Wire.maxNesting) :
    Reads Binding.decode b.encode b.need b := by
  have hvalue := (b.value.reads Wire.maxNesting h).map (Binding.mk b.name b.className)
  rw [encode, List.append_assoc]
  unfold Binding.decode
  exact ((Reads.text b.name).bind ((Reads.text b.className).bind hvalue)).mono
    (by unfold need; omega)

end Binding

theorem NameClass.reads (p : NameClass) : Reads NameClass.decode p.encode p.encode.length p := by
  unfold NameClass.decode NameClass.encode
  exact ((Reads.text p.name).bind ((Reads.text p.className).map (NameClass.mk p.name))).mono
    (by simp)

/-! ## Values -/

namespace Wire.Value

/-- The most that is claimed while a value is read. -/
def need : Value → Nat
  | name n => 4 + n.need
  | object o => 4 + o.need
  | fault f => 4 + f.encode.length
  | binding b => 4 + b.need
  | nameClass p => 4 + p.encode.length

/-- The deepest nesting of lists in a value. -/
def nesting : Value → Nat
  | object o => o.nesting
  | binding b => b.value.nesting
  | _ => 0

/-- The value is within the limits of reading. -/
def Fits (v : Value) : Prop := v.nesting ≤ maxNesting ∧ v.need ≤ budget

instance (v : Value) : Decidable v.Fits := inferInstanceAs (Decidable (_ ∧ _))

theorem reads {v : Value} (h : v.nesting ≤ maxNesting) : Reads decode v.encode v.need v := by
  unfold decode
  cases v with
  | name n => exact Reads.tagged (k := 0) (n.reads.map name)
  | object o => exact Reads.tagged (k := 1) ((o.reads maxNesting h).map object)
  | fault f => exact Reads.tagged (k := 2) (f.reads.map fault)
  | binding b => exact Reads.tagged (k := 3) ((Binding.reads h).map binding)
  | nameClass p => exact Reads.tagged (k := 4) (p.reads.map nameClass)

theorem read_encode {v : Value} (h : v.Fits) (rest : Bytes) :
    read (v.encode ++ rest) = .ok (v, rest) := by
  have hdecode := reads h.1 rest 0 (by simpa using h.2)
  rw [read, Decoder.run, hdecode]

end Wire.Value

end NameDirectory
