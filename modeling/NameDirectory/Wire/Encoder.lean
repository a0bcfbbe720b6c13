import NameDirectory.Wire.Decoder

/-!
# Writing values as bytes

The counterpart of reading: numbers big-endian in a fixed width, a container as
the count of its elements in eight bytes and the elements.  Writing knows no limit.
A number that fits its width is read back from what is written.
-/

namespace NameDirectory.Wire

/-- The last `width` base-256 digits of `n`, highest first. -/
def bigEndian : Nat → Nat → Bytes
  | 0, _ => []
  | width + 1, n => (n / Nat.pow 256 width).toUInt8 :: bigEndian width n

@[simp] theorem length_bigEndian (width n : Nat) : (bigEndian width n).length = width := by
  induction width with
  | zero => rfl
  | succ w ih => simp [bigEndian, ih]

theorem foldl_bigEndian (width n start : Nat) :
    (bigEndian width n).foldl (fun a b => 256 * a + b.toNat) start =
      start * Nat.pow 256 width + n % Nat.pow 256 width := by
  induction width generalizing start with
  | zero => simp [bigEndian, Nat.mod_one]
  | succ w ih =>
    have hdigit : (n / Nat.pow 256 w).toUInt8.toNat = n / Nat.pow 256 w % 256 := by simp
    have hmod : n % Nat.pow 256 (w + 1) =
        n % Nat.pow 256 w + Nat.pow 256 w * (n / Nat.pow 256 w % 256) := by
      simpa [Nat.pow_succ] using Nat.mod_mul (x := n) (a := Nat.pow 256 w) (b := 256)
    simp only [bigEndian, List.foldl_cons, ih, hdigit, hmod]
    simp only [Nat.pow_eq, Nat.pow_succ, Nat.add_mul]
    grind

@[simp] theorem ofBigEndian_bigEndian {width n : Nat} (h : n < Nat.pow 256 width) :
    Decoder.ofBigEndian (bigEndian width n) = n := by
  have hfold := foldl_bigEndian width n 0
  rw [Nat.mod_eq_of_lt h] at hfold
  simpa [Decoder.ofBigEndian] using hfold

/-! ### Bytes as digits -/

theorem foldl_eq_ofBigEndian (bytes : Bytes) (start : Nat) :
    bytes.foldl (fun n b => 256 * n + b.toNat) start =
      start * Nat.pow 256 bytes.length + Decoder.ofBigEndian bytes := by
  induction bytes generalizing start with
  | nil => simp [Decoder.ofBigEndian]
  | cons b bytes ih =>
    have hpow : Nat.pow 256 (bytes.length + 1) = 256 * Nat.pow 256 bytes.length := Nat.mul_comm _ _
    have hzero : Decoder.ofBigEndian (b :: bytes) =
        (256 * 0 + b.toNat) * Nat.pow 256 bytes.length + Decoder.ofBigEndian bytes := ih _
    rw [List.foldl_cons, ih, List.length_cons, hpow, hzero]
    simp only [Nat.add_mul, ← Nat.mul_assoc, Nat.mul_comm start 256]
    omega

theorem ofBigEndian_cons (b : UInt8) (bytes : Bytes) :
    Decoder.ofBigEndian (b :: bytes) =
      b.toNat * Nat.pow 256 bytes.length + Decoder.ofBigEndian bytes := by
  have h := foldl_eq_ofBigEndian bytes (256 * 0 + b.toNat)
  simpa [Decoder.ofBigEndian] using h

theorem ofBigEndian_lt (bytes : Bytes) :
    Decoder.ofBigEndian bytes < Nat.pow 256 bytes.length := by
  induction bytes with
  | nil => simp [Decoder.ofBigEndian]
  | cons b bytes ih =>
    have hb : b.toNat + 1 ≤ 256 := b.toNat_lt
    have hmul := Nat.mul_le_mul_right (Nat.pow 256 bytes.length) hb
    have hpow : Nat.pow 256 (bytes.length + 1) = 256 * Nat.pow 256 bytes.length := Nat.mul_comm _ _
    rw [Nat.add_mul, Nat.one_mul] at hmul
    rw [ofBigEndian_cons, List.length_cons, hpow]
    omega

/-- Only the last digits count. -/
theorem bigEndian_add_mul (width n k : Nat) :
    bigEndian width (n + k * Nat.pow 256 width) = bigEndian width n := by
  induction width generalizing k with
  | zero => rfl
  | succ w ih =>
    have hpos : 0 < Nat.pow 256 w := Nat.pow_pos (by decide)
    have hsplit : k * Nat.pow 256 (w + 1) = k * 256 * Nat.pow 256 w := by
      rw [Nat.mul_assoc, Nat.mul_comm 256]
      rfl
    have hdigit : ((n + k * 256 * Nat.pow 256 w) / Nat.pow 256 w).toUInt8 =
        (n / Nat.pow 256 w).toUInt8 := by
      rw [Nat.add_mul_div_right _ _ hpos]
      apply UInt8.toNat_inj.mp
      simp
    rw [hsplit, bigEndian, bigEndian, ih, hdigit]

/-- Bytes are the form of the number they are read as. -/
theorem bigEndian_ofBigEndian (bytes : Bytes) :
    bigEndian bytes.length (Decoder.ofBigEndian bytes) = bytes := by
  induction bytes with
  | nil => rfl
  | cons b bytes ih =>
    have hlt := ofBigEndian_lt bytes
    have hpos : 0 < Nat.pow 256 bytes.length := Nat.pow_pos (by decide)
    have hdigit : (b.toNat * Nat.pow 256 bytes.length + Decoder.ofBigEndian bytes) /
        Nat.pow 256 bytes.length = b.toNat := by
      rw [Nat.add_comm, Nat.add_mul_div_right _ _ hpos, Nat.div_eq_of_lt hlt, Nat.zero_add]
    rw [List.length_cons, bigEndian, ofBigEndian_cons, hdigit, Nat.add_comm, bigEndian_add_mul, ih]
    simp

/-! ### Values -/

def encodeBool (b : Bool) : Bytes := [if b then 1 else 0]

def encodeByteString (b : Bytes) : Bytes := bigEndian 8 b.length ++ b

def encodeText (s : String) : Bytes := encodeByteString (Text.utf8 s)

def encodeList {α : Type} (encode : α → Bytes) (items : List α) : Bytes :=
  bigEndian 8 items.length ++ items.flatMap encode

end NameDirectory.Wire
