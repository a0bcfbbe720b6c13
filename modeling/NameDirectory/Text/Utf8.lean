/-!
# Texts and bytes

Bytes are read as text only if they are the UTF-8 form of it.  Of other bytes
`utf8Fault?` tells where the valid part ends and how long the offending piece is.

In hexadecimal two digits stand for a byte.  Lower case is written, and either case is read.
-/

namespace NameDirectory

abbrev Bytes := List UInt8

namespace Text

/-! ## UTF-8 -/

def utf8 (s : String) : Bytes := s.toByteArray.data.toList

/-- `errorLength` is `none` when the bytes end inside a character. -/
structure Utf8Fault where
  validUpTo : Nat
  errorLength : Option Nat
  deriving DecidableEq, Repr

/-- How many bytes a character with this first byte takes, and the range of its second byte. -/
def leadByte? (b : UInt8) : Option (Nat × UInt8 × UInt8) :=
  if 0xC2 ≤ b && b ≤ 0xDF then some (2, 0x80, 0xBF)
  else if b = 0xE0 then some (3, 0xA0, 0xBF)
  else if b = 0xED then some (3, 0x80, 0x9F)
  else if 0xE1 ≤ b && b ≤ 0xEF then some (3, 0x80, 0xBF)
  else if b = 0xF0 then some (4, 0x90, 0xBF)
  else if 0xF1 ≤ b && b ≤ 0xF3 then some (4, 0x80, 0xBF)
  else if b = 0xF4 then some (4, 0x80, 0x8F)
  else none

def isContinuation (b : UInt8) : Bool := 0x80 ≤ b && b ≤ 0xBF

/-- What keeps the first bytes from being a character: `ok n` if they are one of `n` bytes,
else the length of the piece to blame, `none` at the end of the bytes. -/
def firstChar : Bytes → Except (Option Nat) Nat
  | [] => .ok 0
  | b :: rest =>
    if b < 0x80 then .ok 1
    else match leadByte? b with
      | none => .error (some 1)
      | some (width, low, high) =>
        match rest with
        | [] => .error none
        | c :: rest =>
          if !(low ≤ c && c ≤ high) then .error (some 1)
          else if width = 2 then .ok 2
          else match rest with
            | [] => .error none
            | d :: rest =>
              if !isContinuation d then .error (some 2)
              else if width = 3 then .ok 3
              else match rest with
                | [] => .error none
                | e :: _ => if isContinuation e then .ok 4 else .error (some 3)

/-- Scan with `skip` bytes of the current character left and `offset` bytes behind. -/
def scanUtf8 (skip offset : Nat) : Bytes → Option Utf8Fault
  | [] => none
  | b :: rest =>
    match skip with
    | n + 1 => scanUtf8 n (offset + 1) rest
    | 0 =>
      match firstChar (b :: rest) with
      | .ok n => scanUtf8 (n - 1) (offset + 1) rest
      | .error length => some ⟨offset, length⟩

def utf8Fault? (bytes : Bytes) : Option Utf8Fault := scanUtf8 0 0 bytes

/-- The text whose UTF-8 form the bytes are. -/
def ofUtf8? (bytes : Bytes) : Option String := String.fromUTF8? ⟨bytes.toArray⟩

def ofUtf8 (bytes : Bytes) : Except Utf8Fault String :=
  match ofUtf8? bytes with
  | some s => .ok s
  | none => .error ((utf8Fault? bytes).getD ⟨0, none⟩)

theorem ofUtf8?_utf8 (s : String) : ofUtf8? (utf8 s) = some s := by
  simp [ofUtf8?, utf8, String.fromUTF8?, s.isValidUTF8, String.fromUTF8]

theorem utf8_of_ofUtf8? {bytes : Bytes} {s : String} (h : ofUtf8? bytes = some s) :
    utf8 s = bytes := by
  unfold ofUtf8? String.fromUTF8? at h
  split at h
  · obtain rfl := Option.some.inj h; simp [utf8, String.fromUTF8]
  · simp at h

/-! ## Hexadecimal -/

/-- The value of a hexadecimal digit. -/
def hexDigit? (c : Char) : Option Nat :=
  if c.isDigit then some (c.toNat - '0'.toNat)
  else if 'a' ≤ c && c ≤ 'f' then some (c.toNat - 'a'.toNat + 10)
  else if 'A' ≤ c && c ≤ 'F' then some (c.toNat - 'A'.toNat + 10)
  else none

/-- The lower-case digit for a number below sixteen. -/
def hexDigit (n : Nat) : Char :=
  Char.ofNat (if n < 10 then '0'.toNat + n else 'a'.toNat + (n - 10))

def hexOf (bytes : Bytes) : String :=
  String.ofList (bytes.flatMap fun b => [hexDigit (b.toNat / 16), hexDigit (b.toNat % 16)])

/-- The bytes that pairs of digits stand for. -/
def ofHex? (s : String) : Option Bytes :=
  go s.toList []
where
  go : List Char → Bytes → Option Bytes
    | [], done => some done.reverse
    | [_], _ => none
    | a :: b :: cs, done => do
      go cs ((16 * (← hexDigit? a) + (← hexDigit? b)).toUInt8 :: done)

end Text

end NameDirectory
