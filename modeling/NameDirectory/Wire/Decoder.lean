import NameDirectory.Text.Quoted
import NameDirectory.Text.Utf8

/-!
# Reading values from bytes

Numbers are big-endian and of fixed width; a container starts with the count of
its elements in eight bytes.  While a value is read, a counter of claimed bytes
is kept: a number claims its width, a container the room of all its elements as
soon as their count is known, and the room of an element is given back before
the element itself is read.  The counter may never pass `budget`, so no announced
count reserves more than that.
-/

namespace NameDirectory.Wire

/-- The largest packet, and the most bytes claimed at a time. -/
def budget : Nat := 16777216

/-- Why bytes are not the form of a value. -/
inductive DecodeFault where
  | unexpectedEnd (missing : Nat)
  | unknownVariant (kind : String) (last found : Nat)
  | invalidBool (found : Nat)
  | invalidText (fault : Text.Utf8Fault)
  | nestedTooDeeply
  | overBudget
  deriving DecidableEq, Repr

namespace DecodeFault

def describe : DecodeFault → String
  | unexpectedEnd n => Text.record "UnexpectedEnd" [("additional", toString n)] false
  | unknownVariant kind last found =>
    Text.record "UnexpectedVariant"
      [("type_name", Text.quoted kind),
        ("allowed", Text.record "Range" [("min", "0"), ("max", toString last)] false),
        ("found", toString found)] false
  | invalidBool b => "InvalidBooleanValue(" ++ toString b ++ ")"
  | invalidText f =>
    let length := match f.errorLength with
      | some n => "Some(" ++ toString n ++ ")"
      | none => "None"
    Text.record "Utf8"
      [("inner", Text.record "Utf8Error"
        [("valid_up_to", toString f.validUpTo), ("error_len", length)] false)] false
  | nestedTooDeeply => "Other(\"lists nested too deeply\")"
  | overBudget => "LimitExceeded"

end DecodeFault

/-- The bytes still to be read and the count of claimed ones. -/
structure Cursor where
  rest : Bytes
  claimed : Nat
  deriving Repr

abbrev Decoder (α : Type) := StateT Cursor (Except DecodeFault) α

namespace Decoder

def claim (n : Nat) : Decoder Unit := fun c =>
  if c.claimed + n ≤ budget then .ok ((), { c with claimed := c.claimed + n })
  else .error .overBudget

def take (n : Nat) : Decoder Bytes := fun c =>
  let head := c.rest.take n
  if head.length < n then .error (.unexpectedEnd (n - head.length))
  else .ok (head, { c with rest := c.rest.drop n })

theorem take_append {bytes : Bytes} (rest : Bytes) (claimed : Nat) :
    take bytes.length ⟨bytes ++ rest, claimed⟩ = .ok (bytes, ⟨rest, claimed⟩) := by
  simp [take]

/-- The number whose big-endian form the bytes are. -/
def ofBigEndian (bytes : Bytes) : Nat := bytes.foldl (fun n b => 256 * n + b.toNat) 0

/-- A number of `width` bytes. -/
def number (width : Nat) : Decoder Nat := do
  claim width
  return ofBigEndian (← take width)

def bool : Decoder Bool := do
  match ← number 1 with
  | 0 => return false
  | 1 => return true
  | found => throw (.invalidBool found)

/-- The count that opens a container of elements of `size` bytes. -/
def count (size : Nat) : Decoder Nat := do
  let n ← number 8
  claim (n * size)
  return n

def byteString : Decoder Bytes := do
  take (← count 1)

def text : Decoder String := do
  match Text.ofUtf8 (← byteString) with
  | .ok s => return s
  | .error fault => throw (.invalidText fault)

/-- Read `n` elements of `size` bytes with `d`, after those in `done`, which are in reverse. -/
def elements {α : Type} (size : Nat) (d : Decoder α) : Nat → List α → Decoder (List α)
  | 0, done => pure done.reverse
  | n + 1, done => fun c =>
    match d { c with claimed := c.claimed - size } with
    | .ok (a, c') => elements size d n (a :: done) c'
    | .error fault => .error fault

def list {α : Type} (size : Nat) (d : Decoder α) : Decoder (List α) := do
  elements size d (← count size) []

/-- The variant of `kind` to be read next, the last of which is `last`. -/
def variant (kind : String) (last : Nat) : Decoder Nat := do
  let found ← number 4
  if found ≤ last then return found else throw (.unknownVariant kind last found)

/-- Read one value from the front of `bytes` with nothing claimed yet, and what is left. -/
def run {α : Type} (d : Decoder α) (bytes : Bytes) : Except DecodeFault (α × Bytes) :=
  match d ⟨bytes, 0⟩ with
  | .ok (a, c) => .ok (a, c.rest)
  | .error fault => .error fault

end Decoder

end NameDirectory.Wire
