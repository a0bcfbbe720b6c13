import NameDirectory.Entry
import NameDirectory.Wire.Decoder
import NameDirectory.Wire.Encoder

/-!
# Values that travel

The five kinds of value a message carries, their bytes and how they are read
back.  Lists of objects are read only to a fixed depth.
-/

namespace NameDirectory

namespace Wire

/-- The deepest nesting of lists that is read. -/
def maxNesting : Nat := 64

end Wire

/-! ## Names -/

namespace Name

/-- Room that one component claims. -/
def componentSize : Nat := 24

def encode (n : Name) : Bytes := Wire.encodeList Wire.encodeText n.components

def decode : Wire.Decoder Name := do
  return ⟨← Wire.Decoder.list componentSize Wire.Decoder.text⟩

end Name

/-! ## Objects -/

namespace Object

/-- Room that one element of a list claims. -/
def elementSize : Nat := 32

mutual
def encode : Object → Bytes
  | null => Wire.bigEndian 4 0
  | bool b => Wire.bigEndian 4 1 ++ Wire.encodeBool b
  | integer i => Wire.bigEndian 4 2 ++ Wire.bigEndian 8 i.toUInt64.toNat
  | text s => Wire.bigEndian 4 3 ++ Wire.encodeText s
  | bytes b => Wire.bigEndian 4 4 ++ Wire.encodeByteString b
  | list items => Wire.bigEndian 4 5 ++ Wire.bigEndian 8 items.length ++ encodeAll items
  | link n => Wire.bigEndian 4 6 ++ n.encode

def encodeAll : List Object → Bytes
  | [] => []
  | o :: os => o.encode ++ encodeAll os
end

/-- Read an object in which lists may be nested `levels` deep. -/
def decodeWithin (levels : Nat) : Wire.Decoder Object := do
  match ← Wire.Decoder.variant "Object" 6 with
  | 0 => return .null
  | 1 => return .bool (← Wire.Decoder.bool)
  | 2 => return .integer (← Wire.Decoder.number 8).toUInt64.toInt64
  | 3 => return .text (← Wire.Decoder.text)
  | 4 => return .bytes (← Wire.Decoder.byteString)
  | 5 =>
    match levels with
    | 0 => throw .nestedTooDeeply
    | levels + 1 => return .list (← Wire.Decoder.list elementSize (decodeWithin levels))
  | _ => return .link (← Name.decode)

def decode : Wire.Decoder Object := decodeWithin Wire.maxNesting

end Object

/-! ## Faults, bindings and classes -/

namespace NamingFault

def encode : NamingFault → Bytes
  | nameNotFound n => Wire.bigEndian 4 0 ++ Wire.encodeText n
  | nameAlreadyBound n => Wire.bigEndian 4 1 ++ Wire.encodeText n
  | invalidName n reason => Wire.bigEndian 4 2 ++ Wire.encodeText n ++ Wire.encodeText reason
  | notContext n => Wire.bigEndian 4 3 ++ Wire.encodeText n
  | contextNotEmpty n => Wire.bigEndian 4 4 ++ Wire.encodeText n
  | internal m => Wire.bigEndian 4 5 ++ Wire.encodeText m
  | other m => Wire.bigEndian 4 6 ++ Wire.encodeText m

def decode : Wire.Decoder NamingFault := do
  match ← Wire.Decoder.variant "NamingError" 6 with
  | 0 => return .nameNotFound (← Wire.Decoder.text)
  | 1 => return .nameAlreadyBound (← Wire.Decoder.text)
  | 2 => return .invalidName (← Wire.Decoder.text) (← Wire.Decoder.text)
  | 3 => return .notContext (← Wire.Decoder.text)
  | 4 => return .contextNotEmpty (← Wire.Decoder.text)
  | 5 => return .internal (← Wire.Decoder.text)
  | _ => return .other (← Wire.Decoder.text)

end NamingFault

namespace Binding

def encode (b : Binding Object) : Bytes :=
  Wire.encodeText b.name ++ Wire.encodeText b.className ++ b.value.encode

def decode : Wire.Decoder (Binding Object) := do
  return ⟨← Wire.Decoder.text, ← Wire.Decoder.text, ← Object.decode⟩

end Binding

namespace NameClass

def encode (p : NameClass) : Bytes := Wire.encodeText p.name ++ Wire.encodeText p.className

def decode : Wire.Decoder NameClass := do
  return ⟨← Wire.Decoder.text, ← Wire.Decoder.text⟩

end NameClass

/-! ## Values -/

namespace Wire

inductive Value where
  | name (value : Name)
  | object (value : Object)
  | fault (value : NamingFault)
  | binding (value : Binding Object)
  | nameClass (value : NameClass)
  deriving DecidableEq, Repr

namespace Value

def encode : Value → Bytes
  | name n => bigEndian 4 0 ++ n.encode
  | object o => bigEndian 4 1 ++ o.encode
  | fault f => bigEndian 4 2 ++ f.encode
  | binding b => bigEndian 4 3 ++ b.encode
  | nameClass p => bigEndian 4 4 ++ p.encode

def decode : Decoder Value := do
  match ← Decoder.variant "Marshalled" 4 with
  | 0 => return .name (← Name.decode)
  | 1 => return .object (← Object.decode)
  | 2 => return .fault (← NamingFault.decode)
  | 3 => return .binding (← Binding.decode)
  | _ => return .nameClass (← NameClass.decode)

/-- Read one value from the front of `bytes`, and what is left. -/
def read (bytes : Bytes) : Except DecodeFault (Value × Bytes) := decode.run bytes

/-- Read one value, and the count of bytes it took. -/
def readCounted (bytes : Bytes) : Except DecodeFault (Value × Nat) :=
  (read bytes).map fun (v, rest) => (v, bytes.length - rest.length)

def describe : Value → String
  | name n => "Name(" ++ n.describe ++ ")"
  | object o => "Object(" ++ o.describe ++ ")"
  | fault f => "Exception(" ++ f.describe ++ ")"
  | binding b => "Binding(" ++ b.describe Object.describe ++ ")"
  | nameClass p => "NameClassPair(" ++ p.describe ++ ")"

end Value

end Wire

end NameDirectory
