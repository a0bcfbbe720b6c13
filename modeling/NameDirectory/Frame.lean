import NameDirectory.Fault

/-!
# Frames

A frame is one message of the naming protocol: the operation's code, the number
that pairs a response with its request, and tagged values.
-/

namespace NameDirectory

/-- The byte before a value that says what it is. -/
inductive Tag where
  | name | object | exception | void | binding | context | list
  deriving DecidableEq, Repr

namespace Tag

def all : List Tag := [name, object, exception, void, binding, context, list]

def code : Tag → UInt8
  | name => 0x00
  | object => 0x01
  | exception => 0x02
  | void => 0x03
  | binding => 0x04
  | context => 0x05
  | list => 0x06

def label : Tag → String
  | name => "Name"
  | object => "Object"
  | exception => "Exception"
  | void => "Void"
  | binding => "Binding"
  | context => "Context"
  | list => "List"

def ofCode (b : UInt8) : Except TransportFault Tag :=
  match all.find? (·.code == b) with
  | some tag => .ok tag
  | none => .error (.violation (.unknownTag b))

theorem ofCode_code (tag : Tag) : ofCode tag.code = .ok tag := by cases tag <;> rfl

end Tag

/-- The opening of every frame. -/
structure Header where
  code : UInt8
  /-- Pairs a response with its request; nobody waits for a response to number 0. -/
  number : Int32
  deriving DecidableEq, Repr

namespace Frame

/-- The byte after the header of a response. -/
def success : UInt8 := 0x00
def failure : UInt8 := 0x01

/-! ## Writing -/

def writeHeader (h : Header) : Bytes :=
  h.code :: Wire.bigEndian 4 h.number.toUInt32.toNat

def writeCount (n : UInt32) : Bytes := Wire.bigEndian 4 n.toNat

/-- A text after its length in two bytes. -/
def writeText (s : String) : Except TransportFault Bytes :=
  let bytes := Text.utf8 s
  if bytes.length < 65536 then .ok (Wire.bigEndian 2 bytes.length ++ bytes)
  else .error (.violation .textTooLong)

def writeValue (tag : Tag) (v : Wire.Value) : Bytes := tag.code :: v.encode

def writeName (n : Name) : Bytes := writeValue .name (.name n)

def writeObject (o : Object) : Bytes := writeValue .object (.object o)

/-! ## Reading -/

/-- Reads from the front of a frame; what was read before a fault stays read. -/
abbrev Reader (α : Type) := ExceptT TransportFault (StateM Bytes) α

namespace Reader

def violate {α : Type} (v : Violation) : Reader α := throw (.violation v)

/-- The next `n` bytes; if there are fewer, none is read. -/
def take (n : Nat) : Reader Bytes := do
  let head := (← get).take n
  if head.length < n then violate .truncatedFrame
  modify (·.drop n)
  return head

def number (width : Nat) : Reader Nat := return Wire.Decoder.ofBigEndian (← take width)

def byte : Reader UInt8 := return (← number 1).toUInt8

def count : Reader UInt32 := return (← number 4).toUInt32

def header : Reader Header := do
  let code ← byte
  return ⟨code, (← number 4).toUInt32.toInt32⟩

/-- A text after its length, which stays read if the text does not follow. -/
def text : Reader String := do
  let bytes ← take (← number 2)
  match Text.ofUtf8? bytes with
  | some s => return s
  | none => violate .notText

def tag : Reader Tag := do
  match Tag.ofCode (← byte) with
  | .ok tag => return tag
  | .error fault => throw fault

/-- Any value; one that cannot be read is left unread. -/
def value : Reader Wire.Value := do
  match Wire.Value.read (← get) with
  | .ok (v, rest) =>
    set rest
    return v
  | .error fault => throw (.ofDecode fault)

/-- A value of the kind that `select` picks out; one of another kind is read all the same. -/
def valueAs {α : Type} (what : String) (select : Wire.Value → Option α) : Reader α := do
  let v ← value
  match select v with
  | some a => return a
  | none => violate (.unexpectedValue what v)

def name : Reader Name := valueAs "a name" fun
  | .name n => some n
  | _ => none

def object : Reader Object := valueAs "an object" fun
  | .object o => some o
  | _ => none

def exception : Reader NamingFault := valueAs "an exception" fun
  | .fault f => some f
  | _ => none

def binding : Reader (Binding Object) := valueAs "a binding" fun
  | .binding b => some b
  | _ => none

def nameClass : Reader NameClass := valueAs "a name/class pair" fun
  | .nameClass p => some p
  | _ => none

/-- Run a reader on bytes. -/
def on {α : Type} (r : Reader α) (bytes : Bytes) : Except TransportFault α × Bytes :=
  (ExceptT.run r).run bytes

end Reader

end Frame

end NameDirectory
