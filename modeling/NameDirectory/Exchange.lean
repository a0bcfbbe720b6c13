import NameDirectory.Frame

/-!
# Requests and replies as frames

Each operation has a form for its request, which the server reads, and one for
its outcome, which the client reads.  A context travels by name only: where the
outcome is one, the client knows it by the name it asked with.
-/

namespace NameDirectory

/-! ## Requests -/

namespace Request

def writeArguments : Request → Bytes
  | bind n o | rebind n o => Frame.writeName n ++ Frame.writeObject o
  | rename n m => Frame.writeName n ++ Frame.writeName m
  | r => Frame.writeName r.name

def encode (number : Int32) (r : Request) : Bytes :=
  Frame.writeHeader ⟨r.operation.code, number⟩ ++ r.writeArguments

/-- The name that is kept until the response comes, for operations that may answer with a context. -/
def captured? : Request → Option Name
  | lookup n | listBindings n | createSubcontext n | lookupLink n => some n
  | _ => none

/-- A name argument; its tag only has to be one. -/
def readName : Frame.Reader Name := do
  let _ ← Frame.Reader.tag
  Frame.Reader.name

/-- An object argument; its tag only has to be one. -/
def readObject : Frame.Reader Object := do
  let _ ← Frame.Reader.tag
  Frame.Reader.object

/-- The request for an operation; what follows its last argument is ignored. -/
def read : Operation → Frame.Reader Request
  | .lookup => return lookup (← readName)
  | .bind => return bind (← readName) (← readObject)
  | .rebind => return rebind (← readName) (← readObject)
  | .list => return list (← readName)
  | .listBindings => return listBindings (← readName)
  | .unbind => return unbind (← readName)
  | .rename => return rename (← readName) (← readName)
  | .createSubcontext => return createSubcontext (← readName)
  | .destroySubcontext => return destroySubcontext (← readName)
  | .lookupLink => return lookupLink (← readName)

end Request

/-! ## Outcomes, as the server writes them -/

namespace Reply

def writeCount (n : Nat) : Except TransportFault Bytes :=
  if n < 4294967296 then .ok (Frame.writeCount n.toUInt32)
  else .error (.violation .tooManyResults)

def writeBinding (b : Binding Entry) : Except TransportFault Bytes :=
  match b.value with
  | .context _ => (Frame.writeText b.name).map (Tag.context.code :: ·)
  | .object o => .ok (Frame.writeValue .binding (.binding ⟨b.name, b.className, o⟩))

def writePair (p : NameClass) : Bytes := Frame.writeValue .object (.nameClass p)

def write (op : Operation) : Reply → Except TransportFault Bytes
  | void => .ok [Tag.void.code]
  | entry (.context _) => .ok [Tag.context.code]
  | entry (.object o) =>
    .ok (Frame.writeValue (if op = .lookupLink then .binding else .object) (.object o))
  | pairs items => do
    return Tag.list.code :: (← writeCount items.length) ++ items.flatMap writePair
  | bindings items => do
    return Tag.list.code :: (← writeCount items.length) ++ (← items.mapM writeBinding).flatten

end Reply

def writeOutcome (op : Operation) : Except NamingFault Reply → Except TransportFault Bytes
  | .ok reply => (reply.write op).map (Frame.success :: ·)
  | .error fault => .ok (Frame.failure :: Frame.writeValue .exception (.fault fault))

/-! ## Outcomes, as the client reads them -/

namespace Outcome

abbrev Reader (α : Type) := ExceptT ClientFault (StateM Bytes) α

namespace Reader

def ofFrame {α : Type} (r : Frame.Reader α) : Reader α := ExceptT.adapt ClientFault.transport r

def violate {α : Type} (v : Violation) : Reader α := throw (.transport (.violation v))

def unexpected {α : Type} (tag : Tag) : Reader α := violate (.unexpectedParameter tag.label)

/-- The byte that tells success from failure; a failure is thrown as the fault it carries. -/
def outcome : Reader Unit := do
  let b ← ofFrame Frame.Reader.byte
  if b = Frame.success then return
  if b ≠ Frame.failure then violate .unknownOutcome
  match ← ofFrame Frame.Reader.tag with
  | .exception => throw (.naming (← ofFrame Frame.Reader.exception))
  | tag => unexpected tag

/-- The name that was asked with, which a context is known by. -/
def requested (captured : Option Name) : Reader Name :=
  match captured with
  | some n => return n
  | none => violate .unnamedContext

/-- An entry whose object stands after `objectTag`. -/
def entry (objectTag : Tag) (captured : Option Name) : Reader Reply := do
  outcome
  let tag ← ofFrame Frame.Reader.tag
  if tag = objectTag then return .entry (.object (← ofFrame Frame.Reader.object))
  else if tag = .context then return .entry (.context (← requested captured))
  else unexpected tag

def context (captured : Option Name) : Reader Reply := do
  outcome
  match ← ofFrame Frame.Reader.tag with
  | .context => return .entry (.context (← requested captured))
  | tag => unexpected tag

/-- Nothing, for which a tag may or may not stand. -/
def void : Reader Reply := do
  outcome
  if !(← get).isEmpty then
    let _ ← ofFrame Frame.Reader.tag
  return .void

/-- `n` elements after those in `done`, which are in reverse; the first fault ends the reading. -/
def elements {α : Type} (r : Reader α) : Nat → List α → Reader (List α)
  | 0, done => pure done.reverse
  | n + 1, done => fun rest =>
    match r rest with
    | (.ok a, rest') => elements r n (a :: done) rest'
    | (.error fault, rest') => (.error fault, rest')

/-- The elements of a list after its tag and their count. -/
def list {α : Type} (r : Reader α) : Reader (List α) := do
  match ← ofFrame Frame.Reader.tag with
  | .list => elements r (← ofFrame Frame.Reader.count).toNat []
  | tag => unexpected tag

def pair : Reader NameClass := do
  let _ ← ofFrame Frame.Reader.tag
  ofFrame Frame.Reader.nameClass

def binding (captured : Option Name) : Reader (Binding Entry) := do
  match ← ofFrame Frame.Reader.tag with
  | .binding =>
    let b ← ofFrame Frame.Reader.binding
    return ⟨b.name, b.className, .object b.value⟩
  | .context =>
    let k ← ofFrame Frame.Reader.text
    return Binding.ofEntry k (.context ((← requested captured).child k))
  | tag => unexpected tag

end Reader

def read (op : Operation) (captured : Option Name) : Reader Reply :=
  match op with
  | .lookup => Reader.entry .object captured
  | .lookupLink => Reader.entry .binding captured
  | .createSubcontext => Reader.context captured
  | .list => do
    Reader.outcome
    return .pairs (← Reader.list Reader.pair)
  | .listBindings => do
    Reader.outcome
    return .bindings (← Reader.list (Reader.binding captured))
  | .bind | .rebind | .unbind | .rename | .destroySubcontext => Reader.void

/-- Read a reply from the bytes after the header, and what is left of them. -/
def decode (op : Operation) (captured : Option Name) (bytes : Bytes) :
    Except ClientFault Reply × Bytes :=
  (ExceptT.run (read op captured)).run bytes

end Outcome

inductive Response where
  | unknownOperation (code : UInt8)
  | reply (header : Header) (result : Except ClientFault Reply) (rest : Bytes)

/-- Take a response apart, with the name that was kept from its request. -/
def Response.decode (frame : Bytes) (captured : Option Name) : Except TransportFault Response :=
  match Frame.Reader.header.on frame with
  | (.error fault, _) => .error fault
  | (.ok header, rest) =>
    match Operation.ofCode? header.code with
    | none => .ok (.unknownOperation header.code)
    | some op =>
      let (result, rest) := Outcome.decode op captured rest
      .ok (.reply header result rest)

end NameDirectory
