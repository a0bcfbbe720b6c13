import NameDirectory.Entry

/-!
# Requests and replies

The ten operations on a directory, what each is asked with and what it answers.
-/

namespace NameDirectory

inductive Operation where
  | lookup | bind | rebind | list | listBindings | unbind | rename
  | createSubcontext | destroySubcontext | lookupLink
  deriving DecidableEq, Repr, Inhabited

namespace Operation

def all : List Operation :=
  [lookup, bind, rebind, list, listBindings, unbind, rename, createSubcontext,
    destroySubcontext, lookupLink]

/-- The byte that stands for the operation in a message. -/
def code : Operation → UInt8
  | lookup => 0x01
  | bind => 0x02
  | rebind => 0x03
  | list => 0x04
  | listBindings => 0x05
  | unbind => 0x06
  | rename => 0x07
  | createSubcontext => 0x08
  | destroySubcontext => 0x09
  | lookupLink => 0x10

def ofCode? (b : UInt8) : Option Operation := all.find? (·.code == b)

theorem ofCode?_code (op : Operation) : ofCode? op.code = some op := by cases op <;> rfl

/-- The operation's name in error texts. -/
def title : Operation → String
  | lookup => "lookup"
  | bind => "bind"
  | rebind => "rebind"
  | list => "list"
  | listBindings => "listBindings"
  | unbind => "unbind"
  | rename => "rename"
  | createSubcontext => "createSubcontext"
  | destroySubcontext => "destroySubcontext"
  | lookupLink => "lookupLink"

def label : Operation → String
  | lookup => "Lookup"
  | bind => "Bind"
  | rebind => "Rebind"
  | list => "List"
  | listBindings => "ListBindings"
  | unbind => "Unbind"
  | rename => "Rename"
  | createSubcontext => "CreateSubcontext"
  | destroySubcontext => "DestroySubcontext"
  | lookupLink => "LookupLink"

end Operation

inductive Request where
  | lookup (name : Name)
  | bind (name : Name) (object : Object)
  | rebind (name : Name) (object : Object)
  | list (name : Name)
  | listBindings (name : Name)
  | unbind (name : Name)
  | rename (name newName : Name)
  | createSubcontext (name : Name)
  | destroySubcontext (name : Name)
  | lookupLink (name : Name)
  deriving DecidableEq, Repr, Inhabited

namespace Request

def operation : Request → Operation
  | lookup _ => .lookup
  | bind _ _ => .bind
  | rebind _ _ => .rebind
  | list _ => .list
  | listBindings _ => .listBindings
  | unbind _ => .unbind
  | rename _ _ => .rename
  | createSubcontext _ => .createSubcontext
  | destroySubcontext _ => .destroySubcontext
  | lookupLink _ => .lookupLink

/-- The name that the operation is about, the old one for a renaming. -/
def name : Request → Name
  | lookup n | bind n _ | rebind n _ | list n | listBindings n | unbind n | rename n _
  | createSubcontext n | destroySubcontext n | lookupLink n => n

/-- All names of the request, in order. -/
def names : Request → List Name
  | rename n m => [n, m]
  | r => [r.name]

/-- The request with every name put beneath `base`. -/
def under (base : Name) : Request → Request
  | lookup n => lookup (base.join n)
  | bind n o => bind (base.join n) o
  | rebind n o => rebind (base.join n) o
  | list n => list (base.join n)
  | listBindings n => listBindings (base.join n)
  | unbind n => unbind (base.join n)
  | rename n m => rename (base.join n) (base.join m)
  | createSubcontext n => createSubcontext (base.join n)
  | destroySubcontext n => destroySubcontext (base.join n)
  | lookupLink n => lookupLink (base.join n)

end Request

inductive Reply where
  | void
  | entry (value : Entry)
  | pairs (items : List NameClass)
  | bindings (items : List (Binding Entry))
  deriving DecidableEq, Repr, Inhabited

namespace Reply

def describe : Reply → String
  | void => "Void"
  | entry e => "Entry(" ++ e.describe ++ ")"
  | pairs items => "Pairs([" ++ ", ".intercalate (items.map NameClass.describe) ++ "])"
  | bindings items =>
    "Bindings([" ++ ", ".intercalate (items.map (Binding.describe Entry.describe)) ++ "])"

end Reply

end NameDirectory
