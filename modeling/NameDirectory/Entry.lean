import NameDirectory.Object

/-!
# Entries, bindings and faults of naming

What a directory answers with: the entry a name stands for, the bindings of a
context, or the fault that kept it from answering.
-/

namespace NameDirectory

/-- What a name stands for: an object, or a context known by its name. -/
inductive Entry where
  | object (value : Object)
  | context (name : Name)
  deriving DecidableEq, Repr, Inhabited

namespace Entry

def className : Entry → String
  | object o => o.className
  | context _ => Object.contextClass

def object? : Entry → Option Object
  | object o => some o
  | context _ => none

def describe : Entry → String
  | object o => "Object(" ++ o.describe ++ ")"
  | context n => "Context(" ++ n.describe ++ ")"

end Entry

/-- A bound name with the class of its value. -/
structure NameClass where
  name : String
  className : String
  deriving DecidableEq, Repr

def NameClass.describe (p : NameClass) : String :=
  Text.record "NameClassPair"
    [("name", Text.quoted p.name), ("class_name", Text.quoted p.className)] false

/-- A bound name with its value and the value's class. -/
structure Binding (α : Type) where
  name : String
  className : String
  value : α
  deriving DecidableEq, Repr

def Binding.ofEntry (name : String) (e : Entry) : Binding Entry := ⟨name, e.className, e⟩

def Binding.describe {α : Type} (value : α → String) (b : Binding α) : String :=
  Text.record "Binding"
    [("name", Text.quoted b.name), ("class_name", Text.quoted b.className),
      ("value", value b.value)] false

/-- Why a directory refused; names are kept in their written form. -/
inductive NamingFault where
  | nameNotFound (name : String)
  | nameAlreadyBound (name : String)
  | invalidName (name reason : String)
  | notContext (name : String)
  | contextNotEmpty (name : String)
  | internal (message : String)
  | other (message : String)
  deriving DecidableEq, Repr

namespace NamingFault

def message : NamingFault → String
  | nameNotFound n => "name not found: '" ++ n ++ "'"
  | nameAlreadyBound n => "name already bound: '" ++ n ++ "'"
  | invalidName n reason => "invalid name '" ++ n ++ "', " ++ reason
  | notContext n => "'" ++ n ++ "' is not a context"
  | contextNotEmpty n => "context '" ++ n ++ "' is not empty"
  | internal m => "internal server error: " ++ m
  | other m => m

/-- The fault's kind and fields. -/
def describe : NamingFault → String
  | nameNotFound n => field "NameNotFound" n
  | nameAlreadyBound n => field "NameAlreadyBound" n
  | invalidName n reason =>
    Text.record "InvalidName" [("name", Text.quoted n), ("reason", Text.quoted reason)] false
  | notContext n => field "NotContext" n
  | contextNotEmpty n => field "ContextNotEmpty" n
  | internal m => Text.record "Internal" [("message", Text.quoted m)] false
  | other m => Text.record "Other" [("message", Text.quoted m)] false
where
  field (kind name : String) : String := Text.record kind [("name", Text.quoted name)] false

end NamingFault

end NameDirectory
