import NameDirectory.Shell
import NameDirectory.Tree

/-!
# Bindings a server starts with

Each is written `name=value`.  The contexts above the name are made where they are
missing, and the value replaces what is bound to the name.
-/

namespace NameDirectory

inductive SeedFault where
  | noValue (text : String)
  | noName (text : String)
  | naming (fault : NamingFault)
  deriving DecidableEq, Repr

namespace SeedFault

def message : SeedFault → String
  | noValue text => "invalid binding '" ++ text ++ "', expected name=value"
  | noName text => "invalid binding '" ++ text ++ "', empty name"
  | naming fault => fault.message

/-- The fault as a report at the end of a program shows it. -/
def describe : SeedFault → String
  | naming fault => fault.describe
  | fault => Text.quoted fault.message

end SeedFault

def readSeed (text : String) : Except SeedFault (Name × Object) :=
  match Text.splitFirst "=" text with
  | none => .error (.noValue text)
  | some (name, value) =>
    let n := Name.parse name
    if n.isRoot then .error (.noName text) else .ok (n, Shell.parseObject value)

namespace Tree

/-- Make the contexts on the way down from `n`, unless something is bound there already; a
refusal gives the tree as it was left. -/
def makeContexts (t : Tree) (n : Name) : List String → Except NamingFault Unit × Tree
  | [] => (.ok (), t)
  | k :: path =>
    let n := n.child k
    match t.createSubcontext n with
    | .ok t => makeContexts t n path
    | .error (.nameAlreadyBound _) => makeContexts t n path
    | .error fault => (.error fault, t)

def seedOne (t : Tree) (text : String) : Except SeedFault Unit × Tree :=
  match readSeed text with
  | .error fault => (.error fault, t)
  | .ok (n, o) =>
    match t.makeContexts Name.root n.components.dropLast with
    | (.error fault, t) => (.error (.naming fault), t)
    | (.ok (), t) =>
      match t.rebind n o with
      | .ok t => (.ok (), t)
      | .error fault => (.error (.naming fault), t)

/-- Install bindings in order; the first that cannot be is the fault, and those before it stay. -/
def seed (t : Tree) : List String → Except SeedFault Unit × Tree
  | [] => (.ok (), t)
  | text :: more =>
    match t.seedOne text with
    | (.ok (), t) => seed t more
    | refused => refused

end Tree

end NameDirectory
