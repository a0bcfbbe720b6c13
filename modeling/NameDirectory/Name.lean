import NameDirectory.Text.Split
import NameDirectory.Text.Quoted

/-!
# Names

A name is a path of components, written with a slash between each two of them.
The empty name stands for the root.  Reading a name trims the whole text, cuts it
at the slashes and drops empty components.
-/

namespace NameDirectory

structure Name where
  components : List String
  deriving DecidableEq, Repr, Inhabited

namespace Name

def root : Name := ⟨[]⟩

/-- The name of the given components, less the empty ones. -/
def ofComponents (components : List String) : Name :=
  ⟨components.filter (!·.isEmpty)⟩

def parse (s : String) : Name := ofComponents (Text.splitOn '/' (Text.trim s))

def text (n : Name) : String := Text.joinWith '/' n.components

def isRoot (n : Name) : Bool := n.components.isEmpty

def size (n : Name) : Nat := n.components.length

/-- `n` followed by `m`. -/
def join (n m : Name) : Name := ⟨n.components ++ m.components⟩

/-- `n` followed by the name that `s` denotes, which may have any number of components. -/
def child (n : Name) (s : String) : Name := n.join (parse s)

/-- `n` followed by exactly one component. -/
def push (n : Name) (component : String) : Name := ⟨n.components ++ [component]⟩

/-- The parent and the last component. -/
def splitLast (n : Name) : Option (Name × String) :=
  n.components.getLast?.map fun last => (⟨n.components.dropLast⟩, last)

def last? (n : Name) : Option String := n.components.getLast?

/-- Whether `n` is `start` or lies beneath it. -/
def startsWith (n start : Name) : Bool := start.components.isPrefixOf n.components

/-- Component by component, each in the order of its UTF-8 form. -/
def order (n m : Name) : Ordering := go n.components m.components
where
  go : List String → List String → Ordering
    | [], [] => .eq
    | [], _ :: _ => .lt
    | _ :: _, [] => .gt
    | a :: as, b :: bs => (compareOfLessAndEq a b).then (go as bs)

/-- The name as a record of its components. -/
def describe (n : Name) : String :=
  Text.record "Name" [("components", Text.quotedList n.components)] false

@[simp] theorem splitLast_push (n : Name) (k : String) : (n.push k).splitLast = some (n, k) := by
  simp [splitLast, push]

end Name

end NameDirectory
