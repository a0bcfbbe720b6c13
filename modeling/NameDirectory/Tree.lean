import NameDirectory.Keyed
import NameDirectory.Request

/-!
# The directory tree

A context holds objects and further contexts under keys.  A name is walked from
the root through contexts only; a link is followed only where a whole name ends
at it, and only so often.  An update that changes the tree once answers with the
tree it leaves, so a refused one leaves none; one that changes it twice works in
place.
-/

namespace NameDirectory

inductive Node where
  | object (value : Object)
  | context (bindings : List (String × Node))
  deriving Repr, Inhabited

/-- The bindings of the root context. -/
abbrev Tree := Keyed Node

namespace Node

def className : Node → String
  | object o => o.className
  | context _ => Object.contextClass

end Node

namespace Tree

def empty : Tree := []

/-! ## Walking -/

/-- The bindings of the context that `path` leads to from `t`.  `whole` is the name under
way and `seen` the part of it already walked. -/
def walk (whole : Name) (seen : List String) (t : Tree) : List String → Except NamingFault Tree
  | [] => .ok t
  | k :: path =>
    match t.find? k with
    | some (.context c) => walk whole (seen ++ [k]) c path
    | some (.object _) => .error (.notContext (Name.ofComponents (seen ++ [k])).text)
    | none => .error (.nameNotFound whole.text)

def context (t : Tree) (n : Name) : Except NamingFault Tree := walk n [] t n.components

/-- The tree after `change` was made to the bindings of the context at `path`. -/
def modify (whole : Name) (change : Tree → Except NamingFault Tree) (seen : List String)
    (t : Tree) : List String → Except NamingFault Tree
  | [] => change t
  | k :: path =>
    match t.find? k with
    | some (.context c) =>
      (modify whole change (seen ++ [k]) c path).map fun c' => t.insert k (.context c')
    | some (.object _) => .error (.notContext (Name.ofComponents (seen ++ [k])).text)
    | none => .error (.nameNotFound whole.text)

def update (t : Tree) (n : Name) (change : Tree → Except NamingFault Tree) :
    Except NamingFault Tree :=
  modify n change [] t n.components

/-- The parent and key of a name that something is to be bound to. -/
def target (n : Name) : Except NamingFault (Name × String) :=
  match n.splitLast with
  | some p => .ok p
  | none => .error (.invalidName n.text "an empty name cannot be bound")

/-! ## Looking up -/

/-- What `n` itself stands for, links not followed. -/
def lookupLink (t : Tree) (n : Name) : Except NamingFault Entry :=
  match n.splitLast with
  | none => .ok (.context Name.root)
  | some (parent, last) => do
    match (← t.context parent).find? last with
    | none => .error (.nameNotFound n.text)
    | some (.context _) => .ok (.context n)
    | some (.object o) => .ok (.object o)

/-- What `n` stands for after at most `hops` links. -/
def follow (t : Tree) : Nat → Name → Except NamingFault Entry
  | hops, n =>
    match t.lookupLink n with
    | .ok (.object (.link next)) =>
      match hops with
      | 0 => .error (.other ("too many link hops resolving '" ++ n.text ++ "'"))
      | hops + 1 => follow t hops next
    | answer => answer

/-- Links followed before a chain of them is given up. -/
def maxHops : Nat := 8

def lookup (t : Tree) (n : Name) : Except NamingFault Entry := t.follow maxHops n

/-! ## Listing -/

def list (t : Tree) (n : Name) : Except NamingFault (List NameClass) := do
  return (← t.context n).map fun (k, node) => ⟨k, node.className⟩

def listBindings (t : Tree) (n : Name) : Except NamingFault (List (Binding Entry)) := do
  return (← t.context n).map fun (k, node) =>
    Binding.ofEntry k (match node with
      | .object o => .object o
      | .context _ => .context (n.child k))

/-! ## Updates -/

/-- Put `node` under a key that must be free. -/
def bindNode (t : Tree) (n : Name) (node : Node) : Except NamingFault Tree := do
  let (parent, last) ← target n
  t.update parent fun c =>
    if (c.find? last).isSome then .error (.nameAlreadyBound n.text)
    else .ok (c.insert last node)

def bind (t : Tree) (n : Name) (o : Object) : Except NamingFault Tree :=
  t.bindNode n (.object o)

/-- Put `node` under a key, over what was there. -/
def rebindNode (t : Tree) (n : Name) (node : Node) : Except NamingFault Tree := do
  let (parent, last) ← target n
  t.update parent fun c => .ok (c.insert last node)

def rebind (t : Tree) (n : Name) (o : Object) : Except NamingFault Tree :=
  t.rebindNode n (.object o)

def unbind (t : Tree) (n : Name) : Except NamingFault Tree := do
  let (parent, last) ← target n
  t.update parent fun c =>
    if (c.find? last).isSome then .ok (c.erase last) else .error (.nameNotFound n.text)

def createSubcontext (t : Tree) (n : Name) : Except NamingFault Tree :=
  t.bindNode n (.context [])

def destroySubcontext (t : Tree) (n : Name) : Except NamingFault Tree := do
  let (parent, last) ← target n
  t.update parent fun c =>
    match c.find? last with
    | none => .error (.nameNotFound n.text)
    | some (.object _) => .error (.notContext n.text)
    | some (.context []) => .ok (c.erase last)
    | some (.context _) => .error (.contextNotEmpty n.text)

/-- What is bound to `n`, if it may be moved to `m`. -/
def movable (t : Tree) (n m : Name) : Except NamingFault Node := do
  let (parent, last) ← target n
  let (newParent, newLast) ← target m
  if m.startsWith n then
    throw (.invalidName m.text "a binding cannot be moved beneath itself")
  let some node := (← t.context parent).find? last | throw (.nameNotFound n.text)
  if ((← t.context newParent).find? newLast).isSome then throw (.nameAlreadyBound m.text)
  return node

/-- Move what is bound to `n`, with all that lies beneath, to the free name `m`.  The tree is
changed in place, and twice: what is taken away stays so should it find no place. -/
def move (t : Tree) (n m : Name) : Except NamingFault Unit × Tree :=
  match t.movable n m with
  | .error fault => (.error fault, t)
  | .ok node =>
    match t.unbind n with
    | .error fault => (.error fault, t)
    | .ok without =>
      match without.rebindNode m node with
      | .error fault => (.error fault, without)
      | .ok t' => (.ok (), t')

def rename (t : Tree) (n m : Name) : Except NamingFault Tree :=
  match t.move n m with
  | (.ok (), t') => .ok t'
  | (.error fault, _) => .error fault

/-! ## Requests -/

/-- The answer to a request, and the tree that an update leaves. -/
def answer (t : Tree) : Request → Except NamingFault (Reply × Tree)
  | .lookup n => return (.entry (← t.lookup n), t)
  | .bind n o => return (.void, ← t.bind n o)
  | .rebind n o => return (.void, ← t.rebind n o)
  | .list n => return (.pairs (← t.list n), t)
  | .listBindings n => return (.bindings (← t.listBindings n), t)
  | .unbind n => return (.void, ← t.unbind n)
  | .rename n m => return (.void, ← t.rename n m)
  | .createSubcontext n => return (.entry (.context n), ← t.createSubcontext n)
  | .destroySubcontext n => return (.void, ← t.destroySubcontext n)
  | .lookupLink n => return (.entry (← t.lookupLink n), t)

/-- Serve a request in place. -/
def serve (t : Tree) : Request → Except NamingFault Reply × Tree
  | .rename n m =>
    let (result, t') := t.move n m
    (result.map fun _ => .void, t')
  | r =>
    match t.answer r with
    | .ok (reply, t') => (.ok reply, t')
    | .error fault => (.error fault, t)

/-! ## The tree as a map on paths -/

/-- What a path of keys leads to, the root context for the empty one. -/
def at? (t : Tree) : List String → Option Node
  | [] => some (.context t)
  | k :: path =>
    match t.find? k, path with
    | some node, [] => some node
    | some (.context c), path => at? c path
    | _, _ => none

end Tree

end NameDirectory
