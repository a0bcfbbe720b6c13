import NameDirectory.Fault

/-!
# Contexts at the client

A handle on a context is its name and the store it is reached through; names given
to it are relative.  Only the handle made for a configuration owns its store and
closes it.  Handles can be kept under labels, and scripts of steps be run on them.
-/

namespace NameDirectory

structure Context (τ : Type) where
  base : Name
  store : τ
  owner : Bool
  deriving DecidableEq, Repr

namespace Context

variable {τ : Type}

/-- The root, which closes its store. -/
def owning (store : τ) : Context τ := ⟨Name.root, store, true⟩

/-- A context that was found; it closes nothing. -/
def found (base : Name) (store : τ) : Context τ := ⟨base, store, false⟩

def absolute (c : Context τ) (r : Request) : Request := r.under c.base

/-- Handles are the same if name and store are, whoever owns the store. -/
def same [DecidableEq τ] (c d : Context τ) : Bool := c.base = d.base && c.store = d.store

def text (c : Context τ) : String := "context '" ++ c.base.text ++ "'"

def describe (c : Context τ) : String :=
  Text.record "RemoteContext" [("name", c.base.describe), ("owner", toString c.owner)] false

/-- The object of an entry that must be one; `n` is its absolute name. -/
def expectObject (n : Name) : Reply → Except ClientFault Object
  | .entry (.object o) => .ok o
  | _ => .error (.argument .lookup ("'" ++ n.text ++ "' is a context"))

end Context

/-! ## Scripts -/

namespace Script

inductive Ask where
  | request (r : Request)
  /-- Look up a name that must stand for an object. -/
  | object (n : Name)
  | close
  | describe
  | sameAs (label : String)
  deriving DecidableEq, Repr

structure Step where
  ask : Ask
  label : String := "root"
  /-- The label for a context that is answered. -/
  keep : Option String := none
  deriving DecidableEq, Repr

inductive Answer where
  | reply (r : Request) (result : Except ClientFault Reply)
  | object (result : Except ClientFault Object)
  | closed (result : Except ClientFault Unit)
  | description (text record : String) (name : Name)
  | same (b : Bool)
  | unknownLabel (label : String)

abbrev Handles (τ : Type) := List (String × Context τ)

structure Stores (σ τ : Type) where
  serve : τ → Request → σ → Except ClientFault Reply × σ
  close : τ → σ → Except ClientFault Unit × σ
  /-- The store that contexts found through a store are on. -/
  home : τ → τ

structure Shelf (σ τ : Type) where
  get : σ → Handles τ
  set : Handles τ → σ → σ

variable {σ τ : Type}

def Shelf.find? (shelf : Shelf σ τ) (label : String) (w : σ) : Option (Context τ) :=
  ((shelf.get w).find? (·.1 = label)).map (·.2)

def Shelf.put (shelf : Shelf σ τ) (label : String) (c : Context τ) (w : σ) : σ :=
  shelf.set ((label, c) :: (shelf.get w).filter (·.1 ≠ label)) w

def Step.keepFound (s : Step) (shelf : Shelf σ τ) (store : τ) (result : Except ClientFault Reply)
    (w : σ) : σ :=
  match s.keep, result with
  | some label, .ok (.entry (.context n)) => shelf.put label (.found n store) w
  | _, _ => w

def Step.run [DecidableEq τ] (stores : Stores σ τ) (shelf : Shelf σ τ) (s : Step) (w : σ) :
    Answer × σ :=
  match shelf.find? s.label w with
  | none => (.unknownLabel s.label, w)
  | some c =>
    match s.ask with
    | .request r =>
      let (result, w) := stores.serve c.store (c.absolute r) w
      (.reply r result, s.keepFound shelf (stores.home c.store) result w)
    | .object n =>
      let n := c.base.join n
      let (result, w) := stores.serve c.store (.lookup n) w
      (.object (result.bind (Context.expectObject n)), w)
    | .close =>
      if c.owner then
        let (result, w) := stores.close c.store w
        (.closed result, w)
      else (.closed (.ok ()), w)
    | .describe => (.description c.text c.describe c.base, w)
    | .sameAs label =>
      match shelf.find? label w with
      | none => (.unknownLabel label, w)
      | some d => (.same (c.same d), w)

end Script

end NameDirectory
