/-!
# Shared resources

A pool keeps one resource under each key for all who ask for it.  Every asking gives
a lease; the resource is given up for closing when the last lease on it ends.  A
resource that replaces another under the same key belongs to a new generation, and
the end of a lease of an older generation does nothing.
-/

namespace NameDirectory

/-- A resource in a pool, with the number of leases on it. -/
structure Slot (R : Type) where
  resource : R
  references : Nat
  generation : Nat
  deriving DecidableEq, Repr

structure Pool (K R : Type) where
  slots : List (K × Slot R) := []
  /-- The generation of the next resource. -/
  generation : Nat := 0
  deriving Repr

/-- A hold on a resource, until it is released. -/
structure Lease (K R : Type) where
  key : K
  generation : Nat
  resource : R
  released : Bool := false
  deriving DecidableEq, Repr

namespace Pool

variable {σ ε K R : Type} [DecidableEq K]

def slot? (p : Pool K R) (k : K) : Option (Slot R) := (p.slots.find? (·.1 = k)).map (·.2)

def remove (p : Pool K R) (k : K) : Pool K R := { p with slots := p.slots.filter (·.1 ≠ k) }

def put (p : Pool K R) (k : K) (s : Slot R) : Pool K R :=
  { p with slots := (k, s) :: (p.remove k).slots }

@[simp] theorem slot?_remove_self (p : Pool K R) (k : K) : (p.remove k).slot? k = none := by
  simp [slot?, remove]

theorem slot?_remove_of_ne {k k' : K} (h : k' ≠ k) (p : Pool K R) :
    (p.remove k).slot? k' = p.slot? k' := by
  simp only [slot?, remove, List.find?_filter]
  congr 2; funext a; grind

@[simp] theorem slot?_put_self (p : Pool K R) (k : K) (s : Slot R) : (p.put k s).slot? k = some s := by
  simp [slot?, put]

theorem slot?_put_of_ne {k k' : K} (h : k' ≠ k) (p : Pool K R) (s : Slot R) :
    (p.put k s).slot? k' = p.slot? k' := by
  rw [← slot?_remove_of_ne h p]
  simp [slot?, put, h.symm]

def size (p : Pool K R) : Nat := p.slots.length

/-- The number of leases on the resource under `k`. -/
def references (p : Pool K R) (k : K) : Nat := ((p.slot? k).map (·.references)).getD 0

/-- One more lease on a slot. -/
def lend (p : Pool K R) (k : K) (s : Slot R) : Lease K R × Pool K R :=
  (⟨k, s.generation, s.resource, false⟩, p.put k { s with references := s.references + 1 })

/-- A lease on a resource that was just built, over what was under its key. -/
def install (p : Pool K R) (k : K) (r : R) : Lease K R × Pool K R :=
  { p with generation := p.generation + 1 }.lend k ⟨r, 0, p.generation⟩

/-- A lease on the resource under `k`; if there is none, or it is not valid, one is built.  A
failure to build leaves the pool as it was. -/
def get (p : Pool K R) (k : K) (valid : R → Bool) (build : σ → Except ε R × σ) (w : σ) :
    Except ε (Lease K R) × Pool K R × σ :=
  match (p.slot? k).filter (valid ·.resource) with
  | some s =>
    let (lease, p) := p.lend k s
    (.ok lease, p, w)
  | none =>
    match build w with
    | (.error fault, w) => (.error fault, p, w)
    | (.ok r, w) =>
      let (lease, p) := p.install k r
      (.ok lease, p, w)

/-- End one lease on what is under `k`, if it is of the given generation; the resource is given
up when it was the last. -/
def release (p : Pool K R) (k : K) (generation : Option Nat) : Option R × Pool K R :=
  match p.slot? k with
  | none => (none, p)
  | some s =>
    if generation.any (· ≠ s.generation) then (none, p)
    else if 1 < s.references then (none, p.put k { s with references := s.references - 1 })
    else (some s.resource, p.remove k)

/-- Give up all resources, leases or not. -/
def shutdown (p : Pool K R) : List R × Pool K R :=
  (p.slots.map (·.2.resource), { p with slots := [] })

/-- End a lease, for the first time. -/
def endLease (p : Pool K R) (l : Lease K R) : Option R × Lease K R × Pool K R :=
  if l.released then (none, l, p)
  else
    let (r, p) := p.release l.key (some l.generation)
    (r, { l with released := true }, p)

end Pool

end NameDirectory
