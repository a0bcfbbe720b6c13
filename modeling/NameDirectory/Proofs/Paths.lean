import Mathlib.Data.List.Infix
import NameDirectory.Tree

/-!
# The tree as a map on paths

At a path of keys there is nothing, an object, or a context.  Walks and changes are described by
what is where, without the tree that holds it.

* `Tree.walk_of_barrier`, `Tree.exists_walk_of_clear`: a walk ends at the first part of its path
  that is no context;
* `Tree.modify_eq`: a change is a walk, the change itself, and a graft of what it gives;
* `Tree.at?_graft`, `Tree.paths_graft`: a graft changes what is at its path and beneath, and
  nothing else;
* `Tree.eq_of_paths`: of trees in order, no two are the same map.
-/

namespace NameDirectory

/-- What is at a path, whatever lies beneath it. -/
inductive Occupant where
  | absent
  | object (value : Object)
  | context
  deriving DecidableEq, Repr

/-- The fault of a walk along `whole` that cannot pass `part`. -/
def Occupant.fault (whole : Name) (part : List String) : Occupant → NamingFault
  | object _ => .notContext (Name.ofComponents part).text
  | absent | context => .nameNotFound whole.text

/-- What is at each path of keys. -/
abbrev PathMap := List String → Occupant

namespace PathMap

variable {m : PathMap} {p path : List String} {s : Occupant}

/-- The shortest part of a path that is no context. -/
def barrier (m : PathMap) (path : List String) : Option (List String) :=
  path.inits.find? fun part => m part ≠ .context

/-- Why no walk leads to the context `n`. -/
def obstacle (m : PathMap) (n : Name) : Option NamingFault :=
  (m.barrier n.components).map fun part => (m part).fault n part

/-- The map with `s` at a path, and nothing beneath it. -/
def put (m : PathMap) (path : List String) (s : Occupant) : PathMap := fun p =>
  if p = path then s else if path <+: p then .absent else m p

/-- Something is bound in the context at a path. -/
def Populated (m : PathMap) (path : List String) : Prop := ∃ k, m (path ++ [k]) ≠ .absent

@[simp] theorem put_self (m : PathMap) (path : List String) (s : Occupant) : m.put path s path = s :=
  if_pos rfl

theorem put_of_not_prefix (h : ¬ path <+: p) : m.put path s p = m p := by
  have hne : p ≠ path := fun heq => h (heq ▸ List.prefix_rfl)
  rw [put, if_neg hne, if_neg h]

theorem put_of_below (h : path <+: p) (hne : p ≠ path) : m.put path s p = .absent := by
  rw [put, if_neg hne, if_pos h]

theorem barrier_of_not_context (h : m [] ≠ .context) (path : List String) :
    m.barrier path = some [] := by
  cases path <;> simp [barrier, h]

theorem barrier_cons (h : m [] = .context) (k : String) (path : List String) :
    m.barrier (k :: path) = (barrier (fun p => m (k :: p)) path).map (k :: ·) := by
  simp only [barrier, List.inits_cons, List.find?_cons, h, ne_eq, not_true_eq_false, decide_false,
    List.find?_map]
  rfl

theorem prefix_of_barrier {part : List String} (h : m.barrier path = some part) : part <+: path :=
  (List.mem_inits part path).mp (List.mem_of_find?_eq_some h)

/-- Nothing is in the way to a path if all its parts are contexts. -/
theorem barrier_eq_none_iff :
    m.barrier path = none ↔ ∀ part, part <+: path → m part = .context := by
  simp [barrier, List.find?_eq_none, List.mem_inits]

theorem obstacle_eq_none_iff {n : Name} :
    m.obstacle n = none ↔ ∀ part, part <+: n.components → m part = .context := by
  rw [obstacle, Option.map_eq_none_iff, barrier_eq_none_iff]

end PathMap

/-! ## The map of a tree -/

namespace Node

def occupant : Node → Occupant
  | object o => .object o
  | context _ => .context

/-- What a path of keys leads to from a node. -/
def at? : Node → List String → Option Node
  | context c, path => Tree.at? c path
  | object o, [] => some (object o)
  | object _, _ :: _ => none

@[simp] theorem at?_context (c : Tree) (path : List String) :
    (context c).at? path = c.at? path := rfl

@[simp] theorem at?_nil (node : Node) : node.at? [] = some node := by
  cases node <;> rfl

end Node

/-- What it is that is found. -/
def Occupant.ofNode? : Option Node → Occupant
  | none => absent
  | some node => node.occupant

theorem Occupant.ofNode?_eq_absent {r : Option Node} : ofNode? r = absent ↔ r = none := by
  rcases r with - | ⟨o⟩ | ⟨c⟩ <;> simp [ofNode?, Node.occupant]

theorem Occupant.ofNode?_eq_context {r : Option Node} :
    ofNode? r = context ↔ ∃ c, r = some (.context c) := by
  rcases r with - | ⟨o⟩ | ⟨c⟩ <;> simp [ofNode?, Node.occupant]

namespace Tree

variable {t c : Tree} {k : String} {path : List String}

/-- The tree as a map on paths. -/
def paths (t : Tree) : PathMap := fun path => .ofNode? (t.at? path)

@[simp] theorem at?_nil (t : Tree) : t.at? [] = some (.context t) := rfl

theorem at?_cons (t : Tree) (k : String) (path : List String) :
    t.at? (k :: path) = (t.find? k).bind fun node => node.at? path := by
  unfold at?
  cases t.find? k with
  | none => rfl
  | some node =>
    cases path with
    | nil => exact (Node.at?_nil node).symm
    | cons _ _ => cases node <;> rfl

/-- What is beneath a path is found by going on from it. -/
theorem at?_append (t : Tree) (p q : List String) :
    t.at? (p ++ q) = (t.at? p).bind fun node => node.at? q := by
  induction p generalizing t with
  | nil => rfl
  | cons k p ih =>
    rw [List.cons_append, at?_cons, at?_cons]
    cases t.find? k with
    | none => rfl
    | some node =>
      cases node with
      | object o => cases p <;> cases q <;> rfl
      | context c => exact ih c

/-- What is under a key of a context. -/
theorem at?_concat_eq_some_iff {node : Node} :
    t.at? (path ++ [k]) = some node ↔
      ∃ c : Tree, t.at? path = some (.context c) ∧ c.find? k = some node := by
  rw [at?_append]
  rcases t.at? path with - | ⟨o⟩ | ⟨c⟩
  · simp
  · simp [Node.at?]
  · simp [at?_cons]

@[simp] theorem paths_nil (t : Tree) : t.paths [] = .context := rfl

theorem paths_singleton (c : Tree) (k : String) : c.paths [k] = .ofNode? (c.find? k) := by
  rw [paths, at?_cons]
  cases c.find? k <;> simp

/-- Where a path leads to a context, the map goes on with the map of that context. -/
theorem paths_append (h : t.at? path = some (.context c)) (q : List String) :
    t.paths (path ++ q) = c.paths q := by
  rw [paths, at?_append, h]
  rfl

/-- There are only contexts on the way to a context. -/
theorem paths_of_prefix (h : t.at? path = some (.context c)) {part : List String}
    (hpart : part <+: path) : t.paths part = .context := by
  obtain ⟨q, rfl⟩ := hpart
  rw [at?_append] at h
  obtain ⟨node, hnode, hbeneath⟩ := Option.bind_eq_some_iff.mp h
  cases node with
  | context d => exact Occupant.ofNode?_eq_context.mpr ⟨d, hnode⟩
  | object o => cases q <;> cases hbeneath

/-- Nothing is beneath an object or a free place. -/
theorem paths_append_of_not_context (h : t.paths path ≠ .context) {q : List String} (hq : q ≠ []) :
    t.paths (path ++ q) = .absent := by
  rw [paths, at?_append, Occupant.ofNode?_eq_absent]
  cases hnode : t.at? path with
  | none => rfl
  | some node =>
    cases node with
    | context c => exact absurd (Occupant.ofNode?_eq_context.mpr ⟨c, hnode⟩) h
    | object o => cases q <;> first | rfl | exact absurd rfl hq

/-- There are only contexts above what is bound. -/
theorem paths_of_above (h : t.paths path ≠ .absent) (hpart : part <+: path) (hne : part ≠ path) :
    t.paths part = .context := by
  obtain ⟨q, rfl⟩ := hpart
  by_contra hcontext
  exact h (paths_append_of_not_context hcontext fun hq => hne (by rw [hq, List.append_nil]))

theorem paths_cons (h : t.find? k = some (.context c)) (q : List String) :
    t.paths (k :: q) = c.paths q := by
  rw [paths, at?_cons, h]
  rfl

/-! ## Walks -/

/-- A walk leads to the context at its path. -/
theorem walk_eq_ok_iff {w : Name} {seen : List String} :
    walk w seen t path = .ok c ↔ t.at? path = some (.context c) := by
  induction path generalizing t seen with
  | nil => simp [walk]
  | cons k path ih =>
    rw [at?_cons]
    unfold walk
    cases t.find? k with
    | none => simp
    | some node =>
      cases node with
      | object o => cases path <;> simp [Node.at?]
      | context d => exact ih

/-- A walk fails at the first part of its path that is no context. -/
theorem walk_of_barrier {part : List String} (h : t.paths.barrier path = some part) (w : Name)
    (seen : List String) :
    walk w seen t path = .error ((t.paths part).fault w (seen ++ part)) := by
  induction path generalizing t seen part with
  | nil => cases h
  | cons k path ih =>
    rw [PathMap.barrier_cons t.paths_nil] at h
    obtain ⟨rest, hrest, rfl⟩ := Option.map_eq_some_iff.mp h
    unfold walk
    cases hk : t.find? k with
    | some node =>
      cases node with
      | context d =>
        -- from here on the map is that of `d`, and so is what bars the way
        rw [funext (paths_cons hk)] at hrest
        have hbeneath := ih hrest (seen ++ [k])
        rw [List.append_assoc, List.singleton_append] at hbeneath
        rw [paths_cons hk]
        exact hbeneath
      | object o =>
        have hhere : t.paths [k] = .object o := by simp [paths, at?_cons, hk]; rfl
        rw [PathMap.barrier_of_not_context (by simp [hhere])] at hrest
        obtain rfl := Option.some.inj hrest
        simp only [hhere]
        rfl
    | none =>
      have hhere : t.paths [k] = .absent := by simp [paths, at?_cons, hk]; rfl
      rw [PathMap.barrier_of_not_context (by simp [hhere])] at hrest
      obtain rfl := Option.some.inj hrest
      simp only [hhere]
      rfl

/-- A walk that nothing is in the way of leads to a context. -/
theorem exists_walk_of_clear (h : t.paths.barrier path = none) (w : Name) (seen : List String) :
    ∃ c, walk w seen t path = .ok c ∧ t.at? path = some (.context c) := by
  have hcontext := PathMap.barrier_eq_none_iff.mp h path List.prefix_rfl
  obtain ⟨c, hc⟩ := Occupant.ofNode?_eq_context.mp hcontext
  exact ⟨c, walk_eq_ok_iff.mpr hc, hc⟩

theorem context_eq_ok_iff {n : Name} :
    t.context n = .ok c ↔ t.at? n.components = some (.context c) :=
  walk_eq_ok_iff

theorem context_of_obstacle {n : Name} {fault : NamingFault} (h : t.paths.obstacle n = some fault) :
    t.context n = .error fault := by
  obtain ⟨part, hpart, rfl⟩ := Option.map_eq_some_iff.mp h
  exact walk_of_barrier hpart n []

theorem exists_context_of_clear {n : Name} (h : t.paths.obstacle n = none) :
    ∃ c, t.context n = .ok c ∧ t.at? n.components = some (.context c) :=
  exists_walk_of_clear (Option.map_eq_none_iff.mp h) n []

/-! ## Changes -/

/-- The tree with the context at a path replaced, if there is one. -/
def graft (t : Tree) (path : List String) (c : Tree) : Tree :=
  match path with
  | [] => c
  | k :: path =>
    match t.find? k with
    | some (.context d) => t.insert k (.context (graft d path c))
    | _ => t

/-- A change is made where a walk leads to, and what it gives is grafted in its place. -/
theorem modify_eq (w : Name) (change : Tree → Except NamingFault Tree) (seen : List String)
    (t : Tree) (path : List String) :
    modify w change seen t path =
      (walk w seen t path).bind fun c => (change c).map fun c' => t.graft path c' := by
  induction path generalizing t seen with
  | nil =>
    simp only [modify, walk, graft, Except.bind]
    cases change t <;> rfl
  | cons k path ih =>
    unfold modify walk graft
    cases t.find? k with
    | none => rfl
    | some node =>
      cases node with
      | object o => rfl
      | context d =>
        simp only [ih]
        cases walk w (seen ++ [k]) d path with
        | error fault => rfl
        | ok c =>
          simp only [Except.bind]
          cases change c <;> rfl

theorem at?_graft (h : t.at? path = some (.context c)) (c' : Tree) (q : List String) :
    (t.graft path c').at? (path ++ q) = c'.at? q := by
  induction path generalizing t with
  | nil => rfl
  | cons k path ih =>
    rw [at?_cons] at h
    obtain ⟨node, hk, hnode⟩ := Option.bind_eq_some_iff.mp h
    cases node with
    | object o => cases path <;> cases hnode
    | context d =>
      simp only [graft, hk, List.cons_append, at?_cons, Keyed.find?_insert_self, Option.bind_some]
      exact ih hnode

/-- What is not at the path of a graft or beneath it stays as it is. -/
theorem paths_graft (h : t.at? path = some (.context c)) (c' : Tree) {p : List String}
    (hp : ¬ path <+: p) : (t.graft path c').paths p = t.paths p := by
  induction path generalizing t p with
  | nil => exact absurd List.nil_prefix hp
  | cons k path ih =>
    rw [at?_cons] at h
    obtain ⟨node, hk, hnode⟩ := Option.bind_eq_some_iff.mp h
    cases node with
    | object o => cases path <;> cases hnode
    | context d =>
      simp only [graft, hk]
      cases p with
      | nil => rfl
      | cons j p =>
        by_cases hj : j = k
        · subst hj
          have hp' : ¬ path <+: p := fun hbegins => hp (List.cons_prefix_cons.mpr ⟨rfl, hbegins⟩)
          rw [paths_cons (Keyed.find?_insert_self _ _ _), paths_cons hk]
          exact ih hnode hp'
        · simp only [paths, at?_cons, Keyed.find?_insert_of_ne hj]

/-- Where a graft changes no more than one key, all other paths stay as they are. -/
theorem paths_graft_of_key {c' : Tree} (h : t.at? path = some (.context c)) {last : String}
    (hkeys : ∀ k, k ≠ last → c'.find? k = c.find? k) {p : List String}
    (hp : ¬ path ++ [last] <+: p) : (t.graft path c').paths p = t.paths p := by
  by_cases hbelow : path <+: p
  · obtain ⟨q, rfl⟩ := hbelow
    rw [paths_append h, paths, at?_graft h]
    cases q with
    | nil => rfl
    | cons k q =>
      have hk : k ≠ last := by
        rintro rfl
        exact hp ⟨q, by simp⟩
      simp only [paths, at?_cons, hkeys k hk]
  · exact paths_graft h c' hbelow

end Tree

/-! ## Order -/

/-- The keys are in order, here and beneath. -/
inductive Node.Ordered : Node → Prop
  | object (o : Object) : Ordered (.object o)
  | context {c : Tree} (hkeys : Keyed.Sorted c) (hnodes : ∀ b ∈ c, Ordered b.2) :
      Ordered (.context c)

namespace Tree

/-- The keys of all contexts are in order. -/
def Ordered (t : Tree) : Prop := (Node.context t).Ordered

namespace Ordered

variable {t c : Tree} {k : String} {node : Node}

theorem sorted (h : t.Ordered) : Keyed.Sorted t := by
  cases h with
  | context hkeys _ => exact hkeys

theorem of_mem (h : t.Ordered) {b : String × Node} (hb : b ∈ t) : b.2.Ordered := by
  cases h with
  | context _ hnodes => exact hnodes b hb

theorem empty : Tree.empty.Ordered := .context .nil nofun

theorem find? (h : t.Ordered) (hk : t.find? k = some node) : node.Ordered :=
  h.of_mem (Keyed.mem_of_find? hk)

theorem insert (h : t.Ordered) (hnode : node.Ordered) (k : String) : Ordered (t.insert k node) := by
  refine .context (h.sorted.insert k node) fun b hb => ?_
  rcases Keyed.mem_of_mem_insert hb with rfl | hb
  · exact hnode
  · exact h.of_mem hb

theorem erase (h : t.Ordered) (k : String) : Ordered (t.erase k) :=
  .context (h.sorted.erase k) fun _ hb => h.of_mem (Keyed.mem_of_mem_erase hb)

theorem at? (h : t.Ordered) {path : List String} (hpath : t.at? path = some node) :
    node.Ordered := by
  induction path generalizing t with
  | nil =>
    cases hpath
    exact h
  | cons k path ih =>
    rw [at?_cons] at hpath
    obtain ⟨d, hk, hd⟩ := Option.bind_eq_some_iff.mp hpath
    cases d with
    | object o =>
      cases path with
      | nil =>
        cases hd
        exact .object o
      | cons _ _ => cases hd
    | context d => exact ih (h.find? hk) hd

theorem graft (h : t.Ordered) (hc : c.Ordered) (path : List String) : (t.graft path c).Ordered := by
  induction path generalizing t with
  | nil => exact hc
  | cons k path ih =>
    unfold Tree.graft
    split
    · next d hk => exact h.insert (ih (h.find? hk)) k
    · exact h

end Ordered

end Tree

/-- Nodes in order are told apart by what is at and beneath them. -/
theorem Node.Ordered.eq_of_occupant {a b : Node} (ha : a.Ordered) (hb : b.Ordered)
    (h : ∀ p, Occupant.ofNode? (a.at? p) = Occupant.ofNode? (b.at? p)) : a = b := by
  induction ha generalizing b with
  | object o =>
    have hhere := h []
    cases b with
    | object o' =>
      cases hhere
      rfl
    | context d => cases hhere
  | @context c hkeys _ ih =>
    have hhere := h []
    cases b with
    | object o => cases hhere
    | context d =>
      have hd : Tree.Ordered d := hb
      refine congrArg Node.context (hkeys.ext hd.sorted fun k => ?_)
      have hbeneath : ∀ q,
          Occupant.ofNode? (Tree.at? c (k :: q)) = .ofNode? (Tree.at? d (k :: q)) :=
        fun q => h (k :: q)
      simp only [Tree.at?_cons] at hbeneath
      have hfirst := hbeneath []
      cases hc : Keyed.find? k c with
      | none =>
        rw [hc] at hfirst
        cases hy : Keyed.find? k d with
        | none => rfl
        | some y =>
          rw [hy] at hfirst
          cases y <;> cases hfirst
      | some x =>
        cases hy : Keyed.find? k d with
        | none =>
          rw [hc, hy] at hfirst
          cases x <;> cases hfirst
        | some y =>
          rw [hc, hy] at hbeneath
          have hxy : x = y := ih (k, x) (Keyed.mem_of_find? hc) (hd.find? hy) hbeneath
          rw [hxy]

/-- Trees in order are told apart by the map. -/
theorem Tree.eq_of_paths {t t' : Tree} (h : t.Ordered) (h' : t'.Ordered)
    (hpaths : t.paths = t'.paths) : t = t' :=
  Node.context.inj (Node.Ordered.eq_of_occupant h h' fun p => congrFun hpaths p)

end NameDirectory
