import NameDirectory.Proofs.NameText
import NameDirectory.Proofs.Paths
import NameDirectory.Proofs.Renaming

/-!
# Updates of a single name

Binding, rebinding, unbinding, and the making and ending of a context: what each of them gives is
decided on the map of the tree alone, and so is the map that it leaves.

* `Update.outcome`: an update on the map;
* `Tree.apply_eq`: the five updates are one change, made where the parent of the name is;
* `Tree.serve_update`: serving an update does to the map what `Update.outcome` says.
-/

namespace NameDirectory

/-- An update of one name. -/
inductive Update where
  | bind (value : Object)
  | rebind (value : Object)
  | unbind
  | createSubcontext
  | destroySubcontext
  deriving DecidableEq, Repr

namespace Update

def request (n : Name) : Update → Request
  | bind o => .bind n o
  | rebind o => .rebind n o
  | unbind => .unbind n
  | createSubcontext => .createSubcontext n
  | destroySubcontext => .destroySubcontext n

/-- The reply to an update that was made. -/
def reply (n : Name) : Update → Reply
  | createSubcontext => .entry (.context n)
  | bind _ | rebind _ | unbind | destroySubcontext => .void

/-- What takes the place of `here` under the name `n`, or why nothing does. -/
def settle (n : Name) (here : Occupant) (populated : Bool) : Update → Except NamingFault Occupant
  | bind o => if here = .absent then .ok (.object o) else .error (.nameAlreadyBound n.text)
  | rebind o => .ok (.object o)
  | unbind => if here = .absent then .error (.nameNotFound n.text) else .ok .absent
  | createSubcontext => if here = .absent then .ok .context else .error (.nameAlreadyBound n.text)
  | destroySubcontext =>
    match here with
    | .absent => .error (.nameNotFound n.text)
    | .object _ => .error (.notContext n.text)
    | .context => if populated then .error (.contextNotEmpty n.text) else .ok .absent

/-- An update on the map: the name must not be empty, no part of its parent may be in the way, and
then what is at the name decides. -/
def outcome (u : Update) (n : Name) (m : PathMap) [Decidable (m.Populated n.components)] :
    Except NamingFault Occupant :=
  match n.splitLast with
  | none => .error (.invalidName n.text "an empty name cannot be bound")
  | some (parent, _) =>
    match m.obstacle parent with
    | some fault => .error fault
    | none => u.settle n (m n.components) (decide (m.Populated n.components))

theorem settle_of_outcome {u : Update} {n : Name} {m : PathMap}
    [Decidable (m.Populated n.components)] {s : Occupant} (h : u.outcome n m = .ok s) :
    u.settle n (m n.components) (decide (m.Populated n.components)) = .ok s := by
  unfold outcome at h
  split at h
  · cases h
  · split at h
    · cases h
    · exact h

end Update

/-! ## Contexts that hold something -/

def Node.isPopulated : Node → Bool
  | context (_ :: _) => true
  | context [] | object _ => false

namespace Tree

variable {t c : Tree} {n : Name} {last : String} {s : Occupant}

theorem populated_iff (t : Tree) (path : List String) :
    (t.at? path).any Node.isPopulated = true ↔ t.paths.Populated path := by
  have hchild : ∀ k, t.paths (path ++ [k]) ≠ .absent ↔
      ((t.at? path).bind fun node => node.at? [k]) ≠ none := fun k => by
    rw [paths, at?_append, ne_eq, Occupant.ofNode?_eq_absent]
  simp only [PathMap.Populated, hchild]
  rcases t.at? path with - | ⟨o⟩ | ⟨- | ⟨b, rest⟩⟩
  · simp
  · simp [Node.isPopulated, Node.at?]
  · simp [Node.isPopulated, at?_cons, Keyed.find?]
  · refine ⟨fun _ => ⟨b.1, ?_⟩, fun _ => rfl⟩
    simp [at?_cons, Keyed.find?_head b rest]

instance (t : Tree) (path : List String) : Decidable (t.paths.Populated path) :=
  decidable_of_iff _ (t.populated_iff path)

theorem decide_populated (t : Tree) (path : List String) :
    decide (t.paths.Populated path) = (t.at? path).any Node.isPopulated := by
  simp [← populated_iff]

/-! ## The change that an update makes -/

/-- The bindings with `s` under a key: an object, an empty context, or nothing. -/
def assign (c : Tree) (k : String) : Occupant → Tree
  | .absent => c.erase k
  | .object o => c.insert k (.object o)
  | .context => c.insert k (.context [])

theorem find?_assign_of_ne {j k : String} (h : j ≠ k) (c : Tree) (s : Occupant) :
    (c.assign k s).find? j = c.find? j := by
  cases s with
  | absent => exact Keyed.find?_erase_of_ne h c
  | object o => exact Keyed.find?_insert_of_ne h _ c
  | context => exact Keyed.find?_insert_of_ne h _ c

theorem Ordered.assign (h : c.Ordered) (k : String) (s : Occupant) : (c.assign k s).Ordered := by
  cases s with
  | absent => exact h.erase k
  | object o => exact h.insert (.object o) k
  | context => exact h.insert Ordered.empty k

/-- What was put under a key is there, and nothing beneath it. -/
theorem Ordered.paths_assign (h : c.Ordered) (k : String) (s : Occupant) (q : List String) :
    (c.assign k s).paths (k :: q) = if q = [] then s else .absent := by
  rw [paths, at?_cons]
  cases s with
  | absent =>
    rw [Tree.assign, h.sorted.find?_erase_self]
    split <;> rfl
  | object o =>
    rw [Tree.assign, Keyed.find?_insert_self]
    cases q <;> rfl
  | context =>
    rw [Tree.assign, Keyed.find?_insert_self]
    cases q <;> rfl

end Tree

/-- The change that an update of `n` makes in the parent of the name. -/
def Update.change (u : Update) (n : Name) (last : String) (c : Tree) : Except NamingFault Tree :=
  (u.settle n (c.paths [last]) (decide (c.paths.Populated [last]))).map (c.assign last)

namespace Tree

variable {t c : Tree} {n : Name} {last : String} {s : Occupant}

def apply (t : Tree) (n : Name) : Update → Except NamingFault Tree
  | .bind o => t.bind n o
  | .rebind o => t.rebind n o
  | .unbind => t.unbind n
  | .createSubcontext => t.createSubcontext n
  | .destroySubcontext => t.destroySubcontext n

theorem serve_request (t : Tree) (u : Update) (n : Name) :
    t.serve (u.request n) =
      match t.apply n u with
      | .ok t' => (.ok (u.reply n), t')
      | .error fault => (.error fault, t) := by
  cases hu : t.apply n u <;> cases u <;>
    simp only [apply] at hu <;>
    simp only [Update.request, serve, answer, hu] <;> rfl

theorem change_eq (u : Update) (n : Name) (last : String) (c : Tree) :
    u.change n last c =
      match u with
      | .bind o =>
        if (c.find? last).isSome then .error (.nameAlreadyBound n.text)
        else .ok (c.insert last (.object o))
      | .rebind o => .ok (c.insert last (.object o))
      | .unbind =>
        if (c.find? last).isSome then .ok (c.erase last) else .error (.nameNotFound n.text)
      | .createSubcontext =>
        if (c.find? last).isSome then .error (.nameAlreadyBound n.text)
        else .ok (c.insert last (.context []))
      | .destroySubcontext =>
        match c.find? last with
        | none => .error (.nameNotFound n.text)
        | some (.object _) => .error (.notContext n.text)
        | some (.context []) => .ok (c.erase last)
        | some (.context _) => .error (.contextNotEmpty n.text) := by
  cases u <;>
    simp only [Update.change, Update.settle, paths_singleton, decide_populated, at?_cons] <;>
    rcases c.find? last with - | ⟨o⟩ | ⟨- | ⟨b, rest⟩⟩ <;> rfl

/-- The five updates are one change, each with its own way to settle what is at the name. -/
theorem apply_eq (t : Tree) (u : Update) (n : Name) :
    t.apply n u = (target n).bind fun p => t.update p.1 (u.change n p.2) := by
  have hchange : ∀ last, u.change n last = fun c => _ := fun last => funext (change_eq u n last)
  cases htarget : target n with
  | error fault =>
    cases u <;>
      simp only [apply, Tree.bind, Tree.rebind, unbind, createSubcontext, destroySubcontext,
        bindNode, rebindNode, htarget] <;> rfl
  | ok p =>
    cases u <;>
      simp only [apply, Tree.bind, Tree.rebind, unbind, createSubcontext, destroySubcontext,
        bindNode, rebindNode, htarget, hchange] <;> rfl

/-! ## Updates of the tree and of the map -/

theorem update_eq (t : Tree) (parent : Name) (change : Tree → Except NamingFault Tree) :
    t.update parent change =
      (t.context parent).bind fun c => (change c).map fun c' => t.graft parent.components c' :=
  modify_eq parent change [] t parent.components

/-- To assign in the context at a path is to put at a path one longer. -/
theorem Ordered.paths_graft_assign (h : t.Ordered) {path : List String}
    (hpath : t.at? path = some (.context c)) (k : String) (s : Occupant) :
    (t.graft path (c.assign k s)).paths = t.paths.put (path ++ [k]) s := by
  have hc : c.Ordered := h.at? hpath
  funext p
  unfold PathMap.put
  by_cases hbelow : path ++ [k] <+: p
  -- beneath the key only what was assigned is left
  · obtain ⟨q, rfl⟩ := hbelow
    have hthere := hc.paths_assign k s q
    rw [paths, ← at?_graft hpath (c.assign k s), ← paths] at hthere
    rw [List.append_assoc, List.singleton_append, hthere]
    cases q with
    | nil => simp
    | cons j q => simp
  · have hp : p ≠ path ++ [k] := fun heq => hbelow (heq ▸ List.prefix_rfl)
    rw [if_neg hp, if_neg hbelow]
    exact paths_graft_of_key hpath (fun j hj => find?_assign_of_ne hj c s) hbelow

/-- In the parent of a name, an update is settled as on the map. -/
theorem change_of_context (u : Update) {parent : Name} (hsplit : n.splitLast = some (parent, last))
    (hc : t.at? parent.components = some (.context c)) :
    u.change n last c =
      (u.settle n (t.paths n.components) (decide (t.paths.Populated n.components))).map
        (c.assign last) := by
  have hname := Name.components_of_splitLast hsplit
  have hpopulated : c.paths.Populated [last] ↔ t.paths.Populated n.components := by
    simp only [PathMap.Populated, hname, List.append_assoc, paths_append hc]
  have hhere : c.paths [last] = t.paths n.components := by rw [hname, paths_append hc]
  rw [Update.change, decide_eq_decide.mpr hpopulated, hhere]

/-- What becomes of an update is what becomes of it on the map. -/
theorem Ordered.apply (h : t.Ordered) (u : Update) (n : Name) :
    match u.outcome n t.paths with
    | .error fault => t.apply n u = .error fault
    | .ok s => ∃ t', t.apply n u = .ok t' ∧ t'.Ordered ∧ t'.paths = t.paths.put n.components s := by
  rw [apply_eq]
  unfold Update.outcome target
  cases hsplit : n.splitLast with
  | none => rfl
  | some p =>
    obtain ⟨parent, last⟩ := p
    simp only [Except.bind, update_eq]
    cases hobstacle : t.paths.obstacle parent with
    | some fault => simp only [context_of_obstacle hobstacle]
    | none =>
      obtain ⟨c, hcontext, hc⟩ := exists_context_of_clear hobstacle
      simp only [hcontext, change_of_context u hsplit hc]
      cases u.settle n (t.paths n.components) (decide (t.paths.Populated n.components)) with
      | error fault => rfl
      | ok s =>
        have hbindings : c.Ordered := h.at? hc
        refine ⟨_, rfl, h.graft (hbindings.assign last s) _, ?_⟩
        rw [Name.components_of_splitLast hsplit]
        exact h.paths_graft_assign hc last s

theorem Ordered.serve_outcome (h : t.Ordered) (u : Update) (n : Name) :
    match u.outcome n t.paths with
    | .error fault => t.serve (u.request n) = (.error fault, t)
    | .ok s => ∃ t', t.serve (u.request n) = (.ok (u.reply n), t') ∧ t'.Ordered ∧
        t'.paths = t.paths.put n.components s := by
  have happly := h.apply u n
  rw [serve_request]
  cases houtcome : u.outcome n t.paths with
  | error fault =>
    simp only [houtcome] at happly ⊢
    simp only [happly]
  | ok s =>
    simp only [houtcome] at happly ⊢
    obtain ⟨t', hok, ht'⟩ := happly
    simp only [hok]
    exact ⟨t', rfl, ht'⟩

/-- What is in the way is named as it is, where the name has no empty components. -/
theorem outcome_of_object (u : Update) {parent : Name} {part : List String} {o : Object}
    (hsplit : n.splitLast = some (parent, last))
    (hpart : t.paths.barrier parent.components = some part) (ho : t.paths part = .object o)
    (hfull : "" ∉ n.components) :
    u.outcome n t.paths = .error (.notContext (Name.mk part).text) := by
  have hbegins : part <+: n.components := by
    rw [Name.components_of_splitLast hsplit]
    exact (PathMap.prefix_of_barrier hpart).trans (List.prefix_append _ _)
  have hname : Name.ofComponents part = ⟨part⟩ :=
    Name.ofComponents_of_not_mem fun hmem => hfull (hbegins.subset hmem)
  simp only [Update.outcome, hsplit, PathMap.obstacle, hpart, Option.map_some, ho, Occupant.fault,
    hname]

/-- Serving an update of a name gives what `Update.outcome` says of the map.  If it is a fault, the
tree is as before; if not, the name stands for what it says, nothing is beneath it, and every other
path is as before.  Where an object is in the way, a name without empty components is named by the
part of it that the object is at. -/
theorem serve_update (h : t.Ordered) (u : Update) (n : Name) :
    (match u.outcome n t.paths with
      | .error fault => t.serve (u.request n) = (.error fault, t)
      | .ok s => ∃ t', t.serve (u.request n) = (.ok (u.reply n), t') ∧ t'.Ordered ∧
          t'.paths = t.paths.put n.components s) ∧
    ∀ parent last part o, n.splitLast = some (parent, last) →
      t.paths.barrier parent.components = some part → t.paths part = .object o → "" ∉ n.components →
      t.serve (u.request n) = (.error (.notContext (Name.mk part).text), t) := by
  refine ⟨h.serve_outcome u n, fun parent last part o hsplit hpart ho hfull => ?_⟩
  have hserve := h.serve_outcome u n
  rw [outcome_of_object u hsplit hpart ho hfull] at hserve
  exact hserve

/-- An object takes the place of a context that holds one; and beneath that one nothing is bound. -/
theorem serve_update_over_context :
    let t : Tree := [("c", .context [("x", .object .null)])]
    t.Ordered ∧
    (∃ t', t.serve (.rebind ⟨["c"]⟩ .null) = (.ok .void, t') ∧
      t'.paths = t.paths.put ["c"] (.object .null)) ∧
    t.paths.barrier ["c", "x"] = some ["c", "x"] ∧ t.paths ["c", "x"] = .object .null ∧
    t.serve (.bind ⟨["c", "x", "y"]⟩ .null) = (.error (.notContext "c/x"), t) := by
  intro t
  have hordered : t.Ordered := Ordered.empty.insert (Ordered.empty.insert (.object .null) "x") "c"
  have hbarrier : t.paths.barrier ["c", "x"] = some ["c", "x"] := by decide
  have hobject : t.paths ["c", "x"] = .object .null := by decide
  have houtcome : Update.outcome (.rebind .null) ⟨["c"]⟩ t.paths = .ok (.object .null) := by decide
  have hserve := (serve_update hordered (.rebind .null) ⟨["c"]⟩).1
  rw [houtcome] at hserve
  obtain ⟨t', hrebind, -, hpaths⟩ := hserve
  have hrefused := (serve_update hordered (.bind .null) ⟨["c", "x", "y"]⟩).2 ⟨["c", "x"]⟩ "y"
    ["c", "x"] .null rfl hbarrier hobject (by decide)
  have htext : (Name.mk ["c", "x"]).text = "c/x" := by decide +kernel
  rw [htext] at hrefused
  exact ⟨hordered, ⟨t', hrebind, hpaths⟩, hbarrier, hobject, hrefused⟩

/-- Keys may be empty, as names off the wire may have empty components.  An object is in the way at
the second part of a name; what is named is another binding, and that is a context. -/
theorem update_names_another_binding :
    let t : Tree := [("", .context [("a", .object .null)]), ("a", .context [])]
    t.Ordered ∧ t.paths.barrier ["", "a"] = some ["", "a"] ∧ t.paths ["", "a"] = .object .null ∧
      (Name.mk ["", "a"]).text = "/a" ∧
      t.serve (.bind ⟨["", "a", "b"]⟩ .null) = (.error (.notContext "a"), t) ∧
      t.serve (.destroySubcontext ⟨["", "a"]⟩) = (.error (.notContext "/a"), t) ∧
      t.paths ["a"] = .context := by
  intro t
  have hordered : t.Ordered :=
    (Ordered.empty.insert Ordered.empty "a").insert (Ordered.empty.insert (.object .null) "a") ""
  refine ⟨hordered, by decide, by decide, by decide +kernel, ?_, ?_, by decide⟩
  · rfl
  · rfl

end Tree

end NameDirectory
