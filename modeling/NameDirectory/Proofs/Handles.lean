import NameDirectory.Proofs.Asking

/-!
# What a handle stands for

A context is answered without its name, so the handle on it goes by the name that was asked for.
Where a lookup followed a link, that name is the link's, and nothing is beneath a link.

* `Tree.walk_of_object`, `Tree.modify_of_object`: no walk passes an object, so
  `Tree.serve_under_object`: what is asked for beneath one is refused;
* `Client.handle_on_name`: what a handle gives is what the directory gives for its name;
* `Client.handle_not_on_context`: which need not be what it gives for the context that was found.
-/

namespace NameDirectory

/-! ## Names beneath a link -/

namespace Name

/-- The last component of a longer name is that of what was added. -/
theorem exists_splitLast_join (n : Name) {m : Name} (hm : m.components ≠ []) :
    ∃ parent last, (n.join m).splitLast = some (n.join parent, last) := by
  obtain ⟨ks, k, hk⟩ : ∃ ks k, m.components = ks ++ [k] :=
    ⟨_, _, (List.dropLast_append_getLast hm).symm⟩
  refine ⟨⟨ks⟩, k, ?_⟩
  simp [splitLast, join, hk, ← List.append_assoc]

end Name

namespace Tree

variable {t c : Tree} {path : List String} {w n : Name} {seen : List String} {k : String} {o : Object}

theorem walk_of_object (h : walk w seen t path = .ok c) (hk : c.find? k = some (.object o))
    (w' : Name) (seen' rest : List String) :
    walk w' seen' t (path ++ k :: rest) =
      .error (.notContext (Name.ofComponents (seen' ++ path ++ [k])).text) := by
  induction path generalizing t seen seen' with
  | nil =>
    cases h
    simp only [List.nil_append, List.append_nil, walk, hk]
  | cons a path ih =>
    simp only [walk] at h
    split at h
    · next d ha =>
      simp only [List.cons_append, walk, ha]
      rw [ih h, List.append_assoc seen', List.singleton_append]
    · cases h
    · cases h

theorem modify_of_object (h : walk w seen t path = .ok c) (hk : c.find? k = some (.object o))
    (w' : Name) (change : Tree → Except NamingFault Tree) (seen' rest : List String) :
    modify w' change seen' t (path ++ k :: rest) =
      .error (.notContext (Name.ofComponents (seen' ++ path ++ [k])).text) := by
  induction path generalizing t seen seen' with
  | nil =>
    cases h
    simp only [List.nil_append, List.append_nil, modify, hk]
  | cons a path ih =>
    simp only [walk] at h
    split at h
    · next d ha =>
      simp only [List.cons_append, modify, ha]
      rw [ih h, List.append_assoc seen', List.singleton_append]
      rfl
    · cases h
    · cases h

/-- The fault of what has to pass an object at `n`. -/
def blocked (n : Name) : NamingFault := .notContext (Name.ofComponents n.components).text

theorem exists_of_object (h : t.lookupLink n = .ok (.object o)) :
    ∃ parent last c, n.components = parent.components ++ [last] ∧ t.context parent = .ok c ∧
      c.find? last = some (.object o) := by
  unfold lookupLink at h
  split at h
  · cases h
  · next parent last hsplit =>
    obtain ⟨c, hc, h⟩ := exists_of_bind_eq_ok h
    refine ⟨parent, last, c, Name.components_of_splitLast hsplit, hc, ?_⟩
    split at h <;> cases h
    assumption

theorem context_join_of_object (h : t.lookupLink n = .ok (.object o)) (m : Name) :
    t.context (n.join m) = .error (blocked n) := by
  obtain ⟨parent, last, c, hn, hc, hlast⟩ := exists_of_object h
  have hwalk := walk_of_object hc hlast (n.join m) [] m.components
  unfold context blocked
  rw [hn]
  simpa [Name.join, hn] using hwalk

theorem update_join_of_object (h : t.lookupLink n = .ok (.object o)) (m : Name)
    (change : Tree → Except NamingFault Tree) :
    t.update (n.join m) change = .error (blocked n) := by
  obtain ⟨parent, last, c, hn, hc, hlast⟩ := exists_of_object h
  have hmodify := modify_of_object hc hlast (n.join m) change [] m.components
  unfold update blocked
  rw [hn]
  simpa [Name.join, hn] using hmodify

theorem lookup_of_lookupLink {e : Entry} (h : t.lookupLink n = .ok e)
    (hlink : ∀ next, e ≠ .object (.link next)) : t.lookup n = .ok e := by
  unfold lookup follow
  rw [h]
  split
  · next next heq =>
    cases heq
    exact absurd rfl (hlink next)
  · rfl

theorem lookup_of_error {fault : NamingFault} (h : t.lookupLink n = .error fault) :
    t.lookup n = .error fault := by
  unfold lookup follow
  rw [h]

end Tree

/-- The request concerns what is in the context that it is relative to. -/
def Request.Beneath : Request → Prop
  | .list _ | .listBindings _ => True
  | .lookup m | .bind m _ => m.components ≠ []
  | _ => False

/-- Nothing is beneath an object, be it a link to a context. -/
theorem Tree.serve_under_object {t : Tree} {n : Name} {o : Object} {r : Request}
    (h : t.lookupLink n = .ok (.object o)) (hr : r.Beneath) :
    t.serve (r.under n) = (.error (blocked n), t) := by
  rw [serve_eq_answer]
  suffices t.answer (r.under n) = .error (blocked n) by rw [this]
  cases r with
  | list m => simp [Request.under, answer, list, context_join_of_object h]
  | listBindings m =>
    simp [Request.under, answer, listBindings, context_join_of_object h]
  | lookup m =>
    obtain ⟨parent, last, hsplit⟩ := n.exists_splitLast_join hr
    have hlink : t.lookupLink (n.join m) = .error (blocked n) := by
      simp [lookupLink, hsplit, context_join_of_object h, Bind.bind, Except.bind]
    simp [Request.under, answer, lookup_of_error hlink]
  | bind m o' =>
    obtain ⟨parent, last, hsplit⟩ := n.exists_splitLast_join hr
    have hbind : t.bind (n.join m) o' = .error (blocked n) := by
      simp [Tree.bind, bindNode, target, hsplit, update_join_of_object h, Bind.bind, Except.bind]
    simp [Request.under, answer, hbind, Bind.bind, Except.bind]
  | rebind | unbind | rename | createSubcontext | destroySubcontext | lookupLink => exact hr.elim

/-! ## Handles -/

namespace Client

/-- A context that a client found is a handle on the name it was looked up by: whatever is asked
of the handle later gives what the directory, if it did not change, gives for that name with the
relative one after it.  If no link was followed, that is the name of the context that the
directory found; if one was, nothing is beneath the name. -/
theorem handle_on_name {w : Client} {c : Context Unit} {n b : Name} (hw : w.Sound)
    (hn : (c.absolute (.lookup n)).Travels)
    (hfound : (w.request c (.lookup n)).1 = .ok (.entry (.context b))) :
    let w' := (w.request c (.lookup n)).2
    let handle := Context.found b (stores.home c.store)
    b = c.base.join n ∧ w'.tree = w.tree ∧
      (∀ (between : List (Context Unit × Request)) (r : Request),
        let later := w'.after between
        let asked := r.under b
        later.tree = w.tree → later.group.current.isSome → asked.Travels →
          Outcome.Travels (w.tree.serve asked).1 →
          (later.request handle r).1 = asked.seen (w.tree.serve asked).1 ∧
            (later.request handle r).2.tree = (w.tree.serve asked).2) ∧
      ∃ m, w.tree.lookup b = .ok (.context m) ∧
        (w.tree.lookupLink b = .ok (.context b) ∧ m = b ∨
          (∃ next, w.tree.lookupLink b = .ok (.object (.link next))) ∧
            ∀ r : Request, r.Beneath →
              w.tree.serve (r.under b) = (.error (Tree.blocked b), w.tree)) := by
  intro w' handle
  have hsound : w'.Sound := hw.request c (.lookup n)
  obtain ⟨rfl, htree, m, hm⟩ := hw.exists_of_lookup hn hfound
  refine ⟨rfl, htree, ?_, m, hm, ?_⟩
  · intro between r later asked hunchanged hused hr ho
    have hrequest := (hsound.after between).request_eq (c := handle) (r := r) hused hr
    rw [show (w'.after between).tree = w.tree from hunchanged] at hrequest
    exact hrequest ho
  · cases hlink : w.tree.lookupLink (c.base.join n) with
    | error fault =>
      rw [Tree.lookup_of_error hlink] at hm
      cases hm
    | ok e =>
      cases e with
      | context k =>
        obtain rfl := Tree.name_of_lookupLink hlink
        rw [Tree.lookup_of_lookupLink hlink fun next h => nomatch h] at hm
        cases hm
        exact .inl ⟨rfl, rfl⟩
      | object o =>
        have hblocked := fun (r : Request) (hr : r.Beneath) => Tree.serve_under_object hlink hr
        cases o with
        | link next => exact .inr ⟨⟨next, rfl⟩, hblocked⟩
        | _ =>
          rw [Tree.lookup_of_lookupLink hlink fun next h => nomatch h] at hm
          cases hm

-- what is asked is not to be computed where a lemma speaks of it
attribute [local irreducible] request

/-- The second server is reached.  The list of a context that was found does not change when a
name in it is bound a second time. -/
theorem handle_on_name_context :
    let w := start ["a", "b"] [("c", .context [("x", .object .null)])] [some .connectionClosed]
    let root : Context Unit := .owning ()
    let handle : Context Unit := .found ⟨["c"]⟩ ()
    let again : Request := .bind ⟨["x"]⟩ (.bool true)
    let found := w.request root (.lookup ⟨["c"]⟩)
    let later := found.2.after [(handle, again)]
    w.Sound ∧ (root.absolute (.lookup ⟨["c"]⟩)).Travels ∧
      found.1 = .ok (.entry (.context ⟨["c"]⟩)) ∧ later.tree = w.tree ∧
      (later.request handle (.list Name.root)).1 = .ok (.pairs [⟨"x", "null"⟩]) := by
  intro w root handle again found later
  have hw : w.Sound := sound_start _ _ _
  have hn : (root.absolute (.lookup ⟨["c"]⟩)).Travels := by decide
  have hfound : found.1 = .ok (.entry (.context ⟨["c"]⟩)) := by decide +kernel
  obtain ⟨-, htree, hlater, -⟩ := handle_on_name hw hn hfound
  obtain ⟨-, hkept⟩ := hlater [] again htree (by decide +kernel) (by decide) (by decide)
  have hrefused : (w.tree.serve (again.under ⟨["c"]⟩)).1 = .error (.nameAlreadyBound "c/x") := by
    decide +kernel
  have hunchanged : later.tree = w.tree := hkept.trans (Tree.eq_of_refused hrefused)
  obtain ⟨hlisted, -⟩ := hlater [(handle, again)] (.list Name.root) hunchanged
    (by decide +kernel) (by decide) (by decide)
  have hlist : Request.seen (.list ⟨["c"]⟩) (w.tree.serve (.list ⟨["c"]⟩)).1 =
      .ok (.pairs [⟨"x", "null"⟩]) := by
    decide +kernel
  exact ⟨hw, hn, hfound, hunchanged, hlisted.trans hlist⟩

def nested (levels : Nat) : Object := Nat.repeat (fun o => .list [o]) levels .null

/-- Where a link was followed, the handle is not on the context that was found; and what a
directory takes may be nested too deeply to reach it through a handle. -/
theorem handle_not_on_context :
    let t : Tree := [("c", .context [("x", .object .null)]), ("l", .object (.link ⟨["c"]⟩))]
    let w := start ["a"] t []
    let root : Context Unit := .owning ()
    let link : Context Unit := .found ⟨["l"]⟩ ()
    let handle : Context Unit := .found ⟨["c"]⟩ ()
    let linked := w.request root (.lookup ⟨["l"]⟩)
    let found := w.request root (.lookup ⟨["c"]⟩)
    (linked.1 = .ok (.entry (.context link.base)) ∧ t.lookup ⟨["l"]⟩ = .ok (.context ⟨["c"]⟩) ∧
      (linked.2.request link (.list Name.root)).1 = .error (.naming (.notContext "l")) ∧
      t.list ⟨["c"]⟩ = .ok [⟨"x", "null"⟩]) ∧
    found.1 = .ok (.entry (.context handle.base)) ∧
      (found.2.request handle (.bind ⟨["y"]⟩ (nested 65))).1.isOk = false ∧
      (t.bind ⟨["c", "y"]⟩ (nested 65)).isOk = true := by
  decide +kernel

end Client

end NameDirectory
