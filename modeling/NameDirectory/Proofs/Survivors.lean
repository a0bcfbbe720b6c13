import NameDirectory.Proofs.Moves

/-!
# What is still bound after a request

Only a context that is empty can be destroyed.  Rebinding and unbinding ask for no such thing: they
take whatever is bound to their name, and a context goes with all that it holds.  No other request
loses an object.

* `Request.relocated`: where a request leaves what is at a path;
* `Tree.not_prefix_of_outcome`: an update of another kind has no object at its name or beneath it;
* `Tree.kept_or_cleared`: what every request keeps, and what the two lose.
-/

namespace NameDirectory

namespace Request

def cleared? : Request → Option Name
  | rebind n _ | unbind n => some n
  | bind .. | rename .. | createSubcontext _ | destroySubcontext _ | lookup _ | list _
  | listBindings _ | lookupLink _ => none

/-- Where what is at a path is after the request. -/
def relocated : Request → List String → List String
  | rename n m, p =>
    if n.components <+: p then m.components ++ p.drop n.components.length else p
  | _, p => p

end Request

namespace Tree

variable {t t' : Tree} {p : List String} {o : Object}

theorem populated_of_object {path : List String} (h : t.paths p = .object o) (hpath : path <+: p)
    (hne : p ≠ path) : t.paths.Populated path := by
  obtain ⟨q, rfl⟩ := hpath
  cases q with
  | nil => exact absurd (List.append_nil path) hne
  | cons k q =>
    refine ⟨k, fun hfree => ?_⟩
    have hnone : t.paths (path ++ [k]) ≠ .context := by simp [hfree]
    cases q with
    | nil => cases hfree.symm.trans h
    | cons j q =>
      have hbeneath := paths_append_of_not_context hnone (List.cons_ne_nil j q)
      rw [List.append_assoc, List.singleton_append] at hbeneath
      cases hbeneath.symm.trans h

/-- An update that takes nothing but what it may has no object at its name or beneath it. -/
theorem not_prefix_of_outcome {u : Update} {n : Name} {s : Occupant}
    (houtcome : u.outcome n t.paths = .ok s) (hkept : (u.request n).cleared? = none)
    (ho : t.paths p = .object o) : ¬ n.components <+: p := by
  intro hbelow
  have hsettle := Update.settle_of_outcome houtcome
  by_cases hp : p = n.components
  · rw [← hp, ho] at hsettle
    cases u with
    | bind | createSubcontext | destroySubcontext => cases hsettle
    | rebind | unbind => cases hkept
  · have hcontext : t.paths n.components = .context :=
      paths_of_above (by simp [ho]) hbelow (Ne.symm hp)
    rw [hcontext, decide_eq_true (populated_of_object ho hbelow hp)] at hsettle
    cases u with
    | bind | createSubcontext | destroySubcontext => cases hsettle
    | rebind | unbind => cases hkept

theorem object_of_put {n : Name} {s : Occupant} (hpaths : t'.paths = t.paths.put n.components s)
    (ho : t.paths p = .object o) (hp : ¬ n.components <+: p) : t'.paths p = .object o := by
  rw [hpaths, PathMap.put_of_not_prefix hp, ho]

/-- A request that is served loses no object, wherever it is bound; the objects that a renaming
moves are where it moves them.  Rebinding and unbinding alone are an exception: of the objects that
are not at their name they lose those beneath it, and no others, and there are such only if the name
stands for a context. -/
theorem kept_or_cleared (h : t.Ordered) {r : Request} {reply : Reply}
    (hserve : t.serve r = (.ok reply, t')) (ho : t.paths p = .object o) :
    (r.cleared? = none → t'.paths (r.relocated p) = .object o) ∧
    ∀ n, r.cleared? = some n → p ≠ n.components →
      (t'.paths p = .object o ↔ ¬ n.components <+: p) ∧
      (n.components <+: p → t.paths n.components = .context ∧ t'.paths p = .absent) := by
  rcases serve_cases t r with ⟨u, n, rfl⟩ | ⟨n, m, rfl⟩ | ⟨⟨n, hreads⟩, hsame⟩
  · have hupdate := h.serve_outcome u n
    cases houtcome : u.outcome n t.paths with
    | error fault =>
      simp only [houtcome] at hupdate
      cases hserve.symm.trans hupdate
    | ok s =>
      simp only [houtcome] at hupdate
      obtain ⟨_, hok, -, hpaths⟩ := hupdate
      cases hserve.symm.trans hok
      refine ⟨fun hkept => ?_, fun n' hn' hne => ?_⟩
      · have hplace : (u.request n).relocated p = p := by cases u <;> rfl
        rw [hplace]
        exact object_of_put hpaths ho (not_prefix_of_outcome houtcome hkept ho)
      · obtain rfl : n' = n := by cases u <;> cases hn' <;> rfl
        have hgone : n'.components <+: p → t'.paths p = .absent := fun hbelow => by
          rw [hpaths, PathMap.put_of_below hbelow hne]
        refine ⟨⟨fun hthere hbelow => ?_, object_of_put hpaths ho⟩, fun hbelow => ?_⟩
        · cases hthere.symm.trans (hgone hbelow)
        · exact ⟨paths_of_above (by simp [ho]) hbelow (Ne.symm hne), hgone hbelow⟩
  · rcases h.rename_cases n m with ⟨fault, hfails⟩ | ⟨_, hok, hmay, -, hthere, -, helsewhere⟩
    · cases hserve.symm.trans hfails
    cases hserve.symm.trans hok
    refine ⟨fun _ => ?_, fun n hn => by cases hn⟩
    by_cases hbelow : n.components <+: p
    · obtain ⟨s, rfl⟩ := hbelow
      rw [Request.relocated, if_pos (List.prefix_append _ s), List.drop_left, paths, hthere]
      exact ho
    -- the new name is free, so no object is beneath it
    · have hm : ¬ m.components <+: p := fun hm => by
        by_cases hp : m.components = p
        · cases (hp ▸ hmay.free).symm.trans ho
        · cases hmay.free.symm.trans (paths_of_above (by simp [ho]) hm hp)
      rw [Request.relocated, if_neg hbelow, helsewhere p hbelow hm]
      exact ho
  · obtain rfl : t' = t := by
      rw [hserve] at hsame
      exact hsame
    rcases hreads with rfl | rfl | rfl | rfl <;> exact ⟨fun _ => ho, fun n hn => by cases hn⟩

/-- A context is moved with the object in it, and another one is unbound with the object in it. -/
theorem kept_or_cleared_context :
    let t : Tree := [("a", .context [("x", .object .null)]), ("b", .context [])]
    let moved : Tree := [("b", .context [("c", .context [("x", .object .null)])])]
    t.Ordered ∧ t.paths ["a", "x"] = .object .null ∧
      t.serve (.rename ⟨["a"]⟩ ⟨["b", "c"]⟩) = (.ok .void, moved) ∧
      moved.paths ["b", "c", "x"] = .object .null ∧
      t.serve (.unbind ⟨["a"]⟩) = (.ok .void, [("b", .context [])]) ∧
      Tree.paths [("b", .context [])] ["a", "x"] = .absent := by
  intro t moved
  have hordered : t.Ordered :=
    (Ordered.empty.insert Ordered.empty "b").insert (Ordered.empty.insert (.object .null) "x") "a"
  have hobject : t.paths ["a", "x"] = .object .null := by decide
  have hrename : t.serve (.rename ⟨["a"]⟩ ⟨["b", "c"]⟩) = (.ok .void, moved) := rfl
  have hunbind : t.serve (.unbind ⟨["a"]⟩) = (.ok .void, [("b", .context [])]) := rfl
  have hkept := (kept_or_cleared hordered hrename hobject).1 rfl
  obtain ⟨-, hlost⟩ := (kept_or_cleared hordered hunbind hobject).2 ⟨["a"]⟩ rfl (by decide)
  exact ⟨hordered, hobject, hrename, hkept, hunbind, (hlost (by decide)).2⟩

/-- A context that cannot be destroyed, for there is an object in it, can be unbound, and another
object can be put in its place; the one in it is lost both times. -/
theorem populated_context_discarded :
    let t : Tree := [("c", .context [("x", .object (.integer 7))])]
    let unbound : Tree := []
    let rebound : Tree := [("c", .object .null)]
    t.Ordered ∧ t.paths ["c", "x"] = .object (.integer 7) ∧
      t.serve (.destroySubcontext ⟨["c"]⟩) = (.error (.contextNotEmpty "c"), t) ∧
      t.serve (.unbind ⟨["c"]⟩) = (.ok .void, unbound) ∧ unbound.paths ["c", "x"] = .absent ∧
      t.serve (.rebind ⟨["c"]⟩ .null) = (.ok .void, rebound) ∧ rebound.paths ["c", "x"] = .absent := by
  intro t unbound rebound
  have hordered : t.Ordered := Ordered.empty.insert (Ordered.empty.insert (.object (.integer 7)) "x") "c"
  exact ⟨hordered, by decide, rfl, rfl, by decide, rfl, by decide⟩

end Tree

end NameDirectory
