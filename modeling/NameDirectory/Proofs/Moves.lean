import NameDirectory.Proofs.Updates

/-!
# Moving what is bound to a name

A renaming takes a node with all that lies beneath it to another path.  When that may be is decided
on the map of the tree.

* `Tree.movable_eq_ok_iff`: what may be moved, and what is moved;
* `Tree.serve_rename`: a renaming moves the node, and nothing else; or it fails, and nothing
  changes;
* `Tree.ordered_after`: requests keep the keys in order, so every tree that they lead to has the
  order that the statements on maps ask for.
-/

namespace NameDirectory

/-- What is bound to `n` may be moved to `m`. -/
structure PathMap.MayMove (p : PathMap) (n m : Name) : Prop where
  source_named : n.components ≠ []
  target_named : m.components ≠ []
  not_beneath : ¬ n.components <+: m.components
  bound : p n.components ≠ .absent
  reached : ∀ part, part <+: m.components.dropLast → p part = .context
  free : p m.components = .absent

theorem Name.exists_splitLast {n : Name} (h : n.components ≠ []) :
    ∃ parent last, n.splitLast = some (parent, last) := by
  refine ⟨⟨n.components.dropLast⟩, n.components.getLast h, ?_⟩
  simp [splitLast, List.getLast?_eq_some_getLast h]

namespace Tree

variable {t t' : Tree} {n m : Name} {node : Node}

/-! ## What may be moved -/

theorem ok_of_movable (h : t.movable n m = .ok node) :
    t.at? n.components = some node ∧ t.paths.MayMove n m := by
  obtain ⟨⟨parent, last⟩, hn, h⟩ := exists_of_bind_eq_ok h
  obtain ⟨⟨newParent, newLast⟩, hm, h⟩ := exists_of_bind_eq_ok h
  have hn := components_of_target hn
  have hm := components_of_target hm
  cases hstarts : m.startsWith n with
  | true =>
    simp only [hstarts] at h
    cases h
  | false =>
    simp only [hstarts] at h
    obtain ⟨c, hc, h⟩ := exists_of_bind_eq_ok h
    have hc := context_eq_ok_iff.mp hc
    cases hfind : c.find? last with
    | none =>
      simp only [hfind] at h
      cases h
    | some found =>
      simp only [hfind] at h
      obtain ⟨d, hd, h⟩ := exists_of_bind_eq_ok h
      have hd := context_eq_ok_iff.mp hd
      split at h
      · cases h
      · next hfree =>
        cases h
        have hbound : t.at? n.components = some node := by
          rw [hn]
          exact at?_concat_eq_some_iff.mpr ⟨c, hc, hfind⟩
        refine ⟨hbound, ?_⟩
        constructor
        case source_named => simp [hn]
        case target_named => simp [hm]
        case not_beneath =>
          rw [← List.isPrefixOf_iff_prefix]
          exact ne_true_of_eq_false hstarts
        case bound =>
          rw [paths, ne_eq, Occupant.ofNode?_eq_absent, hbound]
          exact Option.some_ne_none node
        case reached =>
          rw [hm, List.dropLast_concat]
          exact fun part hpart => paths_of_prefix hd hpart
        case free =>
          rw [hm, paths_append hd, paths_singleton, Occupant.ofNode?_eq_absent]
          simpa using hfree

/-- What may be moved is decided on the map, and it is what is bound to the name. -/
theorem movable_eq_ok_iff :
    t.movable n m = .ok node ↔ t.at? n.components = some node ∧ t.paths.MayMove n m := by
  refine ⟨ok_of_movable, fun ⟨hbound, h⟩ => ?_⟩
  obtain ⟨parent, last, hn⟩ := Name.exists_splitLast h.source_named
  obtain ⟨newParent, newLast, hm⟩ := Name.exists_splitLast h.target_named
  have hstarts : m.startsWith n = false := by
    rw [Name.startsWith, ← Bool.not_eq_true, List.isPrefixOf_iff_prefix]
    exact h.not_beneath
  rw [Name.components_of_splitLast hn, at?_concat_eq_some_iff] at hbound
  obtain ⟨c, hc, hfind⟩ := hbound
  have hreached := h.reached
  rw [Name.components_of_splitLast hm, List.dropLast_concat] at hreached
  obtain ⟨d, hd, hd'⟩ := exists_context_of_clear (PathMap.obstacle_eq_none_iff.mpr hreached)
  have hfree : Keyed.find? newLast d = none := by
    have hfree := h.free
    rw [Name.components_of_splitLast hm, paths_append hd', paths_singleton,
      Occupant.ofNode?_eq_absent] at hfree
    exact hfree
  simp only [movable, target, hn, hm, hstarts, context_eq_ok_iff.mpr hc, hfind, hd, hfree,
    Bind.bind, Except.bind]
  rfl

/-! ## Where it goes -/

/-- To put a node at a name is to graft it into the parent of the name. -/
theorem rebindNode_spec {t' : Tree} (h : t.rebindNode n node = .ok t') :
    (∀ s, t'.at? (n.components ++ s) = node.at? s) ∧
    (∀ p, ¬ n.components <+: p → t'.paths p = t.paths p) ∧
    (t.Ordered → node.Ordered → t'.Ordered) := by
  obtain ⟨⟨parent, last⟩, htarget, h⟩ := exists_of_bind_eq_ok h
  have hn := components_of_target htarget
  dsimp only at h
  rw [update_eq] at h
  obtain ⟨c, hcontext, h⟩ := exists_of_bind_eq_ok h
  have hc := context_eq_ok_iff.mp hcontext
  cases h
  refine ⟨fun s => ?_, fun p hp => ?_, fun ht hnode => ?_⟩
  · rw [hn, List.append_assoc, at?_graft hc, List.singleton_append, at?_cons,
      Keyed.find?_insert_self, Option.bind_some]
  · rw [hn] at hp
    exact paths_graft_of_key hc (fun k hk => Keyed.find?_insert_of_ne hk _ c) hp
  · have hbindings : Ordered c := ht.at? hc
    exact ht.graft (hbindings.insert hnode last) _

theorem Ordered.unbind (h : t.Ordered) (hbound : t.at? n.components = some node)
    (hname : n.components ≠ []) :
    ∃ without, t.unbind n = .ok without ∧ without.Ordered ∧
      without.paths = t.paths.put n.components .absent := by
  obtain ⟨parent, last, hsplit⟩ := Name.exists_splitLast hname
  have hclear : t.paths.obstacle parent = none := by
    rw [Name.components_of_splitLast hsplit, at?_concat_eq_some_iff] at hbound
    obtain ⟨c, hc, -⟩ := hbound
    exact PathMap.obstacle_eq_none_iff.mpr fun part hpart => paths_of_prefix hc hpart
  have hthere : t.paths n.components ≠ .absent := by
    rw [paths, hbound, ne_eq, Occupant.ofNode?_eq_absent]
    exact Option.some_ne_none node
  have houtcome : Update.outcome .unbind n t.paths = .ok .absent := by
    simp only [Update.outcome, hsplit, hclear, Update.settle, if_neg hthere]
  have happly := h.apply .unbind n
  rw [houtcome] at happly
  exact happly

/-- A renaming changes nothing, or takes a node away and puts it elsewhere. -/
theorem Ordered.move_cases (h : t.Ordered) (n m : Name) :
    (∃ fault, t.movable n m = .error fault ∧ t.move n m = (.error fault, t)) ∨
    ∃ node without t', t.movable n m = .ok node ∧ t.unbind n = .ok without ∧
      without.rebindNode m node = .ok t' ∧ t.move n m = (.ok (), t') := by
  cases hmovable : t.movable n m with
  | error fault =>
    refine .inl ⟨fault, rfl, ?_⟩
    simp only [move, hmovable]
  | ok node =>
    obtain ⟨hbound, hmay⟩ := movable_eq_ok_iff.mp hmovable
    obtain ⟨without, hunbind, -⟩ := h.unbind hbound hmay.source_named
    obtain ⟨t', hrebind⟩ := exists_rebindNode_of_movable hmovable hunbind
    refine .inr ⟨node, without, t', rfl, hunbind, hrebind, ?_⟩
    simp only [move, hmovable, hunbind, hrebind]

theorem not_prefix_of_mayMove (h : t.paths.MayMove n m) : ¬ m.components <+: n.components := by
  rintro ⟨rest, heq⟩
  have hbound := h.bound
  have hfree := h.free
  rw [paths, Occupant.ofNode?_eq_absent] at hfree
  rw [paths, ← heq, at?_append, hfree] at hbound
  exact hbound rfl

theorem Ordered.moved (h : t.Ordered) {without t' : Tree} (hmovable : t.movable n m = .ok node)
    (hunbind : t.unbind n = .ok without) (hrebind : without.rebindNode m node = .ok t') :
    t'.Ordered ∧
    (∀ s, t'.at? (m.components ++ s) = t.at? (n.components ++ s)) ∧
    (∀ s, t'.paths (n.components ++ s) = .absent) ∧
    ∀ p, ¬ n.components <+: p → ¬ m.components <+: p → t'.paths p = t.paths p := by
  obtain ⟨hbound, hmay⟩ := movable_eq_ok_iff.mp hmovable
  obtain ⟨_, hunbind', hordered, hpaths⟩ := h.unbind hbound hmay.source_named
  obtain rfl := Except.ok.inj (hunbind'.symm.trans hunbind)
  obtain ⟨hthere, helsewhere, hkept⟩ := rebindNode_spec hrebind
  refine ⟨hkept hordered (h.at? hbound), fun s => ?_, fun s => ?_, fun p hn hm => ?_⟩
  · rw [hthere, at?_append, hbound, Option.bind_some]
  -- of the two places neither lies beneath the other, so what is put at one is not at the other
  · have hbeside : ¬ m.components <+: n.components ++ s := fun hbegins =>
      (List.prefix_or_prefix_of_prefix hbegins (List.prefix_append _ s)).elim
        (not_prefix_of_mayMove hmay) hmay.not_beneath
    rw [helsewhere _ hbeside, hpaths, PathMap.put, if_pos (List.prefix_append _ s)]
    split <;> rfl
  · have hne : p ≠ n.components := fun heq => hn (heq ▸ List.prefix_rfl)
    rw [helsewhere p hm, hpaths, PathMap.put, if_neg hne, if_neg hn]

/-- A request to rename changes nothing, or moves what may be moved. -/
theorem Ordered.rename_cases (h : t.Ordered) (n m : Name) :
    (∃ fault, t.serve (.rename n m) = (.error fault, t)) ∨
    ∃ t', t.serve (.rename n m) = (.ok .void, t') ∧ t.paths.MayMove n m ∧ t'.Ordered ∧
      (∀ s, t'.at? (m.components ++ s) = t.at? (n.components ++ s)) ∧
      (∀ s, t'.paths (n.components ++ s) = .absent) ∧
      ∀ p, ¬ n.components <+: p → ¬ m.components <+: p → t'.paths p = t.paths p := by
  rcases h.move_cases n m with ⟨fault, -, hmove⟩ |
    ⟨node, without, t', hmovable, hunbind, hrebind, hmove⟩
  · refine .inl ⟨fault, ?_⟩
    simp only [serve, hmove, Except.map]
  · refine .inr ⟨t', ?_, (movable_eq_ok_iff.mp hmovable).2, h.moved hmovable hunbind hrebind⟩
    simp only [serve, hmove, Except.map]

/-- A renaming takes what is bound to a name, if it may be moved, with all that lies beneath it, to
the other name: nothing is left at the first name or beneath it, and every path that is at or
beneath neither of the two is as before.  If it may not be moved, nothing changes; once it was taken
away, it finds its place. -/
theorem serve_rename (h : t.Ordered) (n m : Name) :
    ((t.serve (.rename n m)).1 = .ok .void ↔ t.paths.MayMove n m) ∧
    (∀ reply t', t.serve (.rename n m) = (.ok reply, t') →
      t'.Ordered ∧
      (∀ s, t'.at? (m.components ++ s) = t.at? (n.components ++ s)) ∧
      (∀ s, t'.paths (n.components ++ s) = .absent) ∧
      ∀ p, ¬ n.components <+: p → ¬ m.components <+: p → t'.paths p = t.paths p) ∧
    (∀ fault t', t.serve (.rename n m) = (.error fault, t') → t' = t) ∧
    ∀ node without, t.movable n m = .ok node → t.unbind n = .ok without →
      ∃ t', without.rebindNode m node = .ok t' := by
  have hrefused : ∀ {fault}, t.movable n m = .error fault → ¬ t.paths.MayMove n m := by
    intro fault hmovable hmay
    have hnode : t.at? n.components ≠ none := fun hnone =>
      hmay.bound (Occupant.ofNode?_eq_absent.mpr hnone)
    obtain ⟨node, hnode⟩ := Option.ne_none_iff_exists'.mp hnode
    cases hmovable.symm.trans (movable_eq_ok_iff.mpr ⟨hnode, hmay⟩)
  rcases h.move_cases n m with ⟨fault, hmovable, hmove⟩ |
    ⟨node, without, t', hmovable, hunbind, hrebind, hmove⟩
  · have hserve : t.serve (.rename n m) = (.error fault, t) := by
      simp only [serve, hmove, Except.map]
    rw [hserve]
    refine ⟨⟨fun hok => ?_, fun hmay => absurd hmay (hrefused hmovable)⟩, fun reply t' hok => ?_,
      fun fault' t' heq => ?_, fun _ _ => exists_rebindNode_of_movable⟩
    · cases hok
    · cases hok
    · cases heq
      rfl
  · have hserve : t.serve (.rename n m) = (.ok .void, t') := by
      simp only [serve, hmove, Except.map]
    rw [hserve]
    refine ⟨⟨fun _ => (movable_eq_ok_iff.mp hmovable).2, fun _ => rfl⟩, fun reply t'' heq => ?_,
      fun fault t'' hfails => ?_, fun _ _ => exists_rebindNode_of_movable⟩
    · cases heq
      exact h.moved hmovable hunbind hrebind
    · cases hfails

/-- A context goes beneath another one, and what is bound in it goes with it. -/
theorem serve_rename_context :
    let t : Tree := [("a", .context [("x", .object .null)]), ("b", .context [])]
    let t' : Tree := [("b", .context [("c", .context [("x", .object .null)])])]
    t.Ordered ∧ t.paths.MayMove ⟨["a"]⟩ ⟨["b", "c"]⟩ ∧
      t.serve (.rename ⟨["a"]⟩ ⟨["b", "c"]⟩) = (.ok .void, t') ∧
      t'.at? ["b", "c", "x"] = t.at? ["a", "x"] ∧ t'.paths ["a", "x"] = .absent ∧
      t'.paths ["b"] = t.paths ["b"] := by
  intro t t'
  have hordered : t.Ordered :=
    (Ordered.empty.insert Ordered.empty "b").insert (Ordered.empty.insert (.object .null) "x") "a"
  have hserve : t.serve (.rename ⟨["a"]⟩ ⟨["b", "c"]⟩) = (.ok .void, t') := rfl
  obtain ⟨hok, hmoved, -⟩ := serve_rename hordered ⟨["a"]⟩ ⟨["b", "c"]⟩
  obtain ⟨-, hthere, hgone, hkept⟩ := hmoved _ _ hserve
  exact ⟨hordered, hok.mp (congrArg Prod.fst hserve), hserve, hthere ["x"], hgone ["x"],
    hkept ["b"] (by decide) (by decide)⟩

/-! ## Order is kept -/

theorem Ordered.serve_request (h : t.Ordered) (u : Update) (n : Name) :
    (t.serve (u.request n)).2.Ordered := by
  have hserve := h.serve_outcome u n
  split at hserve
  · rw [hserve]
    exact h
  · obtain ⟨t', hok, hordered, -⟩ := hserve
    rw [hok]
    exact hordered

/-- A request updates one name, renames, or only reads. -/
theorem serve_cases (t : Tree) (r : Request) :
    (∃ u n, r = Update.request n u) ∨ (∃ n m, r = .rename n m) ∨
    (∃ n, r = .lookup n ∨ r = .lookupLink n ∨ r = .list n ∨ r = .listBindings n) ∧
      (t.serve r).2 = t := by
  cases r with
  | bind n o => exact .inl ⟨.bind o, n, rfl⟩
  | rebind n o => exact .inl ⟨.rebind o, n, rfl⟩
  | unbind n => exact .inl ⟨.unbind, n, rfl⟩
  | createSubcontext n => exact .inl ⟨.createSubcontext, n, rfl⟩
  | destroySubcontext n => exact .inl ⟨.destroySubcontext, n, rfl⟩
  | rename n m => exact .inr (.inl ⟨n, m, rfl⟩)
  | lookup n =>
    refine .inr (.inr ⟨⟨n, by simp⟩, ?_⟩)
    simp only [Tree.serve, answer]
    cases t.lookup n <;> rfl
  | lookupLink n =>
    refine .inr (.inr ⟨⟨n, by simp⟩, ?_⟩)
    simp only [Tree.serve, answer]
    cases t.lookupLink n <;> rfl
  | list n =>
    refine .inr (.inr ⟨⟨n, by simp⟩, ?_⟩)
    simp only [Tree.serve, answer]
    cases t.list n <;> rfl
  | listBindings n =>
    refine .inr (.inr ⟨⟨n, by simp⟩, ?_⟩)
    simp only [Tree.serve, answer]
    cases t.listBindings n <;> rfl

/-- A request keeps the keys in order. -/
theorem Ordered.serve (h : t.Ordered) (r : Request) : (t.serve r).2.Ordered := by
  rcases serve_cases t r with ⟨u, n, rfl⟩ | ⟨n, m, rfl⟩ | ⟨-, hsame⟩
  · exact h.serve_request u n
  · rcases h.move_cases n m with ⟨fault, -, hmove⟩ |
      ⟨node, without, t', hmovable, hunbind, hrebind, hmove⟩
    · simp only [Tree.serve, hmove]
      exact h
    · simp only [Tree.serve, hmove]
      exact (h.moved hmovable hunbind hrebind).1
  · rw [hsame]
    exact h

/-- What requests, served one after the other, make of a tree. -/
def after (t : Tree) (requests : List Request) : Tree :=
  requests.foldl (fun t r => (t.serve r).2) t

theorem ordered_after (requests : List Request) : (Tree.empty.after requests).Ordered := by
  suffices ∀ t : Tree, t.Ordered → (t.after requests).Ordered from this _ Ordered.empty
  induction requests with
  | nil => exact fun _ h => h
  | cons r requests ih => exact fun t h => ih _ (h.serve r)

end Tree

end NameDirectory
