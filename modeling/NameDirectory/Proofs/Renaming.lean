import Mathlib.Data.List.Basic
import NameDirectory.Tree

/-!
# Renaming in place

A renaming takes a node away and then puts it elsewhere.  Once it is clear that the node may be
moved, there is a place for it: the walk to its new parent does not pass the binding that goes,
so the tree never loses what it cannot put back.

* `Tree.exists_walk_of_modify`: what is not beneath the binding that goes can still be walked to;
* `Tree.move_of_error`: a renaming that fails leaves the tree as it was;
* `Tree.serve_eq_answer`: so every request does, and serving is what `Tree.answer` says.
-/

namespace NameDirectory

theorem exists_of_bind_eq_ok {ε α β : Type} {x : Except ε α} {f : α → Except ε β} {b : β}
    (h : x >>= f = .ok b) : ∃ a, x = .ok a ∧ f a = .ok b := by
  cases x with
  | error e => simp [bind, Except.bind] at h
  | ok a => exact ⟨a, rfl, h⟩

theorem Name.components_of_splitLast {n parent : Name} {last : String}
    (h : n.splitLast = some (parent, last)) : n.components = parent.components ++ [last] := by
  unfold splitLast at h
  obtain ⟨k, hlast, heq⟩ := Option.map_eq_some_iff.mp h
  cases heq
  exact (List.dropLast_append_getLast? _ hlast).symm

namespace Tree

/-! ## Walks and changes -/

/-- A change without conditions can be made wherever a walk leads to. -/
theorem exists_modify_of_walk {t d : Tree} {path : List String} {w w' : Name} {seen seen' : List String}
    (f : Tree → Tree) (h : walk w seen t path = .ok d) :
    ∃ t', modify w' (fun c => .ok (f c)) seen' t path = .ok t' := by
  induction path generalizing t seen seen' with
  | nil => exact ⟨f t, rfl⟩
  | cons k path ih =>
    unfold walk at h
    unfold modify
    cases hk : t.find? k with
    | none =>
      rw [hk] at h
      cases h
    | some node =>
      rw [hk] at h
      cases node with
      | object o => cases h
      | context c =>
        obtain ⟨c', hc⟩ : ∃ c', modify w' (fun c => .ok (f c)) (seen' ++ [k]) c path = .ok c' := ih h
        refine ⟨t.insert k (.context c'), ?_⟩
        simp only [hc, Except.map]

/-- Where a change leaves every key but `last` as it was, the walks that do not pass that key
still lead somewhere. -/
theorem exists_walk_of_modify {change : Tree → Except NamingFault Tree} {last : String}
    (hchange : ∀ c c', change c = .ok c' → ∀ k, k ≠ last → c'.find? k = c.find? k)
    {t t' d : Tree} {path path' : List String} {w w' : Name} {seen seen' : List String}
    (hmodify : modify w change seen t path = .ok t') (hwalk : walk w' seen' t path' = .ok d)
    (hbeside : ¬ path ++ [last] <+: path') : ∃ d', walk w' seen' t' path' = .ok d' := by
  induction path generalizing t t' path' seen seen' with
  | nil =>
    cases path' with
    | nil => exact ⟨t', rfl⟩
    | cons k path' =>
      have hk : k ≠ last := by
        rintro rfl
        exact hbeside (List.cons_prefix_cons.mpr ⟨rfl, List.nil_prefix⟩)
      refine ⟨d, ?_⟩
      rw [← hwalk]
      simp only [walk, hchange t t' hmodify k hk]
  | cons a path ih =>
    obtain ⟨c, c', hfind, hc, rfl⟩ : ∃ c c', t.find? a = some (.context c) ∧
        modify w change (seen ++ [a]) c path = .ok c' ∧ t' = t.insert a (.context c') := by
      unfold modify at hmodify
      cases ha : t.find? a with
      | none =>
        rw [ha] at hmodify
        cases hmodify
      | some node =>
        rw [ha] at hmodify
        cases node with
        | object o => cases hmodify
        | context c =>
          cases hc : modify w change (seen ++ [a]) c path with
          | error fault =>
            simp only [hc, Except.map] at hmodify
            cases hmodify
          | ok c' =>
            simp only [hc, Except.map] at hmodify
            exact ⟨c, c', rfl, hc, (Except.ok.inj hmodify).symm⟩
    cases path' with
    | nil => exact ⟨_, rfl⟩
    | cons k path' =>
      by_cases hk : k = a
      · subst hk
        have hbelow : ¬ path ++ [last] <+: path' := fun h =>
          hbeside (List.cons_prefix_cons.mpr ⟨rfl, h⟩)
        simp only [walk, hfind] at hwalk
        obtain ⟨d', hd⟩ := ih hc hwalk hbelow
        refine ⟨d', ?_⟩
        simp only [walk, Keyed.find?_insert_self, hd]
      · refine ⟨d, ?_⟩
        rw [← hwalk]
        simp only [walk, Keyed.find?_insert_of_ne hk]

/-! ## Moves -/

theorem components_of_target {n parent : Name} {last : String} (h : target n = .ok (parent, last)) :
    n.components = parent.components ++ [last] := by
  unfold target at h
  cases hsplit : n.splitLast with
  | none =>
    rw [hsplit] at h
    cases h
  | some p =>
    rw [hsplit] at h
    cases h
    exact Name.components_of_splitLast hsplit

/-- What may be moved is not above the place that it goes to, and that place can be walked to. -/
theorem exists_of_movable {t : Tree} {n m : Name} {node : Node} (h : t.movable n m = .ok node) :
    ∃ parent last newParent newLast d, target n = .ok (parent, last) ∧
      target m = .ok (newParent, newLast) ∧ t.context newParent = .ok d ∧
      ¬ parent.components ++ [last] <+: newParent.components := by
  obtain ⟨⟨parent, last⟩, htarget, h⟩ := exists_of_bind_eq_ok h
  obtain ⟨⟨newParent, newLast⟩, htarget', h⟩ := exists_of_bind_eq_ok h
  cases hbeneath : m.startsWith n with
  | true =>
    simp only [hbeneath] at h
    cases h
  | false =>
    simp only [hbeneath] at h
    obtain ⟨c, -, h⟩ := exists_of_bind_eq_ok h
    cases hfind : c.find? last with
    | none =>
      simp only [hfind] at h
      cases h
    | some _ =>
      simp only [hfind] at h
      obtain ⟨d, hd, -⟩ := exists_of_bind_eq_ok h
      refine ⟨parent, last, newParent, newLast, d, htarget, htarget', hd, fun hprefix => ?_⟩
      have habove : n.components <+: m.components := by
        rw [components_of_target htarget, components_of_target htarget']
        exact hprefix.trans (List.prefix_append _ _)
      have hstarts : m.startsWith n = true := List.isPrefixOf_iff_prefix.mpr habove
      rw [hbeneath] at hstarts
      cases hstarts

theorem find?_of_erased {last : String} {fault : NamingFault} (c c' : Tree)
    (h : (if (c.find? last).isSome then Except.ok (c.erase last) else .error fault) = .ok c')
    (k : String) (hk : k ≠ last) : c'.find? k = c.find? k := by
  split at h
  · cases h
    exact Keyed.find?_erase_of_ne hk c
  · cases h

/-- What was taken away to be moved finds its place. -/
theorem exists_rebindNode_of_movable {t without : Tree} {n m : Name} {node : Node}
    (h : t.movable n m = .ok node) (hunbind : t.unbind n = .ok without) :
    ∃ t', without.rebindNode m node = .ok t' := by
  obtain ⟨parent, last, newParent, newLast, d, htarget, htarget', hwalk, hbeside⟩ :=
    exists_of_movable h
  simp only [unbind, htarget, Bind.bind, Except.bind, update] at hunbind
  obtain ⟨d', hd⟩ := exists_walk_of_modify find?_of_erased hunbind hwalk hbeside
  obtain ⟨t', ht⟩ := exists_modify_of_walk (fun c => c.insert newLast node) hd
  refine ⟨t', ?_⟩
  simp only [rebindNode, htarget', Bind.bind, Except.bind, update]
  exact ht

theorem move_of_error {t : Tree} {n m : Name} {fault : NamingFault}
    (h : (t.move n m).1 = .error fault) : t.move n m = (.error fault, t) := by
  unfold move at h ⊢
  cases hmovable : t.movable n m with
  | error fault' =>
    rw [hmovable] at h
    cases h
    rfl
  | ok node =>
    cases hunbind : t.unbind n with
    | error fault' =>
      simp only [hmovable, hunbind] at h
      cases h
      rfl
    | ok without =>
      obtain ⟨t', hrebind⟩ := exists_rebindNode_of_movable hmovable hunbind
      simp only [hmovable, hunbind, hrebind] at h
      cases h

/-! ## Requests -/

/-- Serving a request in place leaves what its answer leaves, and nothing of one that is refused. -/
theorem serve_eq_answer (t : Tree) (r : Request) :
    t.serve r =
      match t.answer r with
      | .ok (reply, t') => (.ok reply, t')
      | .error fault => (.error fault, t) := by
  cases r with
  | rename n m =>
    cases hmove : t.move n m with
    | mk result t' =>
      cases result with
      | ok u => simp only [serve, answer, rename, hmove]; rfl
      | error fault =>
        have hsame := move_of_error (congrArg Prod.fst hmove)
        rw [hmove] at hsame
        obtain rfl : t' = t := congrArg Prod.snd hsame
        simp only [serve, answer, rename, hmove]
        rfl
  | lookup n | lookupLink n | createSubcontext n | bind n o | rebind n o | unbind n | list n
  | listBindings n | destroySubcontext n => rfl

end Tree

end NameDirectory
