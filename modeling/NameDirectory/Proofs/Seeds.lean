import Mathlib.Data.List.Forall2
import NameDirectory.Proofs.Children
import NameDirectory.Proofs.Links
import NameDirectory.Proofs.Updates
import NameDirectory.Seeding

/-!
# Initial bindings

The bindings that a directory starts with are installed in order, each with the contexts above it.
The contexts are made under what the components of the name are read as, one by one, and so under
other keys than the name has where a component has a blank at one of its ends.

* `Tree.Ordered.makeContexts_of_clear`, `Tree.Ordered.makeContexts_of_object`: what the making of
  contexts does to the map, where components are read as themselves;
* `Tree.Planted`: what is known of a tree in which some bindings were installed, and
  `Tree.Planted.plant`: that one more keeps it;
* `Tree.Planted.seedOne_cases`, `Tree.Planted.seed_cases`: one more binding, or a list of them, is
  installed, or there is a reason why not;
* `Tree.seed_installs`: when a list is installed, why not, and what is there then.
-/

namespace NameDirectory

/-! ## Names above others -/

namespace Name

/-- `n` is a proper part of `m`, from the front. -/
def Above (n m : Name) : Prop := n.components <+: m.components ∧ n ≠ m

instance (n m : Name) : Decidable (n.Above m) := inferInstanceAs (Decidable (_ ∧ _))

/-- Neither name is the other or above it. -/
def Apart (n m : Name) : Prop := ¬ n.components <+: m.components ∧ ¬ m.components <+: n.components

instance (n m : Name) : Decidable (n.Apart m) := inferInstanceAs (Decidable (_ ∧ _))

theorem above_push_iff {n parent : Name} {last : String} :
    n.Above (parent.push last) ↔ n.components <+: parent.components := by
  constructor
  · rintro ⟨hpart, hne⟩
    rcases List.prefix_concat_iff.mp hpart with heq | hpart
    · exact absurd (congrArg Name.mk heq) hne
    · exact hpart
  · intro hpart
    refine ⟨hpart.trans (List.prefix_append _ _), fun heq => ?_⟩
    have hlength := hpart.length_le
    rw [heq, push, List.length_append, List.length_singleton] at hlength
    omega

theorem exists_push {n : Name} (h : n ≠ root) :
    ∃ (parent : Name) (last : String), n = parent.push last := by
  obtain ⟨components⟩ := n
  rcases List.eq_nil_or_concat components with rfl | ⟨parent, last, rfl⟩
  · exact absurd rfl h
  · exact ⟨⟨parent⟩, last, by rw [push, List.concat_eq_append]⟩

/-- A component without slashes is read as itself without the blanks at its ends, or as nothing. -/
theorem trim_of_mem_child {n : Name} {j k : String} (hslash : '/' ∉ k.toList)
    (hn : ∀ i ∈ n.components, Text.trim i = i) (hj : j ∈ (n.child k).components) :
    Text.trim j = j := by
  have htrim : '/' ∉ (Text.trim k).toList := by
    rw [Text.trim, String.toList_ofList]
    exact fun hmem => hslash ((Text.trimChars_sublist _).subset hmem)
  rcases List.mem_append.mp hj with hj | hj
  · exact hn j hj
  · rw [parse, ofComponents, Text.splitOn, List.splitOn_eq_singleton htrim, List.map_singleton,
      String.ofList_toList] at hj
    dsimp only at hj
    rw [List.mem_filter, List.mem_singleton] at hj
    rw [hj.1, Text.trim_trim]

end Name

/-! ## Making one context -/

namespace Tree

variable {t t' : Tree} {n : Name} {k : String} {o : Object} {part path : List String}

theorem barrier_of_object (h : t.paths part = .object o) (hpart : part <+: path) :
    t.paths.barrier path = some part := by
  induction path generalizing t part with
  | nil =>
    obtain rfl := List.prefix_nil.mp hpart
    cases h
  | cons k path ih =>
    rw [PathMap.barrier_cons t.paths_nil]
    cases part with
    | nil => cases h
    | cons j part =>
      obtain ⟨rfl, hrest⟩ := List.cons_prefix_cons.mp hpart
      cases hk : t.find? j with
      | none =>
        rw [paths, at?_cons, hk] at h
        cases h
      | some node =>
        cases node with
        | context d =>
          rw [paths_cons hk] at h
          rw [funext (paths_cons hk), ih h hrest]
          rfl
        | object o' =>
          cases part with
          | nil =>
            have hhere : (fun p => t.paths (j :: p)) [] ≠ .context := by simp [h]
            rw [PathMap.barrier_of_not_context hhere]
            rfl
          | cons i part =>
            rw [paths, at?_cons, hk] at h
            cases h

theorem obstacle_of_object (h : t.paths part = .object o) (hpart : part <+: n.components) :
    t.paths.obstacle n = some (.notContext (Name.ofComponents part).text) := by
  rw [PathMap.obstacle, barrier_of_object h hpart, Option.map_some, h]
  rfl

/-! ### Updates under a key -/

theorem outcome_of_obstacle (u : Update) {fault : NamingFault}
    (h : t.paths.obstacle n = some fault) : u.outcome (n.push k) t.paths = .error fault := by
  simp only [Update.outcome, Name.splitLast_push, h]

/-- In a context, what is under the key decides. -/
theorem outcome_of_clear (u : Update) {result : Except NamingFault Occupant}
    (hn : ∀ part, part <+: n.components → t.paths part = .context)
    (hsettle : ∀ populated,
      u.settle (n.push k) (t.paths (n.push k).components) populated = result) :
    u.outcome (n.push k) t.paths = result := by
  simp only [Update.outcome, Name.splitLast_push, PathMap.obstacle_eq_none_iff.mpr hn, hsettle]

namespace Ordered

/-- A context is made in a context, under a key that is free. -/
theorem createSubcontext_of_absent (h : t.Ordered)
    (hn : ∀ part, part <+: n.components → t.paths part = .context)
    (hfree : t.paths (n.push k).components = .absent) :
    ∃ t', t.createSubcontext (n.push k) = .ok t' ∧ t'.Ordered ∧
      t'.paths = t.paths.put (n.push k).components .context := by
  have happly := h.apply .createSubcontext (n.push k)
  rwa [outcome_of_clear .createSubcontext hn fun _ => if_pos hfree] at happly

theorem createSubcontext_of_bound (h : t.Ordered)
    (hn : ∀ part, part <+: n.components → t.paths part = .context)
    (hbound : t.paths (n.push k).components ≠ .absent) :
    t.createSubcontext (n.push k) = .error (.nameAlreadyBound (n.push k).text) := by
  have happly := h.apply .createSubcontext (n.push k)
  rwa [outcome_of_clear .createSubcontext hn fun _ => if_neg hbound] at happly

theorem createSubcontext_of_object (h : t.Ordered) (hpart : part <+: n.components)
    (hobject : t.paths part = .object o) :
    t.createSubcontext (n.push k) = .error (.notContext (Name.ofComponents part).text) := by
  have happly := h.apply .createSubcontext (n.push k)
  rwa [outcome_of_obstacle .createSubcontext (obstacle_of_object hobject hpart)] at happly

end Ordered

end Tree

/-! ## Making the contexts above a name -/

namespace PathMap

variable {m : PathMap} {p path : List String} {s : Occupant}

/-- The map with contexts all the way along a path. -/
def pave (m : PathMap) (path : List String) : PathMap := fun p =>
  if p <+: path then .context else m p

theorem pave_of_prefix (h : p <+: path) : m.pave path p = .context := if_pos h

theorem pave_of_not_prefix (h : ¬ p <+: path) : m.pave path p = m p := if_neg h

end PathMap

theorem Name.forall_prefix_push {n : Name} {k : String} {P : List String → Prop}
    (hn : ∀ part, part <+: n.components → P part) (hpush : P (n.push k).components) :
    ∀ part, part <+: (n.push k).components → P part := by
  intro part hpart
  rcases List.prefix_concat_iff.mp hpart with rfl | hpart
  · exact hpush
  · exact hn part hpart

theorem Name.not_push_prefix {n : Name} {k : String} {part : List String}
    (h : part <+: n.components) : ¬ (n.push k).components <+: part := fun hbelow => by
  have hlength := (hbelow.trans h).length_le
  rw [push, List.length_append, List.length_singleton] at hlength
  omega

namespace Tree

variable {t t' : Tree} {n : Name} {k : String} {o : Object} {part path : List String}

/-- Where nothing is bound, a context can be put without loss. -/
theorem pave_put (h : t.paths part = .absent) (hpart : part <+: path) :
    (t.paths.put part .context).pave path = t.paths.pave path := by
  funext p
  by_cases hp : p <+: path
  · rw [PathMap.pave_of_prefix hp, PathMap.pave_of_prefix hp]
  rw [PathMap.pave_of_not_prefix hp, PathMap.pave_of_not_prefix hp]
  have hne : p ≠ part := fun heq => hp (heq ▸ hpart)
  by_cases hbelow : part <+: p
  · obtain ⟨q, rfl⟩ := hbelow
    have hq : q ≠ [] := fun hq => hne (by rw [hq, List.append_nil])
    rw [PathMap.put_of_below (List.prefix_append _ _) hne, paths_append_of_not_context (by simp [h]) hq]
  · exact PathMap.put_of_not_prefix hbelow

theorem makeContexts_cons (t : Tree) {n : Name} (hk : Name.Single k) (path : List String) :
    t.makeContexts n (k :: path) =
      match t.createSubcontext (n.push k) with
      | .ok t' => t'.makeContexts (n.push k) path
      | .error (.nameAlreadyBound _) => t.makeContexts (n.push k) path
      | .error fault => (.error fault, t) := by
  have hchild := (n.child_eq_push_iff k).mpr hk
  cases hcreate : t.createSubcontext (n.push k) with
  | ok t' => simp only [makeContexts, hchild, hcreate]
  | error fault => cases fault <;> simp only [makeContexts, hchild, hcreate]

namespace Ordered

/-- Where no object is in the way, there are contexts all the way down afterwards, and everything
else is as before. -/
theorem makeContexts_of_clear (h : t.Ordered) (hsingle : ∀ k ∈ path, Name.Single k)
    (hn : ∀ part, part <+: n.components → t.paths part = .context)
    (hclear : ∀ part o, part <+: n.components ++ path → t.paths part ≠ .object o) :
    ∃ t', t.makeContexts n path = (.ok (), t') ∧ t'.Ordered ∧
      t'.paths = t.paths.pave (n.components ++ path) := by
  induction path generalizing t n with
  | nil =>
    refine ⟨t, rfl, h, funext fun p => ?_⟩
    rw [List.append_nil]
    by_cases hp : p <+: n.components
    · rw [PathMap.pave_of_prefix hp, hn p hp]
    · rw [PathMap.pave_of_not_prefix hp]
  | cons k path ih =>
    have hsingle' : ∀ k ∈ path, Name.Single k := fun j hj => hsingle j (List.mem_cons_of_mem k hj)
    have hwhole : n.components ++ k :: path = (n.push k).components ++ path := by
      rw [Name.push, List.append_assoc, List.singleton_append]
    have hnext : (n.push k).components <+: (n.push k).components ++ path := List.prefix_append _ _
    rw [hwhole] at hclear ⊢
    rw [makeContexts_cons t (hsingle k List.mem_cons_self)]
    cases hthere : t.paths (n.push k).components with
    | object o => exact absurd hthere (hclear _ o hnext)
    | context =>
      rw [h.createSubcontext_of_bound hn (by simp [hthere])]
      exact ih h hsingle' (Name.forall_prefix_push hn hthere) hclear
    | absent =>
      obtain ⟨t₁, hcreate, hordered, hpaths⟩ := h.createSubcontext_of_absent hn hthere
      have hn' : ∀ part, part <+: (n.push k).components → t₁.paths part = .context := by
        rw [hpaths]
        refine Name.forall_prefix_push (fun part hpart => ?_) (PathMap.put_self _ _ _)
        rw [PathMap.put_of_not_prefix (Name.not_push_prefix hpart), hn part hpart]
      have hclear' : ∀ part o, part <+: (n.push k).components ++ path → t₁.paths part ≠ .object o := by
        intro part o hpart
        by_cases hbelow : (n.push k).components <+: part
        · rw [hpaths, PathMap.put, if_pos hbelow]
          split <;> simp
        · rw [hpaths, PathMap.put_of_not_prefix hbelow]
          exact hclear part o hpart
      obtain ⟨t', hrest, hordered', hpaths'⟩ := ih hordered hsingle' hn' hclear'
      rw [hcreate]
      exact ⟨t', hrest, hordered', by rw [hpaths', hpaths, pave_put hthere hnext]⟩

/-- Where an object is in the way, nothing is made. The fault comes as soon as a context is asked for
beneath the object, and so not yet where the object is all the way down. -/
theorem makeContexts_of_object (h : t.Ordered) (hsingle : ∀ k ∈ path, Name.Single k)
    (hn : ∀ part, part <+: n.components → t.paths part = .context)
    (hpart : part <+: n.components ++ path) (hobject : t.paths part = .object o) :
    t.makeContexts n path =
      (if part = n.components ++ path then .ok ()
        else .error (.notContext (Name.ofComponents part).text), t) := by
  induction path generalizing n with
  | nil =>
    rw [List.append_nil] at hpart
    rw [hn part hpart] at hobject
    cases hobject
  | cons k path ih =>
    have hsingle' : ∀ k ∈ path, Name.Single k := fun j hj => hsingle j (List.mem_cons_of_mem k hj)
    have hwhole : n.components ++ k :: path = (n.push k).components ++ path := by
      rw [Name.push, List.append_assoc, List.singleton_append]
    have hnext : (n.push k).components <+: (n.push k).components ++ path := List.prefix_append _ _
    rw [hwhole] at hpart ⊢
    rw [makeContexts_cons t (hsingle k List.mem_cons_self)]
    -- the object is not above the next name, so it is there or beneath it
    have hbelow : (n.push k).components <+: part := by
      rcases List.prefix_or_prefix_of_prefix hpart hnext with habove | hbelow
      · rcases List.prefix_concat_iff.mp habove with rfl | habove
        · exact List.prefix_rfl
        · rw [hn part habove] at hobject
          cases hobject
      · exact hbelow
    by_cases hhere : (n.push k).components = part
    · subst hhere
      rw [h.createSubcontext_of_bound hn (by simp [hobject])]
      cases path with
      | nil => simp [makeContexts]
      | cons j path =>
        have hrefused := h.createSubcontext_of_object (n := n.push k) (k := j) List.prefix_rfl hobject
        have hmore : (n.push k).components ≠ (n.push k).components ++ j :: path := by simp
        dsimp only
        rw [makeContexts_cons t (hsingle' j List.mem_cons_self), hrefused, if_neg hmore]
    · have hbound : t.paths part ≠ .absent := by simp [hobject]
      have hthere := paths_of_above hbound hbelow hhere
      rw [h.createSubcontext_of_bound hn (by simp [hthere])]
      exact ih hsingle' (Name.forall_prefix_push hn hthere) hpart

/-! ### Whatever the components are -/

theorem createSubcontext_ok (h : t.Ordered) (hok : t.createSubcontext n = .ok t') :
    t'.Ordered ∧ t'.paths = t.paths.put n.components .context := by
  have happly := h.apply .createSubcontext n
  cases houtcome : Update.outcome .createSubcontext n t.paths with
  | error fault =>
    rw [houtcome] at happly
    cases happly.symm.trans hok
  | ok s =>
    have hs : s = .context := by
      unfold Update.outcome Update.settle at houtcome
      split at houtcome
      · cases houtcome
      split at houtcome
      · cases houtcome
      dsimp only at houtcome
      split at houtcome
      · cases houtcome
        rfl
      · cases houtcome
    subst hs
    rw [houtcome] at happly
    obtain ⟨t₁, hok₁, hordered, hpaths⟩ := happly
    cases hok₁.symm.trans hok
    exact ⟨hordered, hpaths⟩

end Ordered

/-- The keys of contexts have no blanks at their ends. -/
def Trimmed (t : Tree) : Prop := ∀ path k, t.paths (path ++ [k]) = .context → Text.trim k = k

theorem Trimmed.empty : Tree.empty.Trimmed := fun path k h => by cases path <;> cases h

theorem Trimmed.put_context (h : t.Trimmed) (hn : ∀ j ∈ n.components, Text.trim j = j)
    (hpaths : t'.paths = t.paths.put n.components .context) : t'.Trimmed := by
  intro path k hk
  rw [hpaths, PathMap.put] at hk
  split at hk
  · next hname => exact hn k (hname ▸ by simp)
  · split at hk
    · cases hk
    · exact h path k hk

/-- The contexts that are made have trimmed keys, even if not all are made. -/
theorem Trimmed.makeContexts (htrim : t.Trimmed) (h : t.Ordered)
    (hn : ∀ j ∈ n.components, Text.trim j = j) (hpath : ∀ k ∈ path, '/' ∉ k.toList) :
    (t.makeContexts n path).2.Ordered ∧ (t.makeContexts n path).2.Trimmed := by
  induction path generalizing t n with
  | nil => exact ⟨h, htrim⟩
  | cons k path ih =>
    have hn' : ∀ j ∈ (n.child k).components, Text.trim j = j := fun j hj =>
      Name.trim_of_mem_child (hpath k List.mem_cons_self) hn hj
    have hpath' : ∀ k ∈ path, '/' ∉ k.toList := fun j hj => hpath j (List.mem_cons_of_mem k hj)
    rw [Tree.makeContexts]
    split
    · next t' hcreate =>
      obtain ⟨hordered, hpaths⟩ := h.createSubcontext_ok hcreate
      exact ih (htrim.put_context hn' hpaths) hordered hn' hpath'
    · exact ih htrim h hn' hpath'
    · exact ⟨h, htrim⟩

/-- Through a key that is not trimmed no walk leads. -/
theorem Trimmed.exists_obstacle (htrim : t.Trimmed) (hk : k ∈ n.components)
    (hne : Text.trim k ≠ k) : ∃ fault, t.paths.obstacle n = some fault := by
  by_contra hnone
  rw [← Option.isSome_iff_exists, Option.not_isSome_iff_eq_none, PathMap.obstacle_eq_none_iff] at hnone
  obtain ⟨before, after, hsplit⟩ := List.append_of_mem hk
  refine hne (htrim before k (hnone _ ?_))
  rw [hsplit]
  exact ⟨after, by simp⟩

end Tree

/-! ## Installing one binding -/

theorem readSeed_spec {text : String} {n : Name} {o : Object} (h : readSeed text = .ok (n, o)) :
    n ≠ Name.root ∧ ∀ k ∈ n.components, k ≠ "" ∧ '/' ∉ k.toList := by
  unfold readSeed at h
  split at h
  · cases h
  · dsimp only at h
    split at h
    · cases h
    · next hroot =>
      simp only [Except.ok.injEq, Prod.mk.injEq] at h
      obtain ⟨rfl, -⟩ := h
      refine ⟨fun heq => hroot ?_, fun k hk => Name.of_mem_parse hk⟩
      rw [heq]
      rfl

namespace Tree

variable {t t' : Tree} {parent : Name} {last k text : String} {o o' : Object} {part : List String}

namespace Ordered

theorem rebind_of_obstacle (h : t.Ordered) {fault : NamingFault}
    (hobstacle : t.paths.obstacle parent = some fault) :
    t.rebind (parent.push last) o = .error fault := by
  have happly := h.apply (.rebind o) (parent.push last)
  rwa [outcome_of_obstacle (.rebind o) hobstacle] at happly

theorem rebind_of_clear (h : t.Ordered) (last : String) (o : Object)
    (hparent : ∀ part, part <+: parent.components → t.paths part = .context) :
    ∃ t', t.rebind (parent.push last) o = .ok t' ∧ t'.Ordered ∧
      t'.paths = t.paths.put (parent.push last).components (.object o) := by
  have happly := h.apply (.rebind o) (parent.push last)
  rwa [outcome_of_clear (.rebind o) hparent fun _ => rfl] at happly

end Ordered

theorem seedOne_of_read (t : Tree) (hread : readSeed text = .ok (parent.push last, o)) :
    t.seedOne text =
      match t.makeContexts Name.root parent.components with
      | (.error fault, t) => (.error (.naming fault), t)
      | (.ok (), t) =>
        match t.rebind (parent.push last) o with
        | .ok t => (.ok (), t)
        | .error fault => (.error (.naming fault), t) := by
  have hparent : (parent.push last).components.dropLast = parent.components := List.dropLast_concat
  rcases hmake : t.makeContexts Name.root parent.components with ⟨fault | u, t₁⟩
  · simp only [seedOne, hread, hparent, hmake]
  · cases hrebind : t₁.rebind (parent.push last) o <;>
      simp only [seedOne, hread, hparent, hmake, hrebind]

theorem single_of_read (hread : readSeed text = .ok (parent.push last, o))
    (htrimmed : ∀ k ∈ parent.components, Text.trim k = k) : ∀ k ∈ parent.components, Name.Single k := by
  intro k hk
  obtain ⟨hnonempty, hslash⟩ := (readSeed_spec hread).2 k (List.mem_append_left _ hk)
  exact ⟨hnonempty, hslash, htrimmed k hk⟩

theorem paths_of_root (t : Tree) : ∀ part, part <+: Name.root.components → t.paths part = .context := by
  intro part hpart
  rw [List.prefix_nil.mp hpart]
  rfl

namespace Ordered

theorem seedOne_of_clear (h : t.Ordered) (hread : readSeed text = .ok (parent.push last, o))
    (htrimmed : ∀ k ∈ parent.components, Text.trim k = k)
    (hclear : ∀ part o', part <+: parent.components → t.paths part ≠ .object o') :
    ∃ t', t.seedOne text = (.ok (), t') ∧ t'.Ordered ∧
      t'.paths = (t.paths.pave parent.components).put (parent.push last).components (.object o) := by
  obtain ⟨t₁, hmake, hordered, hpaths⟩ :=
    h.makeContexts_of_clear (single_of_read hread htrimmed) t.paths_of_root hclear
  rw [Name.root, List.nil_append] at hpaths
  have hparent : ∀ part, part <+: parent.components → t₁.paths part = .context :=
    fun part hpart => hpaths ▸ PathMap.pave_of_prefix hpart
  obtain ⟨t', hrebind, hordered', hpaths'⟩ := hordered.rebind_of_clear last o hparent
  refine ⟨t', ?_, hordered', hpaths ▸ hpaths'⟩
  rw [t.seedOne_of_read hread, hmake]
  simp only [hrebind]

theorem seedOne_of_object (h : t.Ordered) (hread : readSeed text = .ok (parent.push last, o))
    (htrimmed : ∀ k ∈ parent.components, Text.trim k = k) (hpart : part <+: parent.components)
    (hobject : t.paths part = .object o') :
    t.seedOne text = (.error (.naming (.notContext (Name.ofComponents part).text)), t) := by
  have hmake := h.makeContexts_of_object (single_of_read hread htrimmed) t.paths_of_root hpart hobject
  rw [t.seedOne_of_read hread, hmake]
  split
  · next hfault =>
    split at hfault <;> cases hfault
    rfl
  · next hok =>
    cases (Prod.mk.inj hok).2
    simp only [h.rebind_of_obstacle (obstacle_of_object hobject hpart)]

theorem seedOne_of_untrimmed (h : t.Ordered) (htrim : t.Trimmed)
    (hread : readSeed text = .ok (parent.push last, o)) (hk : k ∈ parent.components)
    (hne : Text.trim k ≠ k) : ∃ fault t', t.seedOne text = (.error (.naming fault), t') := by
  have hpath : ∀ k ∈ parent.components, '/' ∉ k.toList := fun k hk =>
    ((readSeed_spec hread).2 k (List.mem_append_left _ hk)).2
  obtain ⟨hordered, htrim'⟩ := htrim.makeContexts (n := Name.root) h nofun hpath
  rw [t.seedOne_of_read hread]
  generalize t.makeContexts Name.root parent.components = made at hordered htrim'
  obtain ⟨fault | u, t₁⟩ := made
  · exact ⟨fault, t₁, rfl⟩
  · obtain ⟨fault, hobstacle⟩ := htrim'.exists_obstacle hk hne
    refine ⟨fault, t₁, ?_⟩
    simp only [hordered.rebind_of_obstacle hobstacle]

end Ordered

/-! ### What is installed so far -/

/-- A tree in which the bindings `done` were installed, in this order. -/
structure Planted (t : Tree) (done : List (Name × Object)) : Prop where
  ordered : t.Ordered
  trimmed : t.Trimmed
  /-- No object is there but by a binding. -/
  source : ∀ path o, t.paths path = .object o → (⟨path⟩, o) ∈ done
  /-- A binding is still there, or one above it is. -/
  covered : ∀ s ∈ done, ∃ part o, part <+: s.1.components ∧ t.paths part = .object o
  /-- A binding that no later one touches is still there. -/
  standing : ∀ before s after, done = before ++ s :: after → (∀ d ∈ after, s.1.Apart d.1) →
    t.paths s.1.components = .object s.2

namespace Planted

variable {done : List (Name × Object)}

theorem empty : Tree.empty.Planted [] where
  ordered := .empty
  trimmed := .empty
  source path o h := by cases path <;> cases h
  covered := nofun
  standing before s after h := by simp at h

/-- One more binding, where no object is above it. -/
theorem plant (h : t.Planted done) (hordered : t'.Ordered)
    (htrimmed : ∀ k ∈ parent.components, Text.trim k = k)
    (hclear : ∀ part o, part <+: parent.components → t.paths part ≠ .object o)
    (hpaths : t'.paths =
      (t.paths.pave parent.components).put (parent.push last).components (.object o)) :
    t'.Planted (done ++ [(parent.push last, o)]) where
  ordered := hordered
  trimmed := by
    intro path k hk
    rw [hpaths, PathMap.put] at hk
    split at hk
    · cases hk
    split at hk
    · cases hk
    by_cases hpart : path ++ [k] <+: parent.components
    · exact htrimmed k (hpart.subset (by simp))
    · rw [PathMap.pave_of_not_prefix hpart] at hk
      exact h.trimmed path k hk
  source := by
    intro path o' ho'
    rw [hpaths, PathMap.put] at ho'
    split at ho'
    · next hhere =>
      cases ho'
      exact List.mem_append_right _ (by rw [hhere]; exact List.mem_singleton_self _)
    split at ho'
    · cases ho'
    rw [PathMap.pave] at ho'
    split at ho'
    · cases ho'
    · exact List.mem_append_left _ (h.source path o' ho')
  covered := by
    intro s hs
    have hnew : t'.paths (parent.push last).components = .object o := by rw [hpaths, PathMap.put_self]
    rcases List.mem_append.mp hs with hs | hs
    · obtain ⟨part, o', hpart, hobject⟩ := h.covered s hs
      -- what was at the new name or beneath it is gone, but then the new object is above `s`
      by_cases hbelow : (parent.push last).components <+: part
      · exact ⟨_, o, hbelow.trans hpart, hnew⟩
      · refine ⟨part, o', hpart, ?_⟩
        rw [hpaths, PathMap.put_of_not_prefix hbelow,
          PathMap.pave_of_not_prefix fun habove => hclear part o' habove hobject, hobject]
    · rw [List.mem_singleton.mp hs]
      exact ⟨_, o, List.prefix_rfl, hnew⟩
  standing := by
    intro before s after hsplit hafter
    -- the new binding is `s` itself, or the last of those after it
    rcases List.eq_nil_or_concat after with rfl | ⟨later, s', rfl⟩
    · obtain ⟨-, hlast⟩ := List.append_inj' hsplit rfl
      obtain rfl := (List.cons.inj hlast).1
      rw [hpaths, PathMap.put_self]
    · rw [List.concat_eq_append, ← List.cons_append, ← List.append_assoc] at hsplit
      obtain ⟨hdone, hlast⟩ := List.append_inj' hsplit rfl
      obtain rfl := (List.cons.inj hlast).1
      rw [List.concat_eq_append] at hafter
      have hapart := hafter _ (List.mem_append_right _ List.mem_cons_self)
      have hbeside : ¬ s.1.components <+: parent.components := fun hpart =>
        hapart.1 (hpart.trans (List.prefix_append _ _))
      rw [hpaths, PathMap.put_of_not_prefix hapart.2, PathMap.pave_of_not_prefix hbeside]
      exact h.standing before s later hdone fun d hd => hafter d (List.mem_append_left _ hd)

/-- The objects above a name are bindings, and a binding above a name keeps an object there. -/
theorem exists_object_iff (h : t.Planted done) :
    (∃ part o, part <+: parent.components ∧ t.paths part = .object o) ↔
      ∃ d ∈ done, d.1.components <+: parent.components := by
  constructor
  · rintro ⟨part, o, hpart, hobject⟩
    exact ⟨_, h.source part o hobject, hpart⟩
  · rintro ⟨d, hd, habove⟩
    obtain ⟨part, o, hpart, hobject⟩ := h.covered d hd
    exact ⟨part, o, hpart.trans habove, hobject⟩

end Planted

/-- Why `n` cannot be bound after `done`: a component above the last has a blank at an end, or an
object is above `n`, which `fault` names and which `t` still has. -/
def Blocked (t : Tree) (done : List (Name × Object)) (n : Name) (fault : NamingFault) : Prop :=
  (∃ k ∈ n.components.dropLast, Text.trim k ≠ k) ∨
    ∃ d ∈ done, d.1.Above n ∧ fault = .notContext d.1.text ∧ t.paths d.1.components = .object d.2

/-- `n` can be bound after `done`. -/
def Plantable (done : List (Name × Object)) (n : Name) : Prop :=
  (∀ k ∈ n.components.dropLast, Text.trim k = k) ∧ ∀ d ∈ done, ¬ d.1.Above n

namespace Planted

variable {done : List (Name × Object)} {s : Name × Object}

/-- One more binding is installed, or there is a reason why it is not. -/
theorem seedOne_cases (h : t.Planted done) (hread : readSeed text = .ok s) :
    (Plantable done s.1 ∧ ∃ t', t.seedOne text = (.ok (), t') ∧ t'.Planted (done ++ [s])) ∨
      ∃ fault t', t.seedOne text = (.error (.naming fault), t') ∧ t'.Blocked done s.1 fault := by
  obtain ⟨n, o⟩ := s
  obtain ⟨hroot, hplain⟩ := readSeed_spec hread
  obtain ⟨parent, last, rfl⟩ := Name.exists_push hroot
  have hparent : (parent.push last).components.dropLast = parent.components := List.dropLast_concat
  simp only [Plantable, Blocked, hparent]
  by_cases htrimmed : ∀ k ∈ parent.components, Text.trim k = k
  · by_cases habove : ∃ part o', part <+: parent.components ∧ t.paths part = .object o'
    · right
      obtain ⟨part, o', hpart, hobject⟩ := habove
      refine ⟨_, t, h.ordered.seedOne_of_object hread htrimmed hpart hobject, .inr ?_⟩
      have hfull : "" ∉ part := fun hmem =>
        (hplain "" (List.mem_append_left _ (hpart.subset hmem))).1 rfl
      exact ⟨_, h.source part o' hobject, Name.above_push_iff.mpr hpart,
        by rw [Name.ofComponents_of_not_mem hfull], hobject⟩
    · left
      obtain ⟨t', hseed, hordered, hpaths⟩ := h.ordered.seedOne_of_clear hread htrimmed
        fun part o' hpart hobject => habove ⟨part, o', hpart, hobject⟩
      refine ⟨⟨htrimmed, fun d hd hn => habove ?_⟩, t', hseed, h.plant hordered htrimmed
        (fun part o' hpart hobject => habove ⟨part, o', hpart, hobject⟩) hpaths⟩
      exact h.exists_object_iff.mpr ⟨d, hd, Name.above_push_iff.mp hn⟩
  · right
    simp only [not_forall] at htrimmed
    obtain ⟨k, hk, hne⟩ := htrimmed
    obtain ⟨fault, t', hseed⟩ := h.ordered.seedOne_of_untrimmed h.trimmed hread hk hne
    exact ⟨fault, t', hseed, .inl ⟨k, hk, hne⟩⟩

/-- All of the bindings are installed, or there is a first that is not. -/
theorem seed_cases {texts : List String} {seeds : List (Name × Object)} (h : t.Planted done)
    (hread : List.Forall₂ (fun text s => readSeed text = .ok s) texts seeds) :
    (∃ t', t.seed texts = (.ok (), t') ∧ t'.Planted (done ++ seeds) ∧
        (∀ s ∈ seeds, Plantable done s.1) ∧ seeds.Pairwise fun a b => ¬ a.1.Above b.1) ∨
      ∃ before s after fault t', seeds = before ++ s :: after ∧
        t.seed texts = (.error (.naming fault), t') ∧ t'.Blocked (done ++ before) s.1 fault := by
  induction hread generalizing t done with
  | nil => exact .inl ⟨t, rfl, by rwa [List.append_nil], nofun, .nil⟩
  | @cons text s texts seeds hone _ ih =>
    rcases h.seedOne_cases hone with ⟨hplantable, t₁, hseed, h₁⟩ | ⟨fault, t₁, hseed, hblocked⟩
    · have hwhole (rest : List (Name × Object)) : done ++ [s] ++ rest = done ++ s :: rest := by simp
      rcases ih h₁ with ⟨t', hrest, h', hall, hpair⟩ |
        ⟨before, s', after, fault, t', rfl, hrest, hblocked⟩
      · left
        have hlater : ∀ s' ∈ seeds, Plantable done s'.1 ∧ ¬ s.1.Above s'.1 := fun s' hs' =>
          ⟨⟨(hall s' hs').1, fun d hd => (hall s' hs').2 d (List.mem_append_left _ hd)⟩,
            (hall s' hs').2 s (List.mem_append_right _ List.mem_cons_self)⟩
        refine ⟨t', by simp only [seed, hseed, hrest], hwhole _ ▸ h', ?_, ?_⟩
        · exact List.forall_mem_cons.mpr ⟨hplantable, fun s' hs' => (hlater s' hs').1⟩
        · exact hpair.cons fun s' hs' => (hlater s' hs').2
      · right
        exact ⟨s :: before, s', after, fault, t', rfl, by simp only [seed, hseed, hrest],
          hwhole before ▸ hblocked⟩
    · right
      exact ⟨[], s, seeds, fault, t₁, rfl, by simp only [seed, hseed], by rwa [List.append_nil]⟩

end Planted

/-- A name bound to an object is found, and so are the contexts above it. -/
theorem lookupLink_of_object {n : Name} (h : t.paths n.components = .object o) :
    t.lookupLink n = .ok (.object o) ∧ ∀ m, m.Above n → t.lookupLink m = .ok (.context m) := by
  have habove : ∀ part, part <+: n.components → part ≠ n.components → t.paths part = .context :=
    fun part hpart hne => paths_of_above (by simp [h]) hpart hne
  have hfind {m : Name} (hpart : m.components <+: n.components) :
      (m.splitLast.bind fun p => t.paths.obstacle p.1) = none := by
    by_cases hroot : m = Name.root
    · rw [hroot]
      rfl
    · obtain ⟨parent, last, rfl⟩ := Name.exists_push hroot
      rw [Name.splitLast_push, Option.bind_some, PathMap.obstacle_eq_none_iff]
      intro part hparent
      have hshort := (List.prefix_append parent.components [last]).trans hpart
      refine habove part (hparent.trans hshort) fun heq => ?_
      exact Name.not_push_prefix (heq ▸ hparent) hpart
  refine ⟨?_, fun m hm => ?_⟩
  · rw [lookupLink_eq, PathMap.find, hfind List.prefix_rfl, h]
  · have hcontext := habove _ hm.1 fun heq => hm.2 (by cases m; cases n; exact congrArg Name.mk heq)
    rw [lookupLink_eq, PathMap.find, hfind hm.1, hcontext]

end Tree

/-! ## Bindings as they are written -/

/-- A binding with the text of its name and that of its value. -/
structure Seed where
  name : String
  value : String

namespace Seed

def text (b : Seed) : String := b.name ++ "=" ++ b.value

def target (b : Seed) : Name := Name.parse b.name

def object (b : Seed) : Object := Shell.parseObject b.value

/-- The text of the name ends where the first `=` is, and there is something in it. -/
structure WellFormed (b : Seed) : Prop where
  plain : '=' ∉ b.name.toList
  named : b.target ≠ Name.root

variable {b : Seed}

theorem WellFormed.read (h : b.WellFormed) : readSeed b.text = .ok (b.target, b.object) := by
  have hcut : Text.splitFirst "=" b.text = some (b.name, b.value) := by
    have htext : b.text.toList = b.name.toList ++ '=' :: b.value.toList := by simp [text]
    rw [Text.splitFirst, htext, show "=".toList = ['='] from rfl, Text.cutFirst_append_cons h.plain]
    simp
  have hroot : b.target.isRoot = false := by
    have hnamed := h.named
    generalize b.target = n at hnamed
    obtain ⟨components⟩ := n
    cases components with
    | nil => exact absurd rfl hnamed
    | cons k rest => rfl
  rw [target] at hroot
  simp only [readSeed, hcut, hroot]
  rfl

theorem forall₂_read {bindings : List Seed} (h : ∀ b ∈ bindings, b.WellFormed) :
    List.Forall₂ (fun text s => readSeed text = .ok s) (bindings.map text)
      (bindings.map fun b => (b.target, b.object)) := by
  rw [List.forall₂_map_left_iff, List.forall₂_map_right_iff, List.forall₂_same]
  exact fun b hb => (h b hb).read

end Seed

namespace Tree

/-- A list of bindings is installed in an empty directory exactly if no component above the last of
a name has a blank at an end and no name is above one that comes later.  A list without such blanks
is refused only at a binding whose name an earlier one is above, which is still there.  After
success a name is bound to its value, in contexts, unless it is at, above or below a later one. -/
theorem seed_installs {bindings : List Seed} (hform : ∀ b ∈ bindings, b.WellFormed) :
    let made := Tree.empty.seed (bindings.map Seed.text)
    (made.1 = .ok () ↔
      (∀ b ∈ bindings, ∀ k ∈ b.target.components.dropLast, Text.trim k = k) ∧
        bindings.Pairwise fun a b => ¬ a.target.Above b.target) ∧
    (∀ fault, made.1 = .error fault → ∃ before b after, bindings = before ++ b :: after ∧
      ((∃ k ∈ b.target.components.dropLast, Text.trim k ≠ k) ∨
        ∃ d ∈ before, d.target.Above b.target ∧ fault = .naming (.notContext d.target.text) ∧
          made.2.lookupLink d.target = .ok (.object d.object))) ∧
    (made.1 = .ok () → ∀ before b after, bindings = before ++ b :: after →
      (∀ d ∈ after, b.target.Apart d.target) →
        made.2.lookupLink b.target = .ok (.object b.object) ∧
          ∀ n, n.Above b.target → made.2.lookupLink n = .ok (.context n)) := by
  intro made
  rcases Planted.empty.seed_cases (Seed.forall₂_read hform) with
    ⟨t', hseed, hplanted, hall, hpair⟩ | ⟨_, _, _, fault, t', hsplit, hseed, hblocked⟩
  · have hmade : made = (.ok (), t') := hseed
    rw [hmade]
    refine ⟨⟨fun _ => ⟨fun b hb => ?_, List.pairwise_map.mp hpair⟩, fun _ => rfl⟩, nofun, ?_⟩
    · exact (hall _ (List.mem_map_of_mem hb)).1
    · intro _ before b after hsplit hapart
      have hstanding := hplanted.standing (before.map _) (b.target, b.object) (after.map _)
        (by rw [hsplit, List.map_append, List.map_cons, List.nil_append])
        fun d hd => by
          obtain ⟨e, he, rfl⟩ := List.mem_map.mp hd
          exact hapart e he
      exact lookupLink_of_object hstanding
  · have hmade : made = (.error (.naming fault), t') := hseed
    rw [hmade]
    obtain ⟨before, rest, rfl, rfl, hrest⟩ := List.map_eq_append_iff.mp hsplit
    obtain ⟨b, after, rfl, rfl, rfl⟩ := List.map_eq_cons_iff.mp hrest
    refine ⟨⟨nofun, fun ⟨htrimmed, hpair⟩ => ?_⟩, fun fault' hfault => ?_, nofun⟩
    · rcases hblocked with ⟨k, hk, hne⟩ | ⟨d, hd, habove, -⟩
      · exact absurd (htrimmed b (by simp) k hk) hne
      · obtain ⟨e, he, rfl⟩ := List.mem_map.mp hd
        exact absurd habove ((List.pairwise_append.mp hpair).2.2 e he b List.mem_cons_self)
    · cases hfault
      refine ⟨before, b, after, rfl, hblocked.imp_right ?_⟩
      rintro ⟨d, hd, habove, rfl, hobject⟩
      obtain ⟨e, he, rfl⟩ := List.mem_map.mp hd
      exact ⟨e, he, habove, rfl, (lookupLink_of_object hobject).1⟩

/-- Two bindings in one context. -/
theorem seed_installs_two :
    let bindings : List Seed := [⟨"a/b", "1"⟩, ⟨"a/c", "x"⟩]
    let made := Tree.empty.seed (bindings.map Seed.text)
    (∀ b ∈ bindings, b.WellFormed) ∧ made.1 = .ok () ∧
      made.2.lookupLink ⟨["a", "b"]⟩ = .ok (.object (Shell.parseObject "1")) := by
  intro bindings made
  have hform : ∀ b ∈ bindings, b.WellFormed := by
    simp only [bindings, List.forall_mem_cons]
    exact ⟨⟨by decide +kernel, by decide +kernel⟩, ⟨by decide +kernel, by decide +kernel⟩, nofun⟩
  obtain ⟨hok, -, hfound⟩ := seed_installs hform
  have hmade := hok.mpr ⟨by decide +kernel, by decide +kernel⟩
  refine ⟨hform, hmade, ?_⟩
  have hname : Seed.target ⟨"a/b", "1"⟩ = ⟨["a", "b"]⟩ := by decide +kernel
  exact hname ▸ (hfound hmade [] _ _ rfl (by decide +kernel)).1

/-- A component with a blank at its end: the context above the name is made under another key, and
then is not found. -/
theorem seed_installs_astray :
    let b : Seed := ⟨"a /b", "1"⟩
    let made := Tree.empty.seed [b.text]
    b.WellFormed ∧ b.target = ⟨["a ", "b"]⟩ ∧ made.1 = .error (.naming (.nameNotFound "a ")) ∧
      made.2.lookupLink ⟨["a"]⟩ = .ok (.context ⟨["a"]⟩) ∧
      made.2.lookupLink ⟨["a "]⟩ = .error (.nameNotFound "a ") := by
  intro b made
  exact ⟨⟨by decide +kernel, by decide +kernel⟩, by decide +kernel, by decide +kernel,
    by decide +kernel, by decide +kernel⟩

end Tree

end NameDirectory
