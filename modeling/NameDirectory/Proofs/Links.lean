import NameDirectory.Proofs.Paths
import NameDirectory.Proofs.Renaming

/-!
# Links

A lookup follows links only where a whole name ends at one, and gives up after eight.

* `Tree.lookupLink_eq`: what a name itself stands for is read off the map of the tree;
* `Tree.follow_of_chain`, `Tree.follow_of_long`: a chain of links that ends in time is followed to
  its end, a longer one is given up;
* `Tree.lookup_follows`: what a lookup gives, by the chain of links that starts at its name.
-/

namespace NameDirectory

/-! ## What a name itself stands for -/

/-- What a name stands for on the map, links not followed. -/
def PathMap.find (m : PathMap) (n : Name) : Except NamingFault Entry :=
  match n.splitLast.bind fun p => m.obstacle p.1 with
  | some fault => .error fault
  | none =>
    match m n.components with
    | .absent => .error (.nameNotFound n.text)
    | .object o => .ok (.object o)
    | .context => .ok (.context n)

namespace Tree

variable {t : Tree} {n m last : Name} {hops k : Nat}

theorem lookupLink_eq (t : Tree) (n : Name) : t.lookupLink n = t.paths.find n := by
  unfold lookupLink PathMap.find
  cases hsplit : n.splitLast with
  | none =>
    have hroot : n = Name.root := by
      obtain ⟨components⟩ := n
      simpa [Name.splitLast, Name.root] using hsplit
    subst hroot
    rfl
  | some p =>
    obtain ⟨parent, last⟩ := p
    simp only [Option.bind_some]
    cases hobstacle : t.paths.obstacle parent with
    | some fault =>
      simp only [context_of_obstacle hobstacle]
      rfl
    | none =>
      obtain ⟨c, hcontext, hc⟩ := exists_context_of_clear hobstacle
      rw [Name.components_of_splitLast hsplit, paths_append hc, paths_singleton]
      simp only [hcontext, Bind.bind, Except.bind]
      rcases c.find? last with - | ⟨o⟩ | ⟨d⟩ <;> rfl

/-- A name that stands for a context leads to it through contexts only, and is its own name. -/
theorem context_of_lookupLink (h : t.lookupLink n = .ok (.context m)) :
    m = n ∧ t.paths.barrier n.components = none := by
  rw [lookupLink_eq] at h
  unfold PathMap.find at h
  split at h
  · cases h
  · split at h
    · cases h
    · cases h
    · next hclear hcontext =>
      cases h
      obtain ⟨c, hc⟩ := Occupant.ofNode?_eq_context.mp hcontext
      exact ⟨rfl, PathMap.barrier_eq_none_iff.mpr fun part hpart => paths_of_prefix hc hpart⟩

/-- What is not found is named, or the part of the name that is in the way. -/
theorem fault_of_lookupLink {fault : NamingFault} (h : t.lookupLink n = .error fault) :
    fault = .nameNotFound n.text ∨
      ∃ parent last, n.splitLast = some (parent, last) ∧ t.paths.obstacle parent = some fault := by
  rw [lookupLink_eq] at h
  unfold PathMap.find at h
  split at h
  · next hobstacle =>
    cases h
    obtain ⟨⟨parent, last⟩, hsplit, hfault⟩ := Option.bind_eq_some_iff.mp hobstacle
    exact .inr ⟨parent, last, hsplit, hfault⟩
  · split at h <;> cases h
    exact .inl rfl

/-! ## Chains -/

/-- The name that a link bound to `n` stands for. -/
def linkTarget? (t : Tree) (n : Name) : Option Name :=
  match t.lookupLink n with
  | .ok (.object (.link next)) => some next
  | _ => none

/-- The name that `k` links lead to from `n`. -/
def chain (t : Tree) (n : Name) : Nat → Option Name
  | 0 => some n
  | k + 1 => (t.chain n k).bind t.linkTarget?

theorem linkTarget?_eq_some_iff {next : Name} :
    t.linkTarget? n = some next ↔ t.lookupLink n = .ok (.object (.link next)) := by
  unfold linkTarget?
  split
  · next next' h => simp [h]
  · next h => exact ⟨fun h' => (nomatch h'), fun h' => absurd h' (h next)⟩

theorem chain_succ (t : Tree) (n : Name) (k : Nat) :
    t.chain n (k + 1) = (t.linkTarget? n).bind fun next => t.chain next k := by
  -- a chain grows at its end, and a lookup follows it from its start
  induction k with
  | zero => simp [chain]
  | succ k ih => rw [chain, ih, Option.bind_assoc]; rfl

theorem follow_of_end (h : t.linkTarget? n = none) (hops : Nat) :
    t.follow hops n = t.lookupLink n := by
  unfold follow
  split
  · next next hlink => cases h.symm.trans (linkTarget?_eq_some_iff.mpr hlink)
  · rfl

theorem follow_of_link {next : Name} (h : t.linkTarget? n = some next) (hops : Nat) :
    t.follow (hops + 1) n = t.follow hops next := by
  rw [follow, linkTarget?_eq_some_iff.mp h]

theorem follow_of_chain (hchain : t.chain n k = some last) (hend : t.linkTarget? last = none)
    (hk : k ≤ hops) : t.follow hops n = t.lookupLink last := by
  induction hops generalizing n k with
  | zero =>
    obtain rfl := Nat.le_zero.mp hk
    cases hchain
    exact follow_of_end hend 0
  | succ hops ih =>
    cases k with
    | zero =>
      cases hchain
      exact follow_of_end hend (hops + 1)
    | succ k =>
      rw [chain_succ] at hchain
      obtain ⟨next, hnext, hrest⟩ := Option.bind_eq_some_iff.mp hchain
      rw [follow_of_link hnext]
      exact ih hrest (Nat.le_of_succ_le_succ hk)

/-- A longer one is given up at the link that is one too many. -/
theorem follow_of_long (hchain : t.chain n hops = some last) (hlink : (t.linkTarget? last).isSome) :
    t.follow hops n = .error (.other ("too many link hops resolving '" ++ last.text ++ "'")) := by
  induction hops generalizing n with
  | zero =>
    cases hchain
    obtain ⟨next, hnext⟩ := Option.isSome_iff_exists.mp hlink
    rw [follow, linkTarget?_eq_some_iff.mp hnext]
  | succ hops ih =>
    rw [chain_succ] at hchain
    obtain ⟨next, hnext, hrest⟩ := Option.bind_eq_some_iff.mp hchain
    rw [follow_of_link hnext]
    exact ih hrest

theorem chain_cases (t : Tree) (n : Name) (hops : Nat) :
    (∃ k last, k ≤ hops ∧ t.chain n k = some last ∧ t.linkTarget? last = none) ∨
    ∃ last, t.chain n hops = some last ∧ (t.linkTarget? last).isSome := by
  induction hops with
  | zero =>
    cases hnext : t.linkTarget? n with
    | none => exact .inl ⟨0, n, le_rfl, rfl, hnext⟩
    | some next => exact .inr ⟨n, rfl, by simp [hnext]⟩
  | succ hops ih =>
    rcases ih with ⟨k, last, hk, hchain, hend⟩ | ⟨last, hchain, hlink⟩
    · exact .inl ⟨k, last, Nat.le_succ_of_le hk, hchain, hend⟩
    · obtain ⟨next, hnext⟩ := Option.isSome_iff_exists.mp hlink
      have hchain' : t.chain n (hops + 1) = some next := by
        rw [chain, hchain, Option.bind_some, hnext]
      cases hend : t.linkTarget? next with
      | none => exact .inl ⟨hops + 1, next, le_rfl, hchain', hend⟩
      | some next' => exact .inr ⟨next, hchain', by simp [hend]⟩

/-- A lookup of a name from which at most eight links lead on gives what the last name of their
chain itself stands for, and its faults are those of that name; if there are more, the lookup gives
up at the ninth.  So it never gives a link, and a context that it gives goes by a name that leads to
it through contexts only. -/
theorem lookup_follows (t : Tree) (n : Name) :
    (∀ k last, k ≤ 8 → t.chain n k = some last → t.linkTarget? last = none →
      t.lookup n = t.lookupLink last ∧
      ∀ fault, t.lookup n = .error fault → fault = .nameNotFound last.text ∨
        ∃ parent key, last.splitLast = some (parent, key) ∧ t.paths.obstacle parent = some fault) ∧
    (∀ last, t.chain n 8 = some last → (t.linkTarget? last).isSome →
      t.lookup n = .error (.other ("too many link hops resolving '" ++ last.text ++ "'"))) ∧
    ((∃ k last, k ≤ 8 ∧ t.chain n k = some last ∧ t.linkTarget? last = none) ∨
      ∃ last, t.chain n 8 = some last ∧ (t.linkTarget? last).isSome) ∧
    (∀ next, t.lookup n ≠ .ok (.object (.link next))) ∧
    ∀ m, t.lookup n = .ok (.context m) →
      ∃ k c, k ≤ 8 ∧ t.chain n k = some m ∧ t.context m = .ok c ∧
        t.at? m.components = some (.context c) ∧
        ∀ part, part <+: m.components → t.paths part = .context := by
  have hfollowed : ∀ {k last}, k ≤ 8 → t.chain n k = some last → t.linkTarget? last = none →
      t.lookup n = t.lookupLink last := fun hk hchain hend => follow_of_chain hchain hend hk
  have hgivenUp : ∀ {last}, t.chain n 8 = some last → (t.linkTarget? last).isSome →
      t.lookup n = .error (.other ("too many link hops resolving '" ++ last.text ++ "'")) :=
    fun hchain hlink => follow_of_long hchain hlink
  refine ⟨fun k last hk hchain hend => ⟨hfollowed hk hchain hend, fun fault hfault => ?_⟩,
    fun last => hgivenUp, t.chain_cases n 8, fun next hlookup => ?_, fun m hlookup => ?_⟩
  · rw [hfollowed hk hchain hend] at hfault
    exact fault_of_lookupLink hfault
  · rcases t.chain_cases n 8 with ⟨k, last, hk, hchain, hend⟩ | ⟨last, hchain, hlink⟩
    · rw [hfollowed hk hchain hend] at hlookup
      cases hend.symm.trans (linkTarget?_eq_some_iff.mpr hlookup)
    · cases (hgivenUp hchain hlink).symm.trans hlookup
  · rcases t.chain_cases n 8 with ⟨k, last, hk, hchain, hend⟩ | ⟨last, hchain, hlink⟩
    · rw [hfollowed hk hchain hend] at hlookup
      obtain ⟨rfl, hclear⟩ := context_of_lookupLink hlookup
      obtain ⟨c, hcontext, hc⟩ := exists_walk_of_clear hclear m []
      exact ⟨k, c, hk, hchain, hcontext, hc, PathMap.barrier_eq_none_iff.mp hclear⟩
    · cases (hgivenUp hchain hlink).symm.trans hlookup

/-- Two links that stand for each other's names: the ninth is one too many. -/
theorem lookup_follows_cycle :
    let t : Tree := [("a", .object (.link ⟨["b"]⟩)), ("b", .object (.link ⟨["a"]⟩))]
    t.chain ⟨["a"]⟩ 8 = some ⟨["a"]⟩ ∧ (t.linkTarget? ⟨["a"]⟩).isSome ∧
      t.lookup ⟨["a"]⟩ = .error (.other "too many link hops resolving 'a'") := by
  intro t
  have hchain : t.chain ⟨["a"]⟩ 8 = some ⟨["a"]⟩ := by decide
  have hlink : (t.linkTarget? ⟨["a"]⟩).isSome := by decide
  exact ⟨hchain, hlink, (lookup_follows t ⟨["a"]⟩).2.1 _ hchain hlink⟩

end Tree

end NameDirectory
