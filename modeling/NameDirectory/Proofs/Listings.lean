import Mathlib.Data.List.Lex
import Mathlib.Tactic.SplitIfs
import NameDirectory.Proofs.Links

/-!
# Listings and what they list

A context can be listed with its values or without, and each key can be looked up by itself.  All
three say the same of it.

* `Text.utf8_lt_utf8`: the order of texts is that of the bytes of their UTF-8 forms;
* `Tree.list_of_context`, `Tree.listBindings_of_context`: a listing has an item for each binding,
  in the order of the bindings;
* `Tree.lookupLink_push_of_object`: what an object in a context is looked up as;
* `Tree.listings_agree`: the three operations on one context.
-/

namespace NameDirectory

/-! ## The order of UTF-8 forms -/

namespace Text

theorem utf8_eq_flatMap (s : String) : utf8 s = s.toList.flatMap String.utf8EncodeChar := by
  unfold utf8
  rw [← String.utf8Encode_toList, List.utf8Encode]
  simp

/-- Of two numbers the lesser has lesser digits before its last, or the same and a lesser last. -/
theorem digits_lt_of_lt {m n : Nat} (h : m < n) :
    m / 64 < n / 64 ∨ m / 64 = n / 64 ∧ m % 64 < n % 64 := by
  omega

/-- A lesser character has lesser bytes, whatever follows the two. -/
theorem utf8EncodeChar_append_lt {c d : Char} (h : c < d) (u v : Bytes) :
    String.utf8EncodeChar c ++ u < String.utf8EncodeChar d ++ v := by
  have hlt : c.val.toNat < d.val.toNat := h
  have hbound : d.val.toNat < 1114112 := by
    have hvalid := d.valid
    simp only [UInt32.isValidChar, Nat.isValidChar] at hvalid
    omega
  unfold String.utf8EncodeChar
  generalize c.val.toNat = m at hlt
  generalize d.val.toNat = n at hlt hbound
  have hlast := digits_lt_of_lt hlt
  have hthird : m / 64 < n / 64 →
      m / 4096 < n / 4096 ∨ m / 4096 = n / 4096 ∧ m / 64 % 64 < n / 64 % 64 := by
    intro h
    simpa only [Nat.div_div_eq_div_mul] using digits_lt_of_lt h
  have hsecond : m / 4096 < n / 4096 →
      m / 262144 < n / 262144 ∨ m / 262144 = n / 262144 ∧ m / 4096 % 64 < n / 4096 % 64 := by
    intro h
    simpa only [Nat.div_div_eq_div_mul] using digits_lt_of_lt h
  -- forms of different lengths differ in their first byte, others in the first digit that differs
  dsimp only
  split_ifs
  all_goals
    simp (disch := omega) only [List.cons_append, List.cons_lt_cons_iff, UInt8.lt_iff_toNat_lt,
      ← UInt8.toNat_inj, UInt8.toNat_ofNat', Nat.reducePow, Nat.mod_eq_of_lt,
      Nat.add_lt_add_iff_right, Nat.add_right_cancel_iff]
    omega

theorem utf8_lt_utf8 {s t : String} (h : s < t) : utf8 s < utf8 t := by
  rw [String.lt_iff] at h
  rw [utf8_eq_flatMap, utf8_eq_flatMap]
  generalize s.toList = cs at h
  generalize t.toList = ds at h
  induction h with
  | @nil d ds =>
    obtain ⟨b, rest, hb⟩ :=
      List.exists_cons_of_ne_nil (String.utf8EncodeChar_ne_nil : String.utf8EncodeChar d ≠ [])
    rw [List.flatMap_cons, hb]
    exact List.Lex.nil
  | cons _ ih => exact List.append_left_lt ih
  | rel hlt => exact utf8EncodeChar_append_lt hlt _ _

end Text

/-! ## Listings of a context -/

/-- What a node is listed as, if it goes by the name `m`. -/
def Node.entry (m : Name) : Node → Entry
  | object o => .object o
  | context _ => .context m

theorem Node.className_entry (m : Name) (node : Node) :
    (node.entry m).className = node.className := by
  cases node <;> rfl

theorem Node.className_eq_contextClass_iff (node : Node) :
    node.className = Object.contextClass ↔ node.occupant = .context := by
  cases node with
  | object o => cases o <;> simp [className, occupant, Object.className, Object.contextClass]
  | context c => exact ⟨fun _ => rfl, fun _ => rfl⟩

namespace Tree

variable {t c : Tree} {n : Name}

theorem list_of_context (h : t.context n = .ok c) :
    t.list n = .ok (c.map fun b => ⟨b.1, b.2.className⟩) := by
  rw [list, h]
  rfl

theorem listBindings_of_context (h : t.context n = .ok c) :
    t.listBindings n = .ok (c.map fun b => .ofEntry b.1 (b.2.entry (n.child b.1))) := by
  rw [listBindings, h]
  refine congrArg Except.ok (List.map_congr_left ?_)
  rintro ⟨k, o | d⟩ - <;> rfl

theorem list_of_error {fault : NamingFault} (h : t.context n = .error fault) :
    t.list n = .error fault ∧ t.listBindings n = .error fault := by
  rw [list, listBindings, h]
  exact ⟨rfl, rfl⟩

/-- What is at a key of a context is what the context holds under it. -/
theorem paths_push (hc : t.at? n.components = some (.context c)) (k : String) :
    t.paths (n.push k).components = .ofNode? (c.find? k) := by
  rw [Name.push, paths_append hc, paths_singleton]

theorem lookupLink_push_of_object (hc : t.at? n.components = some (.context c)) {k : String}
    {o : Object} (hk : c.find? k = some (.object o)) :
    t.lookupLink (n.push k) = .ok (.object o) := by
  unfold lookupLink
  rw [Name.splitLast_push]
  simp only [context_eq_ok_iff.mpr hc, Bind.bind, Except.bind, hk]

/-- The keys of a context, each once, in the order of their bytes. -/
theorem Ordered.pairwise_utf8 (h : c.Ordered) :
    (c.map (·.1)).Pairwise fun j k => Text.utf8 j < Text.utf8 k := by
  rw [List.pairwise_map]
  exact h.sorted.imp Text.utf8_lt_utf8

theorem mem_keys_iff (h : c.Ordered) (k : String) : k ∈ c.map (·.1) ↔ c.find? k ≠ none := by
  constructor
  · intro hk
    obtain ⟨⟨k, node⟩, hmem, rfl⟩ := List.mem_map.mp hk
    rw [h.sorted.find?_of_mem hmem]
    exact Option.some_ne_none node
  · intro hk
    obtain ⟨node, hnode⟩ := Option.ne_none_iff_exists'.mp hk
    exact List.mem_map.mpr ⟨(k, node), Keyed.mem_of_find? hnode, rfl⟩

/-- A name that contexts do not lead to, or that is none, cannot be listed, and both listings say
why in the same way.  Otherwise both have an item for each key that something is bound to, once and
in the order of the keys' bytes, with the same classes; under a key with an object stands the object
that the key is looked up as, with its class, and the class of a context stands only under a key
with a context. -/
theorem listings_agree (h : t.Ordered) (n : Name) :
    ((∃ fault, t.list n = .error fault ∧ t.listBindings n = .error fault) ↔
      ¬ ∀ part, part <+: n.components → t.paths part = .context) ∧
    ((∀ part, part <+: n.components → t.paths part = .context) →
      ∃ items, t.listBindings n = .ok items ∧
        t.list n = .ok (items.map fun b => ⟨b.name, b.className⟩) ∧
        (items.map (·.name)).Pairwise (fun j k => Text.utf8 j < Text.utf8 k) ∧
        (∀ k, k ∈ items.map (·.name) ↔ t.paths (n.push k).components ≠ .absent) ∧
        ∀ b ∈ items,
          (∀ o, t.paths (n.push b.name).components = .object o →
            b = ⟨b.name, o.className, .object o⟩ ∧
              t.lookupLink (n.push b.name) = .ok (.object o)) ∧
          (b.className = "context" ↔ t.paths (n.push b.name).components = .context)) := by
  rw [← PathMap.obstacle_eq_none_iff]
  cases hobstacle : t.paths.obstacle n with
  | some fault =>
    have hfails := list_of_error (context_of_obstacle hobstacle)
    exact ⟨⟨fun _ => nofun, fun _ => ⟨fault, hfails⟩⟩, nofun⟩
  | none =>
    obtain ⟨c, hcontext, hc⟩ := exists_context_of_clear hobstacle
    have hlist := list_of_context hcontext
    have hbindings := listBindings_of_context hcontext
    have hordered : c.Ordered := h.at? hc
    have hkeys : (c.map fun b => Binding.ofEntry b.1 (b.2.entry (n.child b.1))).map (·.name) =
        c.map (·.1) := List.map_map
    refine ⟨⟨?_, fun hn => absurd rfl hn⟩, fun _ => ⟨_, hbindings, ?_, ?_, fun k => ?_, ?_⟩⟩
    · rintro ⟨fault, hfails, -⟩
      rw [hlist] at hfails
      cases hfails
    · simp only [hlist, List.map_map, Function.comp_def, Binding.ofEntry, Node.className_entry]
    · rw [hkeys]
      exact hordered.pairwise_utf8
    · rw [hkeys, mem_keys_iff hordered, paths_push hc, ne_eq, ne_eq, Occupant.ofNode?_eq_absent]
    · intro b hb
      obtain ⟨⟨k, node⟩, hmem, rfl⟩ := List.mem_map.mp hb
      have hk : c.find? k = some node := hordered.sorted.find?_of_mem hmem
      have hthere : t.paths (n.push k).components = node.occupant := by
        rw [paths_push hc, hk]
        rfl
      refine ⟨fun o ho => ?_, ?_⟩
      · cases node with
        | object o' =>
          obtain rfl := Occupant.object.inj (hthere.symm.trans ho)
          exact ⟨rfl, lookupLink_push_of_object hc hk⟩
        | context d => cases hthere.symm.trans ho
      · change (node.entry _).className = Object.contextClass ↔ t.paths (n.push k).components = _
        rw [hthere, Node.className_entry, Node.className_eq_contextClass_iff]

/-- A context and a link that are bound in a context, beside a name that is an object. -/
theorem listings_agree_link :
    let t : Tree :=
      [("a", .context [("c", .context []), ("l", .object (.link ⟨["x"]⟩))]), ("x", .object .null)]
    t.Ordered ∧
      t.listBindings ⟨["a"]⟩ =
        .ok [⟨"c", "context", .context ⟨["a", "c"]⟩⟩, ⟨"l", "link", .object (.link ⟨["x"]⟩)⟩] ∧
      t.lookupLink ⟨["a", "l"]⟩ = .ok (.object (.link ⟨["x"]⟩)) ∧
      ∃ fault, t.list ⟨["x"]⟩ = .error fault ∧ t.listBindings ⟨["x"]⟩ = .error fault := by
  intro t
  have hordered : t.Ordered :=
    (Ordered.empty.insert (.object .null) "x").insert
      ((Ordered.empty.insert (.object (.link ⟨["x"]⟩)) "l").insert Ordered.empty "c") "a"
  have ha : t.at? ["a"] =
      some (.context [("c", .context []), ("l", .object (.link ⟨["x"]⟩))]) := rfl
  have hreached : ∀ part, part <+: ["a"] → t.paths part = .context :=
    fun part hpart => paths_of_prefix ha hpart
  have hitems : t.listBindings ⟨["a"]⟩ =
      .ok [⟨"c", "context", .context ⟨["a", "c"]⟩⟩, ⟨"l", "link", .object (.link ⟨["x"]⟩)⟩] := by
    decide +kernel
  obtain ⟨items, hlisted, -, -, -, hvalues⟩ := (listings_agree hordered ⟨["a"]⟩).2 hreached
  obtain rfl := Except.ok.inj (hitems.symm.trans hlisted)
  have hlink := ((hvalues ⟨"l", "link", .object (.link ⟨["x"]⟩)⟩ (by simp)).1 _ rfl).2
  refine ⟨hordered, hitems, hlink, (listings_agree hordered ⟨["x"]⟩).1.mpr fun hall => ?_⟩
  cases hall ["x"] List.prefix_rfl

end Tree

end NameDirectory
