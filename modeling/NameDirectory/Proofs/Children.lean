import NameDirectory.Proofs.Paths
import NameDirectory.Proofs.Remote

/-!
# The contexts in a listing

A context is listed by the name that was listed, followed by what its key is read as, and
that need not be the key alone.

* `Name.parse_eq_singleton_iff`: the texts that are read as one component, which is the text
  itself, are those that are `Single`;
* `Tree.listBindings_mem_iff`: the binding listed under a key;
* `Tree.listed_child`: where that leads, at the directory and at a distance.
-/

namespace NameDirectory

/-! ## Texts that are one component -/

namespace Name

/-- A text that is a component by itself: it is not empty, no slash is in it, and no blank at
either of its ends. -/
structure Single (k : String) : Prop where
  nonempty : k ≠ ""
  slashless : '/' ∉ k.toList
  trimmed : Text.trim k = k

/-- A text is read as itself if it is a component by itself, and otherwise as something else. -/
theorem parse_eq_singleton_iff (k : String) : parse k = ⟨[k]⟩ ↔ Single k := by
  constructor
  · intro h
    have hmem : k ∈ (parse k).components := by simp [h]
    simp only [parse, ofComponents, Text.splitOn, List.mem_filter, List.mem_map] at hmem
    obtain ⟨⟨cs, hcs, rfl⟩, hnonempty⟩ := hmem
    obtain ⟨hpart, hslash⟩ := Text.infix_of_mem_splitOn hcs
    rw [Text.trim, String.toList_ofList, String.toList_ofList] at hpart
    have hsame := (Text.trimChars_sublist cs).eq_of_length_le hpart.length_le
    refine ⟨by simpa using hnonempty, by simpa using hslash, ?_⟩
    rw [Text.trim, String.toList_ofList, hsame]
  · rintro ⟨hnonempty, hslash, htrim⟩
    unfold parse Text.splitOn ofComponents
    rw [htrim, List.splitOn_eq_singleton hslash]
    simpa using hnonempty

theorem child_eq_push_iff (n : Name) (k : String) : n.child k = n.push k ↔ Single k := by
  have hparse : parse k = ⟨[k]⟩ ↔ (parse k).components = [k] := by
    rw [← Name.mk.injEq]
  rw [← parse_eq_singleton_iff, hparse, child, join, push, Name.mk.injEq,
    List.append_cancel_left_eq]

end Name

/-! ## What is listed -/

/-- The binding by which a context under `k` is listed in `n`. -/
def Binding.ofChild (n : Name) (k : String) : Binding Entry := .ofEntry k (.context (n.child k))

namespace Tree

variable {t c d : Tree} {n : Name} {k : String}

/-- A context is listed once under its key, and nothing else is. -/
theorem listBindings_mem_iff (h : t.Ordered) (hc : t.at? n.components = some (.context c))
    (hk : c.find? k = some (.context d)) :
    ∃ items, t.listBindings n = .ok items ∧
      ∀ b, b ∈ items ∧ b.name = k ↔ b = Binding.ofChild n k := by
  have hcontext := context_eq_ok_iff.mpr hc
  refine ⟨_, by rw [listBindings, hcontext]; rfl, fun b => ⟨?_, ?_⟩⟩
  · rintro ⟨hb, hname⟩
    obtain ⟨⟨j, node⟩, hmem, rfl⟩ := List.mem_map.mp hb
    obtain rfl : j = k := hname
    have hordered : Ordered c := h.at? hc
    have hfound := hordered.sorted.find?_of_mem hmem
    rw [hk] at hfound
    cases hfound
    rfl
  · rintro rfl
    exact ⟨List.mem_map.mpr ⟨_, Keyed.mem_of_find? hk, rfl⟩, rfl⟩

theorem lookupLink_push (hc : t.at? n.components = some (.context c))
    (hk : c.find? k = some (.context d)) :
    t.lookupLink (n.push k) = .ok (.context (n.push k)) ∧
      t.list (n.push k) = .ok (d.map fun (j, node) => ⟨j, node.className⟩) := by
  have hd : t.at? (n.push k).components = some (.context d) :=
    at?_concat_eq_some_iff.mpr ⟨c, hc, hk⟩
  constructor
  · unfold lookupLink
    rw [Name.splitLast_push]
    simp only [context_eq_ok_iff.mpr hc, Bind.bind, Except.bind, hk]
  · rw [list, context_eq_ok_iff.mpr hd]
    rfl

end Tree

/-! ## What is read from a response -/

namespace Outcome.Reader

theorem forall_of_elements {α : Type} {r : Reader α} {P : α → Prop}
    (hr : ∀ bytes a rest, (ExceptT.run r).run bytes = (.ok a, rest) → P a) {count : Nat}
    {done items : List α} {bytes rest : Bytes} (hdone : ∀ a ∈ done, P a)
    (h : (ExceptT.run (elements r count done)).run bytes = (.ok items, rest)) :
    ∀ a ∈ items, P a := by
  induction count generalizing done bytes with
  | zero =>
    cases h
    simpa using hdone
  | succ count ih =>
    rw [elements_succ] at h
    obtain ⟨a, rest', ha, h⟩ := exists_of_run_bind h
    refine ih (fun x hx => ?_) h
    rcases List.mem_cons.mp hx with rfl | hx
    · exact hr _ _ _ ha
    · exact hdone x hx

/-- A context that is read as an element goes by the name asked with and its key. -/
theorem name_of_binding {n m : Name} {bytes rest : Bytes} {b : Binding Entry}
    (h : (ExceptT.run (binding (some n))).run bytes = (.ok b, rest)) (hm : b.value = .context m) :
    b = Binding.ofChild n b.name := by
  obtain ⟨tag, rest₁, -, h⟩ := exists_of_run_bind h
  cases tag with
  | binding =>
    obtain ⟨b', rest₂, -, h⟩ := exists_of_run_bind h
    cases h
    cases hm
  | context =>
    obtain ⟨k, rest₂, -, h⟩ := exists_of_run_bind h
    cases h
    rfl
  | _ => cases h

theorem names_of_listBindings {n m : Name} {body rest : Bytes} {items : List (Binding Entry)}
    (h : Outcome.decode .listBindings (some n) body = (.ok (.bindings items), rest))
    {b : Binding Entry} (hb : b ∈ items) (hm : b.value = .context m) :
    b = Binding.ofChild n b.name := by
  obtain ⟨u, rest₁, -, h⟩ := exists_of_run_bind h
  obtain ⟨items', rest₂, hlist, h⟩ := exists_of_run_bind h
  cases h
  obtain ⟨tag, rest₃, -, hlist⟩ := exists_of_run_bind hlist
  cases tag with
  | list =>
    obtain ⟨count, rest₄, -, hlist⟩ := exists_of_run_bind hlist
    exact forall_of_elements (P := fun b => ∀ m, b.value = .context m → b = .ofChild n b.name)
      (fun _ _ _ hread m hm => name_of_binding hread hm) (by simp) hlist b hb m hm
  | _ => cases hlist

end Outcome.Reader

namespace Tree

variable {t c d : Tree} {n : Name} {k : String}

theorem dispatch_listBindings {items : List (Binding Entry)} (h : t.listBindings n = .ok items)
    (number : Int32) (hr : (Request.listBindings n).Travels) (ho : (Reply.bindings items).Travels) :
    ∃ frame, t.dispatch ((Request.listBindings n).encode number) = (some frame, t) ∧
      Response.decode frame (some n) =
        .ok (.reply ⟨Operation.listBindings.code, number⟩ (.ok (.bindings items)) []) := by
  have hserve : t.serve (.listBindings n) = (.ok (.bindings items), t) := by
    rw [serve_eq_answer]
    simp only [answer, h, Bind.bind, Except.bind, Pure.pure, Except.pure]
  have ho' : Outcome.Travels (t.serve (.listBindings n)).1 := by
    rw [hserve]
    exact ho
  obtain ⟨outcome, hwrite, hread⟩ := Request.yields_seen ho'
  have hdispatch := t.dispatch_encode hr number hwrite
  rw [hserve] at hdispatch hread
  exact ⟨_, hdispatch, Response.decode_writeHeader hread⟩

/-- A context `d` that a context named `n` has under `k` goes by `n` and `k` alone.  A listing of
`n` has one binding under `k`, a context that goes by `n` and what `k` is read as; the listing
crosses the wire unchanged, and whatever response is read, the contexts in it go by such names.
That is the name of `d` exactly if `k` is one component by itself. -/
theorem listed_child (h : t.Ordered) (hc : t.at? n.components = some (.context c))
    (hk : c.find? k = some (.context d)) :
    (t.lookupLink (n.push k) = .ok (.context (n.push k)) ∧
      t.list (n.push k) = .ok (d.map fun (j, node) => ⟨j, node.className⟩)) ∧
    (∃ items, t.listBindings n = .ok items ∧
      (∀ b, b ∈ items ∧ b.name = k ↔ b = Binding.ofChild n k) ∧
      ∀ number, (Request.listBindings n).Travels → (Reply.bindings items).Travels →
        ∃ frame, t.dispatch ((Request.listBindings n).encode number) = (some frame, t) ∧
          Response.decode frame (some n) =
            .ok (.reply ⟨Operation.listBindings.code, number⟩ (.ok (.bindings items)) [])) ∧
    (∀ body rest items, Outcome.decode .listBindings (some n) body = (.ok (.bindings items), rest) →
      ∀ b ∈ items, ∀ m, b.value = .context m → b = Binding.ofChild n b.name) ∧
    (n.child k = n.push k ↔ Name.Single k) := by
  obtain ⟨items, hitems, hmem⟩ := listBindings_mem_iff h hc hk
  refine ⟨lookupLink_push hc hk, ⟨items, hitems, hmem, fun number => ?_⟩, ?_, n.child_eq_push_iff k⟩
  · exact dispatch_listBindings hitems number
  · exact fun _ _ _ hread _ hb _ hm => Outcome.Reader.names_of_listBindings hread hb hm

theorem listed_child_word :
    let t : Tree := [("b", .context [("a", .context [("x", .object .null)])])]
    t.Ordered ∧ t.at? ["b"] = some (.context [("a", .context [("x", .object .null)])]) ∧
      t.lookupLink ⟨["b", "a"]⟩ = .ok (.context ⟨["b", "a"]⟩) ∧
      Name.child ⟨["b"]⟩ "a" = ⟨["b", "a"]⟩ := by
  intro t
  have hordered : t.Ordered :=
    Ordered.empty.insert (Ordered.empty.insert (Ordered.empty.insert (.object .null) "x") "a") "b"
  have hchild := listed_child (n := ⟨["b"]⟩) (k := "a") hordered rfl rfl
  exact ⟨hordered, rfl, hchild.1.1, hchild.2.2.2.mpr ⟨by decide, by decide, by decide⟩⟩

/-- A key that starts with a blank, as in the name read from `b/ a`: what is listed leads
nowhere. -/
theorem listed_child_astray :
    let t : Tree := [("b", .context [(" a", .context [])])]
    t.Ordered ∧ Name.parse "b/ a" = ⟨["b", " a"]⟩ ∧
      t.lookupLink ⟨["b", " a"]⟩ = .ok (.context ⟨["b", " a"]⟩) ∧
      t.listBindings ⟨["b"]⟩ = .ok [⟨" a", "context", .context ⟨["b", "a"]⟩⟩] ∧
      t.lookupLink ⟨["b", "a"]⟩ = .error (.nameNotFound "b/a") := by
  intro t
  have hordered : t.Ordered := Ordered.empty.insert (Ordered.empty.insert Ordered.empty " a") "b"
  exact ⟨hordered, by decide +kernel, rfl, by decide +kernel, by decide +kernel⟩

end Tree

end NameDirectory
