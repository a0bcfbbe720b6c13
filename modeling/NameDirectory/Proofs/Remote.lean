import NameDirectory.Proofs.Frames
import NameDirectory.Proofs.Renaming

/-!
# A directory at a distance

A request that is written to a frame, dispatched and answered by a frame that is read
again gives what the directory itself gives, and leaves the same tree.

* `Request.Admits` says what kind of reply a directory gives to a request, and by
  which names the contexts in it go: `Tree.admits_of_answer`;
* `Request.yields_reply` and `Request.yields_fault`: an outcome that travels is read as
  it was written, but for the name of a context that a lookup ended at;
* `Tree.dispatch_refines_serve`: the two put together.
-/

namespace NameDirectory

/-! ## Outcomes that travel -/

/-- The element of a list of bindings is within the limits: an object by the bytes that are read,
a context by its key. -/
def Binding.Travels (b : Binding Entry) : Prop :=
  match b.value with
  | .object o => (Wire.Value.binding ⟨b.name, b.className, o⟩).Fits
  | .context _ => (Text.utf8 b.name).length < 65536

instance : (b : Binding Entry) → Decidable b.Travels
  | ⟨_, _, .object _⟩ => inferInstanceAs (Decidable (Wire.Value.Fits _))
  | ⟨_, _, .context _⟩ => inferInstanceAs (Decidable (_ < _))

namespace Reply

/-- All that stands in a frame for the reply is within the limits of writing and reading. -/
def Travels : Reply → Prop
  | void | entry (.context _) => True
  | entry (.object o) => (Wire.Value.object o).Fits
  | pairs items => items.length < 4294967296 ∧ ∀ p ∈ items, (Wire.Value.nameClass p).Fits
  | bindings items => items.length < 4294967296 ∧ ∀ b ∈ items, b.Travels

instance : (reply : Reply) → Decidable reply.Travels
  | void | entry (.context _) => .isTrue trivial
  | entry (.object _) => inferInstanceAs (Decidable (Wire.Value.Fits _))
  | pairs _ | bindings _ => inferInstanceAs (Decidable (_ ∧ ∀ _ ∈ _, _))

end Reply

/-- The outcome of a request is within the limits. -/
def Outcome.Travels : Except NamingFault Reply → Prop
  | .ok reply => reply.Travels
  | .error fault => (Wire.Value.fault fault).Fits

instance : (outcome : Except NamingFault Reply) → Decidable (Outcome.Travels outcome)
  | .ok reply => inferInstanceAs (Decidable reply.Travels)
  | .error _ => inferInstanceAs (Decidable (Wire.Value.Fits _))

/-! ## What a directory answers with -/

namespace Request

/-- The replies that a directory may give, with the names it gives contexts. -/
def Admits : Request → Reply → Prop
  | lookup _, .entry _ => True
  | lookupLink n, .entry e => ∀ m, e = .context m → m = n
  | createSubcontext n, .entry e => e = .context n
  | list _, .pairs _ => True
  | listBindings n, .bindings items =>
    ∀ b ∈ items, b = Binding.ofEntry b.name b.value ∧
      ∀ m, b.value = .context m → m = n.child b.name
  | bind _ _, .void | rebind _ _, .void | unbind _, .void | rename _ _, .void
  | destroySubcontext _, .void => True
  | _, _ => False

/-- A reply as it is known at a distance: the context that a lookup ended at goes by the name
that was asked for. -/
def known : Request → Reply → Reply
  | lookup n, .entry (.context _) => .entry (.context n)
  | _, reply => reply

/-- An outcome as it is known at a distance. -/
def seen (r : Request) : Except NamingFault Reply → Except ClientFault Reply
  | .ok reply => .ok (r.known reply)
  | .error fault => .error (.naming fault)

end Request

namespace Tree

theorem name_of_lookupLink {t : Tree} {n m : Name} (h : t.lookupLink n = .ok (.context m)) :
    m = n := by
  unfold lookupLink at h
  split at h
  · next hroot =>
    have hcomponents : n.components = [] := by simpa [Name.splitLast] using hroot
    cases h
    exact (congrArg Name.mk hcomponents).symm
  · next parent last _ =>
    obtain ⟨c, -, h⟩ := exists_of_bind_eq_ok h
    split at h <;> cases h
    rfl

theorem admits_of_answer {t t' : Tree} {r : Request} {reply : Reply}
    (h : t.answer r = .ok (reply, t')) : r.Admits reply := by
  cases r with
  | lookup n =>
    obtain ⟨e, -, h⟩ := exists_of_bind_eq_ok h
    cases h
    trivial
  | lookupLink n =>
    obtain ⟨e, he, h⟩ := exists_of_bind_eq_ok h
    cases h
    rintro m rfl
    exact name_of_lookupLink he
  | createSubcontext n =>
    obtain ⟨u, -, h⟩ := exists_of_bind_eq_ok h
    cases h
    rfl
  | list n =>
    obtain ⟨items, -, h⟩ := exists_of_bind_eq_ok h
    cases h
    trivial
  | listBindings n =>
    obtain ⟨items, hitems, h⟩ := exists_of_bind_eq_ok h
    cases h
    obtain ⟨c, -, hmap⟩ := exists_of_bind_eq_ok hitems
    cases hmap
    intro b hb
    obtain ⟨⟨k, node⟩, -, rfl⟩ := List.mem_map.mp hb
    refine ⟨rfl, fun m hm => ?_⟩
    cases node <;> simp_all [Binding.ofEntry]
  | bind n o | rebind n o | unbind n | rename n m | destroySubcontext n =>
    obtain ⟨u, -, h⟩ := exists_of_bind_eq_ok h
    cases h
    trivial

end Tree

/-! ## Outcomes read back -/

namespace Outcome.Reader

theorem yields_ofFrame {α : Type} {r : Frame.Reader α} {b : Bytes} {a : α}
    (h : Yields r b (.ok a)) : Yields (ofFrame r) b (.ok a) := by
  intro rest
  have hr := h rest
  change ((ExceptT.run r).run (b ++ rest)).map (Except.mapError _) id = _
  rw [hr]
  rfl

theorem yields_outcome : Yields outcome [Frame.success] (.ok ()) :=
  (yields_ofFrame (Frame.Reader.yields_byte Frame.success)).bind_nil (Yields.pure ())

theorem yields_failure {f : NamingFault} (h : (Wire.Value.fault f).Fits) :
    Yields outcome (Frame.failure :: Frame.writeValue .exception (.fault f))
      (.error (.naming f)) := by
  refine (yields_ofFrame (Frame.Reader.yields_byte Frame.failure)).bind ?_
  refine (yields_ofFrame (Frame.Reader.yields_tag .exception)).bind ?_
  exact (yields_ofFrame (Frame.Reader.yields_exception h)).bind_nil (Yields.throw _)

theorem yields_requested (n : Name) : Yields (requested (some n)) [] (.ok n) := Yields.pure n

theorem yields_entry {o : Object} (h : (Wire.Value.object o).Fits) (tag : Tag)
    (captured : Option Name) :
    Yields (entry tag captured) (Frame.success :: Frame.writeValue tag (.object o))
      (.ok (.entry (.object o))) := by
  refine yields_outcome.bind ((yields_ofFrame (Frame.Reader.yields_tag tag)).bind ?_)
  rw [if_pos rfl]
  exact (yields_ofFrame (Frame.Reader.yields_object h)).map fun o => Reply.entry (.object o)

theorem yields_entry_context {tag : Tag} (h : Tag.context ≠ tag) (n : Name) :
    Yields (entry tag (some n)) [Frame.success, Tag.context.code] (.ok (.entry (.context n))) := by
  refine yields_outcome.bind ((yields_ofFrame (Frame.Reader.yields_tag .context)).bind_nil ?_)
  rw [if_neg h, if_pos rfl]
  exact (yields_requested n).map fun n => Reply.entry (.context n)

theorem yields_context (n : Name) :
    Yields (context (some n)) [Frame.success, Tag.context.code] (.ok (.entry (.context n))) := by
  refine yields_outcome.bind ((yields_ofFrame (Frame.Reader.yields_tag .context)).bind_nil ?_)
  exact (yields_requested n).map fun n => Reply.entry (.context n)

theorem yields_void : Yields void [Frame.success, Tag.void.code] (.ok .void) := by
  refine yields_outcome.bind ?_
  intro rest
  have htag := (yields_ofFrame (Frame.Reader.yields_tag .void)).map fun _ => Reply.void
  exact htag rest

/-! ### Lists -/

theorem elements_succ {α : Type} (r : Reader α) (n : Nat) (done : List α) :
    elements r (n + 1) done = r >>= fun a => elements r n (a :: done) := by
  funext rest
  change _ = (ExceptT.run (r >>= _)).run rest
  rw [ExceptT.run_bind, StateT.run_bind, elements]
  dsimp only
  rcases h : r rest with ⟨fault | a, rest'⟩
  · rw [show (ExceptT.run r).run rest = _ from h]
    rfl
  · rw [show (ExceptT.run r).run rest = _ from h]
    rfl

theorem yields_elements {α : Type} {r : Reader α} {encode : α → Bytes} {items : List α}
    (h : ∀ a ∈ items, Yields r (encode a) (.ok a)) (done : List α) :
    Yields (elements r items.length done) (items.flatMap encode) (.ok (done.reverse ++ items)) := by
  induction items generalizing done with
  | nil =>
    rw [List.append_nil]
    exact Yields.pure done.reverse
  | cons a items ih =>
    intro rest
    have ha := h a List.mem_cons_self (items.flatMap encode ++ rest)
    have hitems := ih (fun x hx => h x (List.mem_cons_of_mem _ hx)) (a :: done) rest
    rw [List.reverse_cons, List.append_assoc] at hitems
    rw [List.length_cons, elements_succ, List.flatMap_cons, List.append_assoc, run_bind_of_ok ha]
    exact hitems

theorem yields_list {α : Type} {r : Reader α} {encode : α → Bytes} {items : List α}
    (hcount : items.length < 4294967296) (h : ∀ a ∈ items, Yields r (encode a) (.ok a)) :
    Yields (list r)
      (Tag.list.code :: Frame.writeCount items.length.toUInt32 ++ items.flatMap encode)
      (.ok items) := by
  refine (yields_ofFrame (Frame.Reader.yields_tag .list)).bind
    ((yields_ofFrame (Frame.Reader.yields_count _)).bind ?_)
  have hlength : items.length.toUInt32.toNat = items.length := by
    simp; omega
  rw [hlength]
  exact yields_elements h []

theorem yields_pair {p : NameClass} (h : (Wire.Value.nameClass p).Fits) :
    Yields pair (Reply.writePair p) (.ok p) :=
  (yields_ofFrame (Frame.Reader.yields_tag .object)).bind
    (yields_ofFrame (Frame.Reader.yields_nameClass h))

end Outcome.Reader

namespace Binding

/-- What stands in a frame for an element of a list of bindings. -/
def written (b : Binding Entry) : Bytes :=
  match b.value with
  | .context _ =>
    Tag.context.code :: (Wire.bigEndian 2 (Text.utf8 b.name).length ++ Text.utf8 b.name)
  | .object o => Frame.writeValue .binding (.binding ⟨b.name, b.className, o⟩)

theorem writeBinding_eq {b : Binding Entry} (h : b.Travels) :
    Reply.writeBinding b = .ok b.written := by
  unfold Reply.writeBinding written
  cases hv : b.value with
  | object o => rfl
  | context m =>
    have hshort : (Text.utf8 b.name).length < 65536 := by simpa [Travels, hv] using h
    simp [Frame.writeText, hshort, Except.map]

theorem mapM_writeBinding {items : List (Binding Entry)} (h : ∀ b ∈ items, b.Travels) :
    items.mapM Reply.writeBinding = .ok (items.map written) := by
  induction items with
  | nil => rfl
  | cons b items ih =>
    rw [List.mapM_cons, writeBinding_eq (h b List.mem_cons_self),
      ih fun x hx => h x (List.mem_cons_of_mem _ hx)]
    rfl

theorem yields_written {b : Binding Entry} {n : Name} (ht : b.Travels)
    (hb : b = ofEntry b.name b.value) (hn : ∀ m, b.value = .context m → m = n.child b.name) :
    Yields (Outcome.Reader.binding (some n)) b.written (.ok b) := by
  unfold Travels at ht
  unfold written
  cases hv : b.value with
  | object o =>
    rw [hv] at ht hb
    refine (Outcome.Reader.yields_ofFrame (Frame.Reader.yields_tag .binding)).bind ?_
    rw [hb] at ht ⊢
    exact (Outcome.Reader.yields_ofFrame (Frame.Reader.yields_binding ht)).map
      fun b => Binding.mk b.name b.className (Entry.object b.value)
  | context m =>
    rw [hv] at ht hb
    obtain rfl := hn m hv
    refine (Outcome.Reader.yields_ofFrame (Frame.Reader.yields_tag .context)).bind ?_
    rw [hb] at ht ⊢
    refine (Outcome.Reader.yields_ofFrame (Frame.Reader.yields_text ht)).bind_nil ?_
    exact (Outcome.Reader.yields_requested n).map
      fun n => ofEntry b.name (Entry.context (n.child b.name))

end Binding

namespace Request

theorem yields_fault {f : NamingFault} (h : (Wire.Value.fault f).Fits) (r : Request) :
    ∃ bytes, writeOutcome r.operation (.error f) = .ok bytes ∧
      Yields (Outcome.read r.operation r.captured?) bytes (.error (.naming f)) := by
  refine ⟨_, rfl, ?_⟩
  cases r <;> exact (Outcome.Reader.yields_failure h).bind_error

theorem yields_reply {r : Request} {reply : Reply} (h : r.Admits reply) (ht : reply.Travels) :
    ∃ bytes, writeOutcome r.operation (.ok reply) = .ok bytes ∧
      Yields (Outcome.read r.operation r.captured?) bytes (.ok (r.known reply)) := by
  cases r <;> cases reply <;> try exact h.elim
  case lookup.entry n e =>
    cases e with
    | object o => exact ⟨_, rfl, Outcome.Reader.yields_entry ht .object _⟩
    | context m => exact ⟨_, rfl, Outcome.Reader.yields_entry_context (by decide) n⟩
  case lookupLink.entry n e =>
    cases e with
    | object o => exact ⟨_, rfl, Outcome.Reader.yields_entry ht .binding _⟩
    | context m =>
      obtain rfl := h m rfl
      exact ⟨_, rfl, Outcome.Reader.yields_entry_context (by decide) m⟩
  case createSubcontext.entry n e =>
    obtain rfl : e = .context n := h
    exact ⟨_, rfl, Outcome.Reader.yields_context n⟩
  case list.pairs n items =>
    obtain ⟨hcount, hfit⟩ := ht
    have hwrite : writeOutcome .list (.ok (.pairs items)) = .ok (Frame.success :: (Tag.list.code ::
        Frame.writeCount items.length.toUInt32 ++ items.flatMap Reply.writePair)) := by
      simp [writeOutcome, Reply.write, Reply.writeCount, hcount, Bind.bind, Except.bind, Except.map,
        Pure.pure, Except.pure]
    have hlist := Outcome.Reader.yields_list hcount fun p hp => Outcome.Reader.yields_pair (hfit p hp)
    exact ⟨_, hwrite, Outcome.Reader.yields_outcome.bind (hlist.map Reply.pairs)⟩
  case listBindings.bindings n items =>
    obtain ⟨hcount, hfit⟩ := ht
    have hwrite : writeOutcome .listBindings (.ok (.bindings items)) = .ok (Frame.success ::
        (Tag.list.code :: Frame.writeCount items.length.toUInt32 ++
          items.flatMap Binding.written)) := by
      simp [writeOutcome, Reply.write, Reply.writeCount, hcount, Binding.mapM_writeBinding hfit,
        Bind.bind, Except.bind, Except.map, Pure.pure, Except.pure, List.flatMap]
    have hlist := Outcome.Reader.yields_list hcount fun b hb =>
      Binding.yields_written (n := n) (hfit b hb) (h b hb).1 (h b hb).2
    exact ⟨_, hwrite, Outcome.Reader.yields_outcome.bind (hlist.map Reply.bindings)⟩
  all_goals exact ⟨_, rfl, Outcome.Reader.yields_void⟩

theorem yields_seen {t : Tree} {r : Request} (ho : Outcome.Travels (t.serve r).1) :
    ∃ bytes, writeOutcome r.operation (t.serve r).1 = .ok bytes ∧
      Yields (Outcome.read r.operation r.captured?) bytes (r.seen (t.serve r).1) := by
  rw [Tree.serve_eq_answer] at ho ⊢
  cases ha : t.answer r with
  | error fault =>
    rw [ha] at ho
    exact yields_fault ho r
  | ok answer =>
    rw [ha] at ho
    exact yields_reply (Tree.admits_of_answer ha) ho

end Request

/-! ## Frames taken apart -/

theorem Yields.on {α : Type} {r : Frame.Reader α} {b : Bytes} {result : Except TransportFault α}
    (h : Yields r b result) (rest : Bytes) : r.on (b ++ rest) = (result, rest) := h rest

namespace Response

/-- A response is taken apart by what its header says, and by the name that was kept. -/
theorem decode_writeHeader {op : Operation} {number : Int32} {captured : Option Name}
    {outcome : Bytes} {result : Except ClientFault Reply}
    (h : Yields (Outcome.read op captured) outcome result) :
    decode (Frame.writeHeader ⟨op.code, number⟩ ++ outcome) captured =
      .ok (.reply ⟨op.code, number⟩ result []) := by
  have hread := h []
  rw [List.append_nil] at hread
  unfold decode Outcome.decode
  rw [(Frame.Reader.yields_header _).on]
  simp only [Operation.ofCode?_code, hread]

end Response

namespace Tree

theorem dispatch_encode (t : Tree) {r : Request} (h : r.Travels) (number : Int32) {outcome : Bytes}
    (hwrite : writeOutcome r.operation (t.serve r).1 = .ok outcome) :
    t.dispatch (r.encode number) =
      (some (Frame.writeHeader ⟨r.operation.code, number⟩ ++ outcome), (t.serve r).2) := by
  have hread := (Request.yields_read h).on []
  rw [List.append_nil] at hread
  unfold dispatch Request.encode
  rw [(Frame.Reader.yields_header _).on]
  simp only [Operation.ofCode?_code, serveBody, hread, hwrite]

/-- Serving across frames gives what the directory itself gives, and leaves the same tree. -/
theorem dispatch_refines_serve (t : Tree) (r : Request) (number : Int32) (hr : r.Travels)
    (ho : Outcome.Travels (t.serve r).1) :
    ∃ frame, t.dispatch (r.encode number) = (some frame, (t.serve r).2) ∧
      Response.decode frame r.captured? =
        .ok (.reply ⟨r.operation.code, number⟩ (r.seen (t.serve r).1) []) := by
  obtain ⟨outcome, hwrite, hread⟩ := Request.yields_seen ho
  exact ⟨_, dispatch_encode t hr number hwrite, Response.decode_writeHeader hread⟩

/-- Both shapes of an element: a context, which travels by its key, and a link, which travels
whole. -/
theorem dispatch_refines_serve_listBindings :
    let t : Tree := [("c", .context [("n", .object .null)]), ("l", .object (.link ⟨["c"]⟩))]
    let r : Request := .listBindings Name.root
    let bindings : List (Binding Entry) :=
      [⟨"c", "context", .context ⟨["c"]⟩⟩, ⟨"l", "link", .object (.link ⟨["c"]⟩)⟩]
    r.Travels ∧ Outcome.Travels (t.serve r).1 ∧
      ∃ frame, t.dispatch (r.encode 7) = (some frame, t) ∧
        Response.decode frame (some Name.root) =
          .ok (.reply ⟨0x05, 7⟩ (.ok (.bindings bindings)) []) :=
  ⟨by decide, by decide, dispatch_refines_serve _ _ 7 (by decide) (by decide)⟩

end Tree

end NameDirectory
