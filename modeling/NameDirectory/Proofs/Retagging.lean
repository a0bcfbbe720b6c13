import NameDirectory.Proofs.Canonical
import NameDirectory.Proofs.Delivery

/-!
# Tags before arguments

Before each argument of a request stands a byte that has to be a tag, and may be any tag.  What
follows the last argument is not looked at.

* `Request.marked`: the frame of a request with any bytes in the places of its tags;
* `Request.exists_marked`: a message that is read as a request is such a frame;
* `Request.ofMessage?_marked`, `Request.yields_read_unknown`: what is read if the bytes are tags, and
  if one is not;
* `Tree.dispatch_marked`: how such a frame is answered.
-/

namespace NameDirectory

/-! ## Single tags and values -/

namespace Tag

theorem ofCode_of_unknown {b : UInt8} (h : ∀ tag : Tag, tag.code ≠ b) :
    ofCode b = .error (.violation (.unknownTag b)) := by
  have hnone : all.find? (·.code == b) = none := by
    rw [List.find?_eq_none]
    exact fun tag _ => by simpa using h tag
  rw [ofCode, hnone]

theorem code_of_ofCode {b : UInt8} {tag : Tag} (h : ofCode b = .ok tag) : tag.code = b := by
  unfold ofCode at h
  split at h
  · next found hfound =>
    cases h
    simpa using List.find?_some hfound
  · cases h

end Tag

namespace Frame.Reader

variable {bytes rest : Bytes}

theorem yields_tag_unknown {b : UInt8} (h : ∀ tag : Tag, tag.code ≠ b) :
    Yields tag [b] (.error (.violation (.unknownTag b))) := by
  refine (yields_byte b).bind_nil ?_
  rw [Tag.ofCode_of_unknown h]
  exact Yields.throw _

theorem eq_of_tag {t : Tag} (h : (ExceptT.run tag).run bytes = (.ok t, rest)) :
    bytes = t.code :: rest := by
  obtain ⟨b, rest', hbyte, h⟩ := exists_of_run_bind h
  split at h
  · next tag hcode =>
    cases h
    rw [eq_of_byte hbyte, Tag.code_of_ofCode hcode]
  · cases h

theorem eq_of_value {v : Wire.Value} (h : (ExceptT.run value).run bytes = (.ok v, rest)) :
    v.Fits ∧ bytes = v.encode ++ rest := by
  unfold value at h
  rw [Yields.run_get_bind] at h
  split at h
  · next v' rest' hread =>
    cases h
    obtain ⟨hfits, hbytes, -⟩ := Wire.Value.fits_of_read hread
    exact ⟨hfits, hbytes⟩
  · cases h

theorem exists_of_valueAs {α : Type} {what : String} {select : Wire.Value → Option α} {a : α}
    (h : (ExceptT.run (valueAs what select)).run bytes = (.ok a, rest)) :
    ∃ v, select v = some a ∧ v.Fits ∧ bytes = v.encode ++ rest := by
  obtain ⟨v, rest', hvalue, h⟩ := exists_of_run_bind h
  split at h
  · next a' hselect =>
    cases h
    exact ⟨v, hselect, eq_of_value hvalue⟩
  · cases h

end Frame.Reader

namespace Request

open Frame.Reader

variable {n : Name} {o : Object} {bytes rest : Bytes}

/-! ## One argument -/

theorem yields_readName_any (h : (Wire.Value.name n).Fits) (tag : Tag) :
    Yields readName (tag.code :: (Wire.Value.name n).encode) (.ok n) :=
  (yields_tag tag).bind (yields_name h)

theorem yields_readObject_any (h : (Wire.Value.object o).Fits) (tag : Tag) :
    Yields readObject (tag.code :: (Wire.Value.object o).encode) (.ok o) :=
  (yields_tag tag).bind (yields_object h)

theorem eq_of_readName (h : (ExceptT.run readName).run bytes = (.ok n, rest)) :
    (Wire.Value.name n).Fits ∧
      ∃ tag : Tag, bytes = tag.code :: ((Wire.Value.name n).encode ++ rest) := by
  obtain ⟨tag, rest', htag, hrest⟩ := exists_of_run_bind h
  obtain ⟨v, hselect, hfits, hbytes⟩ := exists_of_valueAs hrest
  cases v <;> cases hselect
  exact ⟨hfits, tag, hbytes ▸ eq_of_tag htag⟩

theorem eq_of_readObject (h : (ExceptT.run readObject).run bytes = (.ok o, rest)) :
    (Wire.Value.object o).Fits ∧
      ∃ tag : Tag, bytes = tag.code :: ((Wire.Value.object o).encode ++ rest) := by
  obtain ⟨tag, rest', htag, hrest⟩ := exists_of_run_bind h
  obtain ⟨v, hselect, hfits, hbytes⟩ := exists_of_valueAs hrest
  cases v <;> cases hselect
  exact ⟨hfits, tag, hbytes ▸ eq_of_tag htag⟩

/-! ## All arguments -/

/-- Values, each after a byte. -/
def mark (marks : List UInt8) (values : List Wire.Value) : Bytes :=
  (List.zipWith (fun b v => b :: v.encode) marks values).flatten

/-- The frame of a request with `marks` in the places of the tags, and `more` after the arguments. -/
def marked (h : Header) (r : Request) (marks : List UInt8) (more : Bytes) : Bytes :=
  Frame.writeHeader h ++ (mark marks r.values ++ more)

@[simp] theorem mark_cons (b : UInt8) (marks : List UInt8) (v : Wire.Value)
    (values : List Wire.Value) :
    mark (b :: marks) (v :: values) = b :: (v.encode ++ mark marks values) := rfl

@[simp] theorem mark_nil (values : List Wire.Value) : mark [] values = [] := rfl

theorem Travels.name {r : Request} (h : r.Travels) : (Wire.Value.name r.name).Fits := by
  cases r <;> exact h _ (.head _)

theorem yields_one (f : Name → Request) (h : (Wire.Value.name n).Fits) (tag : Tag) :
    Yields (do return f (← readName)) (mark [tag.code] [.name n]) (.ok (f n)) := by
  rw [mark_cons, mark_nil, List.append_nil]
  exact (yields_readName_any h tag).map f

theorem yields_two {α : Type} {second : Frame.Reader α} {v : Wire.Value} {a : α}
    (f : Name → α → Request) (h : (Wire.Value.name n).Fits) (tag tag' : Tag)
    (hsecond : Yields second (tag'.code :: v.encode) (.ok a)) :
    Yields (do return f (← readName) (← second)) (mark [tag.code, tag'.code] [.name n, v])
      (.ok (f n a)) := by
  rw [mark_cons, mark_cons, mark_nil, List.append_nil]
  exact (yields_readName_any h tag).bind (hsecond.map (f n))

/-- Whatever the tags are, the request is read. -/
theorem yields_read_any {r : Request} (h : r.Travels) {tags : List Tag}
    (hlength : tags.length = r.values.length) :
    Yields (read r.operation) (mark (tags.map Tag.code) r.values) (.ok r) := by
  have hname := h.name
  cases r with
  | lookup n | list n | listBindings n | unbind n | createSubcontext n | destroySubcontext n
  | lookupLink n =>
    obtain ⟨tag, rfl⟩ := List.length_eq_one_iff.mp hlength
    exact yields_one _ hname tag
  | bind n o | rebind n o =>
    obtain ⟨tag, tag', rfl⟩ := List.length_eq_two.mp hlength
    exact yields_two _ hname tag tag' (yields_readObject_any (h _ (.tail _ (.head _))) tag')
  | rename n m =>
    obtain ⟨tag, tag', rfl⟩ := List.length_eq_two.mp hlength
    exact yields_two _ hname tag tag' (yields_readName_any (h _ (.tail _ (.head _))) tag')

/-- What is read as a request is its arguments after tags. -/
theorem eq_of_read {op : Operation} {r : Request}
    (h : (ExceptT.run (read op)).run bytes = (.ok r, rest)) :
    r.Travels ∧ ∃ tags : List Tag, tags.length = r.values.length ∧
      bytes = mark (tags.map Tag.code) r.values ++ rest := by
  cases op with
  | lookup | list | listBindings | unbind | createSubcontext | destroySubcontext | lookupLink =>
    obtain ⟨n, rest₁, hname, hend⟩ := exists_of_run_bind h
    cases hend
    obtain ⟨hfits, tag, hbytes⟩ := eq_of_readName hname
    refine ⟨List.forall_mem_singleton.mpr hfits, [tag], rfl, ?_⟩
    rw [hbytes]
    simp [mark, values, names, name]
  | bind | rebind =>
    obtain ⟨n, rest₁, hname, hrest⟩ := exists_of_run_bind h
    obtain ⟨o, rest₂, hobject, hend⟩ := exists_of_run_bind hrest
    cases hend
    obtain ⟨hfits, tag, hbytes⟩ := eq_of_readName hname
    obtain ⟨hfits', tag', hbytes'⟩ := eq_of_readObject hobject
    refine ⟨List.forall_mem_cons.mpr ⟨hfits, List.forall_mem_singleton.mpr hfits'⟩,
      [tag, tag'], rfl, ?_⟩
    rw [hbytes, hbytes']
    simp [mark, values]
  | rename =>
    obtain ⟨n, rest₁, hname, hrest⟩ := exists_of_run_bind h
    obtain ⟨m, rest₂, hname', hend⟩ := exists_of_run_bind hrest
    cases hend
    obtain ⟨hfits, tag, hbytes⟩ := eq_of_readName hname
    obtain ⟨hfits', tag', hbytes'⟩ := eq_of_readName hname'
    refine ⟨List.forall_mem_cons.mpr ⟨hfits, List.forall_mem_singleton.mpr hfits'⟩,
      [tag, tag'], rfl, ?_⟩
    rw [hbytes, hbytes']
    simp [mark, values, names]

/-! ### A byte that is no tag -/

theorem yields_readName_unknown {b : UInt8} (hb : ∀ tag : Tag, tag.code ≠ b) :
    Yields readName [b] (.error (.violation (.unknownTag b))) :=
  (yields_tag_unknown hb).bind_error

theorem yields_readObject_unknown {b : UInt8} (hb : ∀ tag : Tag, tag.code ≠ b) :
    Yields readObject [b] (.error (.violation (.unknownTag b))) :=
  (yields_tag_unknown hb).bind_error

theorem yields_two_unknown {α : Type} {second : Frame.Reader α} {b : UInt8} {e : TransportFault}
    (f : Name → α → Request) (h : (Wire.Value.name n).Fits) (tag : Tag)
    (hsecond : Yields second [b] (.error e)) :
    Yields (do return f (← readName) (← second)) (mark [tag.code] [.name n] ++ [b]) (.error e) := by
  rw [mark_cons, mark_nil, List.append_nil]
  exact (yields_readName_any h tag).bind hsecond.bind_error

/-- The reading ends at the first byte that is no tag. -/
theorem yields_read_unknown {r : Request} (h : r.Travels) {tags : List Tag} {b : UInt8}
    (hb : ∀ tag : Tag, tag.code ≠ b) (hlength : tags.length < r.values.length) :
    Yields (read r.operation) (mark (tags.map Tag.code) r.values ++ [b])
      (.error (.violation (.unknownTag b))) := by
  have hname := h.name
  cases tags with
  | nil => cases r <;> exact (yields_readName_unknown hb).bind_error
  | cons tag tags =>
    -- after a tag only a second argument can have a wrong byte before it
    cases r with
    | lookup n | list n | listBindings n | unbind n | createSubcontext n | destroySubcontext n
    | lookupLink n => simp [values, names] at hlength
    | bind n o | rebind n o =>
      obtain rfl := List.length_eq_zero_iff.mp (Nat.lt_one_iff.mp (Nat.lt_of_succ_lt_succ hlength))
      exact yields_two_unknown _ hname tag (yields_readObject_unknown hb)
    | rename n m =>
      obtain rfl := List.length_eq_zero_iff.mp (Nat.lt_one_iff.mp (Nat.lt_of_succ_lt_succ hlength))
      exact yields_two_unknown _ hname tag (yields_readName_unknown hb)

theorem mark_append {marks : List UInt8} {values : List Wire.Value}
    (h : marks.length < values.length) (b : UInt8) (marks' : List UInt8) :
    ∃ more, mark (marks ++ b :: marks') values = mark marks values ++ [b] ++ more := by
  induction marks generalizing values with
  | nil =>
    cases values with
    | nil => cases h
    | cons v values => exact ⟨v.encode ++ mark marks' values, rfl⟩
  | cons c marks ih =>
    cases values with
    | nil => cases h
    | cons v values =>
      obtain ⟨more, heq⟩ := ih (Nat.lt_of_succ_lt_succ h)
      exact ⟨more, by simp only [List.cons_append, mark_cons, heq, List.append_assoc]⟩

/-! ## Whole messages -/

/-- A message that is read as a request is the frame of one, with tags before the arguments. -/
theorem exists_marked {m : Bytes} {h : Header} {r : Request} (hm : ofMessage? m = some (h, r)) :
    Operation.ofCode? h.code = some r.operation ∧ r.Travels ∧
      ∃ (tags : List Tag) (more : Bytes), tags.length = r.values.length ∧
        m = r.marked h (tags.map Tag.code) more := by
  obtain ⟨body, hheader, hop, hread⟩ := exists_of_ofMessage? hm
  obtain ⟨htravels, tags, hlength, hbody⟩ := eq_of_read (Prod.ext hread rfl)
  exact ⟨hop, htravels, tags, _, hlength, by rw [marked, ← hbody, eq_of_header hheader]⟩

theorem ofMessage?_marked {h : Header} {r : Request} (hop : Operation.ofCode? h.code = some r.operation)
    (htravels : r.Travels) {tags : List Tag} (hlength : tags.length = r.values.length) (more : Bytes) :
    ofMessage? (r.marked h (tags.map Tag.code) more) = some (h, r) := by
  unfold ofMessage? marked
  rw [(yields_header h).on]
  simp only [hop, (yields_read_any htravels hlength).on]

end Request

namespace Tree

/-- The request in a message is answered in the same way whatever the tags of its arguments are and
whatever follows them.  If one of the bytes there is no tag, the first such is told of as an internal
fault, if anybody waits for an answer, and the tree stays as it is. -/
theorem dispatch_marked (t : Tree) {m : Bytes} {h : Header} {r : Request}
    (hm : Request.ofMessage? m = some (h, r)) :
    (∃ (tags : List Tag) (more : Bytes), tags.length = r.values.length ∧
      m = r.marked h (tags.map Tag.code) more) ∧
    (∀ (tags : List Tag) (more : Bytes), tags.length = r.values.length →
      t.dispatch (r.marked h (tags.map Tag.code) more) = t.dispatch m) ∧
    (∀ (tags : List Tag) (b : UInt8) (marks : List UInt8) (more : Bytes),
      (∀ tag : Tag, tag.code ≠ b) → (tags.map Tag.code ++ b :: marks).length = r.values.length →
      t.dispatch (r.marked h (tags.map Tag.code ++ b :: marks) more) =
        (if h.number = 0 then none
          else some (internalFailure h (.violation (.unknownTag b))), t)) := by
  obtain ⟨hop, htravels, hframe⟩ := Request.exists_marked hm
  refine ⟨hframe, fun tags more hlength => ?_, fun tags b marks more hb hlength => ?_⟩
  · rw [t.dispatch_of_request hm,
      t.dispatch_of_request (Request.ofMessage?_marked hop htravels hlength more)]
  · have hshort : (tags.map Tag.code).length < r.values.length := by
      rw [← hlength, List.length_append, List.length_cons]
      omega
    obtain ⟨rest, hmark⟩ := Request.mark_append hshort b marks
    rw [List.length_map] at hshort
    have hread := (Request.yields_read_unknown htravels hb hshort).on (rest ++ more)
    rw [Request.marked, hmark, List.append_assoc _ rest]
    simp only [dispatch, (Frame.Reader.yields_header h).on, hop, serveBody, hread]
    rfl

/-- A binding whose name is said to be a list and whose object to be nothing, with two bytes more; and
one whose object is said to be what no tag stands for. -/
theorem dispatch_marked_bind :
    let h : Header := ⟨0x02, 7⟩
    let r : Request := .bind ⟨["a"]⟩ .null
    Request.ofMessage? (r.encode 7) = some (h, r) ∧
      Tree.empty.dispatch (r.marked h [0x06, 0x03] [1, 2]) = Tree.empty.dispatch (r.encode 7) ∧
      Tree.empty.dispatch (r.marked h [0x06, 0xff] []) =
        (some (internalFailure h (.violation (.unknownTag 0xff))), Tree.empty) := by
  intro h r
  have hm : Request.ofMessage? (r.encode 7) = some (h, r) :=
    Request.ofMessage?_encode (by decide) 7
  obtain ⟨-, hany, hunknown⟩ := dispatch_marked Tree.empty hm
  refine ⟨hm, hany [.list, .void] [1, 2] rfl, ?_⟩
  exact hunknown [.list] 0xff [] [] (fun tag => by cases tag <;> decide) rfl

end Tree

end NameDirectory
