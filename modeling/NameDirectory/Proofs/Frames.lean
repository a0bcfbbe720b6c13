import NameDirectory.Service
import NameDirectory.Proofs.RoundTrip

/-!
# Frames read back

`Yields` says what a reader makes of the bytes at the front of a frame, a value or a
fault.  Headers, counts, texts and values that were written are read back, and so are
the arguments of a request (`Request.yields_read`).
-/

namespace NameDirectory

variable {ε α β : Type}

/-- `r` takes exactly `bytes` off the front of anything that starts with them, and ends with
`result`. -/
def Yields (r : ExceptT ε (StateM Bytes) α) (bytes : Bytes) (result : Except ε α) : Prop :=
  ∀ rest, (ExceptT.run r).run (bytes ++ rest) = (result, rest)

namespace Yields

theorem pure (a : α) : Yields (Pure.pure a : ExceptT ε (StateM Bytes) α) [] (.ok a) :=
  fun _ => rfl

theorem throw (e : ε) : Yields (MonadExcept.throw e : ExceptT ε (StateM Bytes) α) [] (.error e) :=
  fun _ => rfl

theorem bind {r : ExceptT ε (StateM Bytes) α} {f : α → ExceptT ε (StateM Bytes) β}
    {b b' : Bytes} {a : α} {result : Except ε β} (h : Yields r b (.ok a))
    (h' : Yields (f a) b' result) : Yields (r >>= f) (b ++ b') result := by
  intro rest
  have hr := h (b' ++ rest)
  rw [← List.append_assoc] at hr
  rw [← h' rest]
  simp only [ExceptT.run_bind, StateT.run_bind, hr]
  rfl

/-- What follows takes nothing. -/
theorem bind_nil {r : ExceptT ε (StateM Bytes) α} {f : α → ExceptT ε (StateM Bytes) β}
    {b : Bytes} {a : α} {result : Except ε β} (h : Yields r b (.ok a))
    (h' : Yields (f a) [] result) : Yields (r >>= f) b result := by
  have hbind := h.bind h'
  rwa [List.append_nil] at hbind

theorem bind_error {r : ExceptT ε (StateM Bytes) α} {f : α → ExceptT ε (StateM Bytes) β}
    {b : Bytes} {e : ε} (h : Yields r b (.error e)) : Yields (r >>= f) b (.error e) := by
  intro rest
  simp only [ExceptT.run_bind, StateT.run_bind, h rest]
  rfl

theorem map {r : ExceptT ε (StateM Bytes) α} {b : Bytes} {a : α} (h : Yields r b (.ok a))
    (f : α → β) : Yields (do return f (← r)) b (.ok (f a)) :=
  h.bind_nil (pure (f a))

theorem run_get_bind (f : Bytes → ExceptT ε (StateM Bytes) α) (bytes : Bytes) :
    (ExceptT.run (get >>= f)).run bytes = (ExceptT.run (f bytes)).run bytes := rfl

end Yields

theorem run_bind_of_ok {r : ExceptT ε (StateM Bytes) α} {bytes rest : Bytes} {a : α}
    (h : (ExceptT.run r).run bytes = (.ok a, rest)) (f : α → ExceptT ε (StateM Bytes) β) :
    (ExceptT.run (r >>= f)).run bytes = (ExceptT.run (f a)).run rest := by
  rw [ExceptT.run_bind, StateT.run_bind, h]
  rfl

theorem run_bind_of_error {r : ExceptT ε (StateM Bytes) α} {bytes rest : Bytes} {e : ε}
    (h : (ExceptT.run r).run bytes = (.error e, rest)) (f : α → ExceptT ε (StateM Bytes) β) :
    (ExceptT.run (r >>= f)).run bytes = (.error e, rest) := by
  rw [ExceptT.run_bind, StateT.run_bind, h]
  rfl

theorem exists_of_run_bind {r : ExceptT ε (StateM Bytes) α} {f : α → ExceptT ε (StateM Bytes) β}
    {bytes rest : Bytes} {b : β} (h : (ExceptT.run (r >>= f)).run bytes = (.ok b, rest)) :
    ∃ a rest', (ExceptT.run r).run bytes = (.ok a, rest') ∧
      (ExceptT.run (f a)).run rest' = (.ok b, rest) := by
  rw [ExceptT.run_bind, StateT.run_bind] at h
  rcases hr : (ExceptT.run r).run bytes with ⟨fault | a, rest'⟩
  · rw [hr] at h
    cases h
  · rw [hr] at h
    exact ⟨a, rest', rfl, h⟩

/-! ## What frames are made of -/

namespace Frame.Reader

theorem yields_take (b : Bytes) : Yields (take b.length) b (.ok b) := by
  intro rest
  have hlong : ¬ ((b ++ rest).take b.length).length < b.length := by simp
  unfold take
  rw [Yields.run_get_bind, if_neg hlong, List.take_left]
  change (Except.ok b, (b ++ rest).drop b.length) = _
  rw [List.drop_left]

theorem yields_number {width n : Nat} (h : n < Nat.pow 256 width) :
    Yields (number width) (Wire.bigEndian width n) (.ok n) := by
  have hread := (yields_take (Wire.bigEndian width n)).map Wire.Decoder.ofBigEndian
  rwa [Wire.length_bigEndian, Wire.ofBigEndian_bigEndian h] at hread

theorem yields_byte (b : UInt8) : Yields byte [b] (.ok b) := by
  have hb : Wire.bigEndian 1 b.toNat = [b] := by simp [Wire.bigEndian]
  have hn : b.toNat < Nat.pow 256 1 := b.toNat_lt
  have h := (yields_number hn).map Nat.toUInt8
  rwa [hb, show b.toNat.toUInt8 = b by simp] at h

theorem eq_of_byte {bytes rest : Bytes} {b : UInt8}
    (h : (ExceptT.run byte).run bytes = (.ok b, rest)) : bytes = b :: rest := by
  cases bytes with
  | nil => cases h
  | cons c bytes =>
    cases (yields_byte c bytes).symm.trans h
    rfl

theorem yields_count (n : UInt32) : Yields count (Frame.writeCount n) (.ok n) := by
  have hn : n.toNat < Nat.pow 256 4 := n.toNat_lt
  have h := (yields_number hn).map Nat.toUInt32
  rwa [show n.toNat.toUInt32 = n by simp] at h

theorem eq_of_count {bytes rest : Bytes} {n : UInt32}
    (h : (ExceptT.run count).run bytes = (.ok n, rest)) : bytes = Frame.writeCount n ++ rest := by
  match bytes with
  | [] | [_] | [_, _] | [_, _, _] => cases h
  | a :: b :: c :: d :: bytes =>
    have hlt : Wire.Decoder.ofBigEndian [a, b, c, d] < 4294967296 :=
      Nat.lt_of_lt_of_eq (Wire.ofBigEndian_lt [a, b, c, d]) (by simp)
    have hbytes := Wire.bigEndian_ofBigEndian [a, b, c, d]
    generalize Wire.Decoder.ofBigEndian [a, b, c, d] = m at hlt hbytes
    have hwrite : Frame.writeCount m.toUInt32 = [a, b, c, d] := by
      rw [Frame.writeCount, show m.toUInt32.toNat = m by simp; omega]
      exact hbytes
    have hread := yields_count m.toUInt32 bytes
    rw [hwrite] at hread
    cases hread.symm.trans h
    rw [hwrite]
    rfl

theorem yields_header (h : Header) : Yields header (Frame.writeHeader h) (.ok h) := by
  have hn : h.number.toUInt32.toNat < Nat.pow 256 4 := h.number.toUInt32.toNat_lt
  have hnumber := (yields_number hn).map fun n => Header.mk h.code n.toUInt32.toInt32
  rw [show h.number.toUInt32.toNat.toUInt32.toInt32 = h.number by simp] at hnumber
  exact (yields_byte h.code).bind hnumber

theorem yields_tag (tag : Tag) : Yields Reader.tag [tag.code] (.ok tag) := by
  refine (yields_byte tag.code).bind_nil ?_
  rw [Tag.ofCode_code]
  exact Yields.pure tag

theorem yields_text {s : String} (h : (Text.utf8 s).length < 65536) :
    Yields text (Wire.bigEndian 2 (Text.utf8 s).length ++ Text.utf8 s) (.ok s) := by
  have hlength : Yields (number 2) _ (.ok (Text.utf8 s).length) := yields_number h
  refine (hlength.bind (yields_take (Text.utf8 s))).bind_nil ?_
  rw [Text.ofUtf8?_utf8]
  exact Yields.pure s

/-! ## Values in frames -/

theorem yields_value {v : Wire.Value} (h : v.Fits) : Yields value v.encode (.ok v) := by
  intro rest
  unfold value
  rw [Yields.run_get_bind, Wire.Value.read_encode h rest]
  rfl

theorem yields_valueAs {what : String} {select : Wire.Value → Option α} {v : Wire.Value} {a : α}
    (h : v.Fits) (hselect : select v = some a) : Yields (valueAs what select) v.encode (.ok a) := by
  refine (yields_value h).bind_nil ?_
  rw [hselect]
  exact Yields.pure a

theorem yields_name {n : Name} (h : (Wire.Value.name n).Fits) :
    Yields name (Wire.Value.name n).encode (.ok n) :=
  yields_valueAs h rfl

theorem yields_object {o : Object} (h : (Wire.Value.object o).Fits) :
    Yields object (Wire.Value.object o).encode (.ok o) :=
  yields_valueAs h rfl

theorem yields_exception {f : NamingFault} (h : (Wire.Value.fault f).Fits) :
    Yields exception (Wire.Value.fault f).encode (.ok f) :=
  yields_valueAs h rfl

theorem yields_binding {b : Binding Object} (h : (Wire.Value.binding b).Fits) :
    Yields binding (Wire.Value.binding b).encode (.ok b) :=
  yields_valueAs h rfl

theorem yields_nameClass {p : NameClass} (h : (Wire.Value.nameClass p).Fits) :
    Yields nameClass (Wire.Value.nameClass p).encode (.ok p) :=
  yields_valueAs h rfl

end Frame.Reader

/-! ## Requests -/

namespace Request

/-- The values that stand in the frame of a request. -/
def values : Request → List Wire.Value
  | bind n o | rebind n o => [.name n, .object o]
  | r => r.names.map .name

/-- All values of the request are within the limits of reading. -/
def Travels (r : Request) : Prop := ∀ v ∈ r.values, v.Fits

instance (r : Request) : Decidable r.Travels := inferInstanceAs (Decidable (∀ v ∈ _, _))

theorem yields_readName {n : Name} (h : (Wire.Value.name n).Fits) :
    Yields readName (Frame.writeName n) (.ok n) :=
  (Frame.Reader.yields_tag .name).bind (Frame.Reader.yields_name h)

theorem yields_readObject {o : Object} (h : (Wire.Value.object o).Fits) :
    Yields readObject (Frame.writeObject o) (.ok o) :=
  (Frame.Reader.yields_tag .object).bind (Frame.Reader.yields_object h)

theorem yields_read {r : Request} (h : r.Travels) :
    Yields (read r.operation) r.writeArguments (.ok r) := by
  cases r with
  | lookup n => exact (yields_readName (h _ (.head _))).map lookup
  | list n => exact (yields_readName (h _ (.head _))).map list
  | listBindings n => exact (yields_readName (h _ (.head _))).map listBindings
  | unbind n => exact (yields_readName (h _ (.head _))).map unbind
  | createSubcontext n => exact (yields_readName (h _ (.head _))).map createSubcontext
  | destroySubcontext n => exact (yields_readName (h _ (.head _))).map destroySubcontext
  | lookupLink n => exact (yields_readName (h _ (.head _))).map lookupLink
  | bind n o =>
    exact (yields_readName (h _ (.head _))).bind
      ((yields_readObject (h _ (.tail _ (.head _)))).map (bind n))
  | rebind n o =>
    exact (yields_readName (h _ (.head _))).bind
      ((yields_readObject (h _ (.tail _ (.head _)))).map (rebind n))
  | rename n m =>
    exact (yields_readName (h _ (.head _))).bind
      ((yields_readName (h _ (.tail _ (.head _)))).map (rename n))

end Request

end NameDirectory
