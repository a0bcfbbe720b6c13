import NameDirectory.Proofs.Remote

/-!
# Whole answers or none

Whatever bytes arrive, they are answered with one whole frame or not at all, and the
directory changes only with an answer that tells of success.

* `Frame.Reader.exists_header`, `Frame.Reader.header_of_short`: five bytes make a header,
  fewer do not;
* `Reply.exists_write`: only listings can fail to be written, so
  `Tree.eq_of_unwritten`: what cannot be told changed nothing;
* `Tree.Unanswered` says what is not answered, and `Tree.Answers` with what a request is;
* `Tree.dispatch_whole`: when there is an answer, which one, and what becomes of the tree.
-/

namespace NameDirectory

/-! ## Headers -/

namespace Frame

namespace Reader

theorem toNat_toInt32 {n : Nat} (h : n < 4294967296) :
    n.toUInt32.toInt32.toUInt32.toNat = n := by
  rw [UInt32.toUInt32_toInt32]
  simp only [Nat.toUInt32_eq, UInt32.toNat_ofNat']
  omega

theorem header_of_short {m : Bytes} (h : m.length < 5) :
    ∃ fault rest, header.on m = (.error fault, rest) := by
  match m, h with
  | [], _ => exact ⟨_, _, rfl⟩
  | [_], _ => exact ⟨_, _, rfl⟩
  | [_, _], _ => exact ⟨_, _, rfl⟩
  | [_, _, _], _ => exact ⟨_, _, rfl⟩
  | [_, _, _, _], _ => exact ⟨_, _, rfl⟩

theorem exists_header {m : Bytes} (h : 5 ≤ m.length) :
    ∃ hd : Header, header.on m = (.ok hd, m.drop 5) ∧ m.head? = some hd.code ∧
      writeHeader hd = m.take 5 := by
  match m, h with
  | a :: b :: c :: d :: e :: body, _ =>
    have hlt : Wire.Decoder.ofBigEndian [b, c, d, e] < 4294967296 :=
      Nat.lt_of_lt_of_eq (Wire.ofBigEndian_lt [b, c, d, e]) (by simp)
    generalize hn : Wire.Decoder.ofBigEndian [b, c, d, e] = n at hlt
    have hwrite : writeHeader ⟨a, n.toUInt32.toInt32⟩ = [a, b, c, d, e] := by
      simp only [writeHeader, toNat_toInt32 hlt]
      rw [← hn]
      exact congrArg (a :: ·) (Wire.bigEndian_ofBigEndian [b, c, d, e])
    have hread := (yields_header ⟨a, n.toUInt32.toInt32⟩).on body
    rw [hwrite] at hread
    exact ⟨⟨a, n.toUInt32.toInt32⟩, hread, rfl, hwrite⟩

theorem eq_of_header {m body : Bytes} {h : Header} (hread : header.on m = (.ok h, body)) :
    m = writeHeader h ++ body := by
  by_cases hlength : m.length < 5
  · obtain ⟨fault, rest, hshort⟩ := header_of_short hlength
    cases hshort.symm.trans hread
  · obtain ⟨h', hread', -, hwrite⟩ := exists_header (Nat.le_of_not_lt hlength)
    cases hread'.symm.trans hread
    rw [hwrite, List.take_append_drop]

end Reader

/-- The number of a header is zero if its four bytes are. -/
theorem number_eq_zero_iff {m : Bytes} {hd : Header} (h : writeHeader hd = m.take 5) :
    hd.number = 0 ↔ (m.drop 1).take 4 = [0, 0, 0, 0] := by
  have hbytes : (m.drop 1).take 4 = Wire.bigEndian 4 hd.number.toUInt32.toNat := by
    have hdrop := congrArg (List.drop 1) h
    rw [List.drop_take] at hdrop
    exact hdrop.symm
  rw [hbytes]
  constructor
  · intro hzero
    rw [hzero]
    rfl
  · intro hzero
    have hnumber := congrArg Wire.Decoder.ofBigEndian hzero
    rw [Wire.ofBigEndian_bigEndian hd.number.toUInt32.toNat_lt] at hnumber
    have hword : hd.number.toUInt32 = 0 := UInt32.toNat_inj.mp hnumber
    simpa using congrArg UInt32.toInt32 hword

end Frame

namespace Operation

theorem eq_of_code_eq {op op' : Operation} (h : op.code = op'.code) : op = op' := by
  have hsome : some op = some op' := by
    rw [← ofCode?_code op, ← ofCode?_code op', h]
  exact Option.some.inj hsome

theorem code_of_ofCode? {b : UInt8} {op : Operation} (h : ofCode? b = some op) : op.code = b := by
  have hfound := List.find?_some h
  exact eq_of_beq hfound

theorem ne_code_of_ofCode? {b : UInt8} (h : ofCode? b = none) (op : Operation) : op.code ≠ b := by
  rintro rfl
  rw [ofCode?_code] at h
  cases h

end Operation

/-! ## What cannot be written -/

/-- Only listings can be too long, or hold a key that is. -/
theorem Reply.exists_write (op : Operation) {reply : Reply} (hpairs : ∀ items, reply ≠ .pairs items)
    (hbindings : ∀ items, reply ≠ .bindings items) : ∃ bytes, reply.write op = .ok bytes := by
  cases reply with
  | void => exact ⟨_, rfl⟩
  | entry e => cases e <;> exact ⟨_, rfl⟩
  | pairs items => exact absurd rfl (hpairs items)
  | bindings items => exact absurd rfl (hbindings items)

namespace Tree

/-- What cannot be told changed nothing. -/
theorem eq_of_unwritten {t t' : Tree} {r : Request} {reply : Reply} {op : Operation}
    {fault : TransportFault} (h : t.answer r = .ok (reply, t'))
    (hwrite : reply.write op = .error fault) : t' = t := by
  have hadmits := admits_of_answer h
  cases r with
  | list n | listBindings n =>
    obtain ⟨items, -, h⟩ := exists_of_bind_eq_ok h
    cases h
    rfl
  | lookup n | lookupLink n | createSubcontext n | bind n o | rebind n o | unbind n | rename n m
  | destroySubcontext n =>
    have hwritten : ∃ bytes, reply.write op = .ok bytes :=
      reply.exists_write op (by rintro items rfl; exact hadmits) (by rintro items rfl; exact hadmits)
    obtain ⟨bytes, hok⟩ := hwritten
    rw [hok] at hwrite
    cases hwrite

/-! ## Answers -/

/-- Why a request is not served: its arguments cannot be read, or its result cannot be written. -/
inductive Unserved (t : Tree) (op : Operation) (body : Bytes) : TransportFault → Prop
  | unread {fault : TransportFault} (h : ((Request.read op).on body).1 = .error fault) :
      Unserved t op body fault
  | unwritten {r : Request} {reply : Reply} {t' : Tree} {fault : TransportFault}
      (hread : ((Request.read op).on body).1 = .ok r) (hanswer : t.answer r = .ok (reply, t'))
      (hwrite : reply.write op = .error fault) : Unserved t op body fault

/-- What follows the header of an answer, and the tree that goes with it: the whole result and
the tree that the request leaves, or one exception and the tree as it was. -/
inductive Answers (t : Tree) (op : Operation) (body : Bytes) : Bytes → Tree → Prop
  | success {r : Request} {reply : Reply} {t' : Tree} {result : Bytes}
      (hread : ((Request.read op).on body).1 = .ok r) (hanswer : t.answer r = .ok (reply, t'))
      (hwrite : reply.write op = .ok result) : Answers t op body (Frame.success :: result) t'
  | refused {r : Request} {fault : NamingFault} (hread : ((Request.read op).on body).1 = .ok r)
      (hanswer : t.answer r = .error fault) :
      Answers t op body (Frame.failure :: Frame.writeValue .exception (.fault fault)) t
  | failed {fault : TransportFault} (h : t.Unserved op body fault) :
      Answers t op body
        (Frame.failure :: Frame.writeValue .exception (.fault (.internal fault.message))) t

/-- A request that was read fails only for want of a way to write its result. -/
theorem Unserved.exists_unwritten {t : Tree} {op : Operation} {body : Bytes} {r : Request}
    {fault : TransportFault} (h : t.Unserved op body fault)
    (hread : ((Request.read op).on body).1 = .ok r) :
    ∃ reply t', t.answer r = .ok (reply, t') ∧ reply.write op = .error fault := by
  cases h with
  | unread h =>
    rw [hread] at h
    cases h
  | unwritten h hanswer hwrite =>
    obtain rfl := Except.ok.inj (hread.symm.trans h)
    exact ⟨_, _, hanswer, hwrite⟩

/-- A body is answered as the directory answers the request in it, or its handler fails. -/
theorem serveBody_spec (t : Tree) (h : Header) (op : Operation) (body : Bytes) :
    (∃ outcome t', t.serveBody h op body = (some (Frame.writeHeader h ++ outcome), t') ∧
      t.Answers op body outcome t' ∧ ∀ fault, ¬ t.Unserved op body fault) ∨
    ∃ fault, t.Unserved op body fault ∧ t.serveBody h op body = (failed h fault, t) := by
  cases hread : ((Request.read op).on body).1 with
  | error fault =>
    refine .inr ⟨fault, .unread hread, ?_⟩
    simp only [serveBody, hread]
  | ok r =>
    cases hanswer : t.answer r with
    | error fault =>
      refine .inl ⟨_, t, ?_, .refused hread hanswer, ?_⟩
      · simp only [serveBody, hread, serve_eq_answer, hanswer, writeOutcome]
      · intro fault' hunserved
        obtain ⟨reply, t', h, -⟩ := hunserved.exists_unwritten hread
        rw [hanswer] at h
        cases h
    | ok answer =>
      obtain ⟨reply, t'⟩ := answer
      cases hwrite : reply.write op with
      | error fault =>
        refine .inr ⟨fault, .unwritten hread hanswer hwrite, ?_⟩
        simp only [serveBody, hread, serve_eq_answer, hanswer, writeOutcome, hwrite, Except.map]
        rw [eq_of_unwritten hanswer hwrite]
      | ok result =>
        refine .inl ⟨_, t', ?_, .success hread hanswer hwrite, ?_⟩
        · simp only [serveBody, hread, serve_eq_answer, hanswer, writeOutcome, hwrite, Except.map]
        · intro fault' hunserved
          obtain ⟨_, _, h, hwrite'⟩ := hunserved.exists_unwritten hread
          cases hanswer.symm.trans h
          rw [hwrite] at hwrite'
          cases hwrite'

/-- A message that is not even a request is not answered; of any other, the body is served. -/
theorem dispatch_cases (t : Tree) (m : Bytes) :
    ((m.length < 5 ∨ ∀ op : Operation, m.head? ≠ some op.code) ∧ t.dispatch m = (none, t)) ∨
    ∃ (h : Header) (op : Operation), 5 ≤ m.length ∧ m.head? = some op.code ∧
      Frame.writeHeader h = m.take 5 ∧ t.dispatch m = t.serveBody h op (m.drop 5) := by
  by_cases hlength : m.length < 5
  · obtain ⟨fault, rest, hshort⟩ := Frame.Reader.header_of_short hlength
    refine .inl ⟨.inl hlength, ?_⟩
    simp only [dispatch, hshort]
  · obtain ⟨h, hread, hcode, hwrite⟩ := Frame.Reader.exists_header (Nat.le_of_not_lt hlength)
    cases hop : Operation.ofCode? h.code with
    | none =>
      refine .inl ⟨.inr fun op hhead => ?_, ?_⟩
      · rw [hcode] at hhead
        exact Operation.ne_code_of_ofCode? hop op (Option.some.inj hhead).symm
      · simp only [dispatch, hread, hop]
    | some op =>
      refine .inr ⟨h, op, Nat.le_of_not_lt hlength, ?_, hwrite, ?_⟩
      · rw [hcode, Operation.code_of_ofCode? hop]
      · simp only [dispatch, hread, hop]

theorem exists_success_of_answers {t t' : Tree} {op : Operation} {body outcome : Bytes}
    (h : t.Answers op body outcome t') (hchanged : t' ≠ t) :
    ∃ result, outcome = Frame.success :: result := by
  cases h with
  | success => exact ⟨_, rfl⟩
  | refused | failed => exact absurd rfl hchanged

/-- What is not answered: a message that is too short for a header or names no operation, and a
request that is not served and whose number says that nobody waits. -/
def Unanswered (t : Tree) (m : Bytes) : Prop :=
  m.length < 5 ∨ (∀ op : Operation, m.head? ≠ some op.code) ∨
    ((m.drop 1).take 4 = [0, 0, 0, 0] ∧
      ∃ op fault, m.head? = some op.code ∧ t.Unserved op (m.drop 5) fault)

theorem unanswered_iff {t : Tree} {m : Bytes} {h : Header} {op : Operation} (hlength : 5 ≤ m.length)
    (hcode : m.head? = some op.code) (hheader : Frame.writeHeader h = m.take 5) :
    t.Unanswered m ↔ h.number = 0 ∧ ∃ fault, t.Unserved op (m.drop 5) fault := by
  rw [Frame.number_eq_zero_iff hheader]
  constructor
  · rintro (hshort | hnone | ⟨hzero, op', fault, hcode', hunserved⟩)
    · omega
    · exact absurd hcode (hnone op)
    · obtain rfl := Operation.eq_of_code_eq (Option.some.inj (hcode'.symm.trans hcode))
      exact ⟨hzero, fault, hunserved⟩
  · rintro ⟨hzero, fault, hunserved⟩
    exact .inr (.inr ⟨hzero, op, fault, hcode, hunserved⟩)

/-- Every message is answered with one whole frame that repeats its header, unless it is one that
is not answered at all; and the tree is another only where the answer tells of success. -/
theorem dispatch_whole (t : Tree) (m : Bytes) :
    ((t.dispatch m).1 = none ↔ t.Unanswered m) ∧
    (∀ frame, (t.dispatch m).1 = some frame →
      ∃ op outcome, m.head? = some op.code ∧ frame = m.take 5 ++ outcome ∧
        t.Answers op (m.drop 5) outcome (t.dispatch m).2) ∧
    ((t.dispatch m).2 ≠ t →
      ∃ result, (t.dispatch m).1 = some (m.take 5 ++ Frame.success :: result)) := by
  rcases dispatch_cases t m with ⟨hno, heq⟩ | ⟨h, op, hlength, hcode, hheader, heq⟩
  · rw [heq]
    refine ⟨⟨fun _ => ?_, fun _ => rfl⟩, fun frame hframe => ?_, fun hchanged => absurd rfl hchanged⟩
    · exact hno.imp_right .inl
    · cases hframe
  rw [unanswered_iff hlength hcode hheader, heq, ← hheader]
  rcases serveBody_spec t h op (m.drop 5) with
    ⟨outcome, t', hserve, hanswers, hserved⟩ | ⟨fault, hunserved, hserve⟩
  · rw [hserve]
    refine ⟨⟨fun hnone => ?_, fun hfails => ?_⟩, fun frame hframe => ?_, fun hchanged => ?_⟩
    · cases hnone
    · obtain ⟨-, fault, hunserved⟩ := hfails
      exact absurd hunserved (hserved fault)
    · cases hframe
      exact ⟨op, outcome, hcode, rfl, hanswers⟩
    · obtain ⟨result, rfl⟩ := exists_success_of_answers hanswers hchanged
      exact ⟨result, rfl⟩
  · rw [hserve, failed]
    by_cases hzero : h.number = 0
    · rw [if_pos hzero]
      refine ⟨⟨fun _ => ⟨hzero, fault, hunserved⟩, fun _ => rfl⟩, fun frame hframe => ?_,
        fun hchanged => absurd rfl hchanged⟩
      cases hframe
    · rw [if_neg hzero]
      refine ⟨⟨fun hnone => ?_, fun hfails => absurd hfails.1 hzero⟩, fun frame hframe => ?_,
        fun hchanged => absurd rfl hchanged⟩
      · cases hnone
      · cases hframe
        exact ⟨op, _, hcode, rfl, .failed hunserved⟩

end Tree

end NameDirectory
