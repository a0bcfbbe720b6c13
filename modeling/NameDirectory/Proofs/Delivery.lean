import NameDirectory.Proofs.Atomicity
import NameDirectory.Service

/-!
# Responses on their way

A request that can be read and that somebody waits for always has a response.  The service
sends it as one message, and a message that is larger than a packet may be is not sent.

* `Request.ofMessage?` reads a whole message, `Tree.outcome` is what its answer says after the
  header: `Tree.dispatch_of_message`;
* `Channel.send_of_open`: what becomes of a message on an open channel;
* `Service.naming_sends_what_fits`: the response is sent if it fits, and otherwise nothing is;
* `Service.naming_leaves_listing_unanswered`: two objects that are bound without trouble make a listing
  that is never answered.
-/

namespace NameDirectory

/-! ## The response to a message -/

namespace Request

/-- The header and the request in a message, if both can be read. -/
def ofMessage? (m : Bytes) : Option (Header × Request) :=
  match Frame.Reader.header.on m with
  | (.error _, _) => none
  | (.ok h, body) =>
    match Operation.ofCode? h.code with
    | none => none
    | some op =>
      match ((read op).on body).1 with
      | .error _ => none
      | .ok r => some (h, r)

theorem ofMessage?_encode {r : Request} (h : r.Travels) (number : Int32) :
    ofMessage? (r.encode number) = some (⟨r.operation.code, number⟩, r) := by
  have hread := (yields_read h).on []
  rw [List.append_nil] at hread
  unfold ofMessage? encode
  rw [(Frame.Reader.yields_header _).on]
  simp only [Operation.ofCode?_code, hread]

theorem operation_of_read {op : Operation} {body : Bytes} {r : Request}
    (h : ((read op).on body).1 = .ok r) : r.operation = op := by
  have hread : (ExceptT.run (read op)).run body = (.ok r, ((read op).on body).2) := Prod.ext h rfl
  cases op with
  | bind | rebind | rename =>
    obtain ⟨n, rest, -, hread⟩ := exists_of_run_bind hread
    obtain ⟨o, rest, -, hread⟩ := exists_of_run_bind hread
    cases hread
    rfl
  | lookup | list | listBindings | unbind | createSubcontext | destroySubcontext | lookupLink =>
    obtain ⟨n, rest, -, hread⟩ := exists_of_run_bind hread
    cases hread
    rfl

theorem exists_of_ofMessage? {m : Bytes} {h : Header} {r : Request}
    (hm : ofMessage? m = some (h, r)) :
    ∃ body, Frame.Reader.header.on m = (.ok h, body) ∧
      Operation.ofCode? h.code = some r.operation ∧ ((read r.operation).on body).1 = .ok r := by
  unfold ofMessage? at hm
  split at hm
  · cases hm
  next h' body hheader =>
  split at hm
  · cases hm
  next op hop =>
  split at hm
  · cases hm
  next r' hread =>
  cases hm
  obtain rfl := operation_of_read hread
  exact ⟨body, hheader, hop, hread⟩

end Request

namespace Tree

/-- What stands in the response to a request after the header: the result, or that the result
could not be written. -/
def outcome (t : Tree) (r : Request) : Bytes :=
  match writeOutcome r.operation (t.serve r).1 with
  | .ok bytes => bytes
  | .error fault =>
    Frame.failure :: Frame.writeValue .exception (.fault (.internal fault.message))

/-- How a message is answered depends on its header and on the request in it. -/
theorem dispatch_of_request (t : Tree) {m : Bytes} {h : Header} {r : Request}
    (hm : Request.ofMessage? m = some (h, r)) :
    t.dispatch m =
      match writeOutcome r.operation (t.serve r).1 with
      | .ok outcome => (some (Frame.writeHeader h ++ outcome), (t.serve r).2)
      | .error fault => (failed h fault, (t.serve r).2) := by
  obtain ⟨body, hheader, hop, hread⟩ := Request.exists_of_ofMessage? hm
  cases hwrite : writeOutcome r.operation (t.serve r).1 <;>
    simp only [dispatch, hheader, hop, serveBody, hread, hwrite]

theorem dispatch_of_message {t : Tree} {m : Bytes} {h : Header} {r : Request}
    (hm : Request.ofMessage? m = some (h, r)) (hnumber : h.number ≠ 0) :
    t.dispatch m = (some (Frame.writeHeader h ++ t.outcome r), (t.serve r).2) := by
  rw [dispatch_of_request t hm, outcome]
  cases hwrite : writeOutcome r.operation (t.serve r).1 with
  | ok bytes => rfl
  | error fault => simp only [failed, if_neg hnumber, internalFailure]

end Tree

/-! ## Messages on an open channel -/

/-- Neither side has closed the channel, and what is written to the connection gets through. -/
structure Channel.Open (ch : Channel) (c : Connection) : Prop where
  channel : ch.closed = false
  connection : c.closed = false
  writable : c.writeFault = none

theorem Packet.length_encode_message (id : UInt32) (payload : Bytes) :
    (Packet.message id payload).encode.length = 16 + payload.length := by
  simp [encode, encodeId, Wire.encodeByteString]
  omega

namespace Channel

variable {ch : Channel} {c : Connection} {payload : Bytes}

theorem send_of_open (h : ch.Open c) (hfits : 16 + payload.length ≤ Wire.budget) :
    ch.send payload c = (.ok (), { c with sent := c.sent ++ [.message ch.id payload] }) := by
  have hwritten : ∃ bytes, (Packet.message ch.id payload).written = .ok bytes := by
    simp [Packet.written, Packet.length_encode_message, Nat.not_lt.mpr hfits]
  obtain ⟨bytes, hwritten⟩ := hwritten
  simp only [send, Connection.send, h.channel, h.connection, h.writable, hwritten, Bool.false_eq_true,
    if_false]

theorem send_of_large (h : ch.Open c) (hlarge : Wire.budget < 16 + payload.length) :
    ch.send payload c =
      (.error (.violation (.packetTooLarge (16 + payload.length))), c) := by
  simp only [send, Connection.send, h.channel, h.connection, Packet.written,
    Packet.length_encode_message, if_pos hlarge, Bool.false_eq_true, if_false]

end Channel

/-! ## The service -/

namespace Service

section Answer

variable {t : Tree} {c : Connection} {ch : Channel} {m : Bytes} {h : Header} {r : Request}

theorem naming_work_of_fits (hopen : ch.Open c) (hm : Request.ofMessage? m = some (h, r))
    (hnumber : h.number ≠ 0)
    (hfits : 16 + (Frame.writeHeader h ++ t.outcome r).length ≤ Wire.budget) :
    naming.work ch m t c = ((t.serve r).2,
      { c with sent := c.sent ++ [.message ch.id (Frame.writeHeader h ++ t.outcome r)] }) := by
  simp only [work, Tree.dispatch_of_message hm hnumber, Channel.send_of_open hopen hfits]

theorem naming_work_of_large (hopen : ch.Open c) (hm : Request.ofMessage? m = some (h, r))
    (hnumber : h.number ≠ 0)
    (hlarge : Wire.budget < 16 + (Frame.writeHeader h ++ t.outcome r).length) :
    naming.work ch m t c = ((t.serve r).2, c) := by
  simp only [work, Tree.dispatch_of_message hm hnumber, Channel.send_of_large hopen hlarge]

end Answer

/-- The response to a request that somebody waits for is sent if it fits into a packet; if it
does not, the request takes effect and nothing is sent. -/
theorem naming_sends_what_fits {t : Tree} {c : Connection} {ch : Channel} {m : Bytes} {h : Header}
    {r : Request} (hopen : ch.Open c) (hm : Request.ofMessage? m = some (h, r))
    (hnumber : h.number ≠ 0) :
    naming.work ch m t c = ((t.serve r).2,
      if 16 + (Frame.writeHeader h ++ t.outcome r).length ≤ Wire.budget then
        { c with sent := c.sent ++ [.message ch.id (Frame.writeHeader h ++ t.outcome r)] }
      else c) := by
  split
  · next hfits => exact naming_work_of_fits hopen hm hnumber hfits
  · next hlarge => exact naming_work_of_large hopen hm hnumber (Nat.lt_of_not_le hlarge)

/-- A name that is not bound: the response tells so, and is sent. -/
theorem naming_sends_what_fits_not_found :
    let ch : Channel := ⟨1, "naming", 0, false⟩
    let c : Connection := { lines := [(1, .ready 0)], inboxes := [{}] }
    let r : Request := .lookup ⟨["a"]⟩
    let response := Frame.writeHeader ⟨0x01, 7⟩ ++ Tree.empty.outcome r
    ch.Open c ∧ Request.ofMessage? (r.encode 7) = some (⟨0x01, 7⟩, r) ∧ (7 : Int32) ≠ 0 ∧
      naming.work ch (r.encode 7) Tree.empty c = (Tree.empty,
        if 16 + response.length ≤ Wire.budget then
          { c with sent := c.sent ++ [.message ch.id response] }
        else c) := by
  intro ch c r response
  have hopen : ch.Open c := ⟨rfl, rfl, rfl⟩
  have hm : Request.ofMessage? (r.encode 7) = some (⟨0x01, 7⟩, r) :=
    Request.ofMessage?_encode (by decide) 7
  exact ⟨hopen, hm, by decide, naming_sends_what_fits (t := Tree.empty) hopen hm (by decide)⟩

/-! ### A listing that is too large -/

def twice (o : Object) : Tree := [("a", .object o), ("b", .object o)]

theorem travels_bind_bytes {n : Name} {b : Bytes} (hn : (Wire.Value.name n).Fits)
    (hb : 16 + b.length ≤ Wire.budget) : (Request.bind n (.bytes b)).Travels := by
  have hobject : (Wire.Value.object (.bytes b)).Fits := by
    refine ⟨Nat.zero_le _, ?_⟩
    simp only [Wire.Value.need, Object.need, Wire.encodeByteString, List.length_append,
      Wire.length_bigEndian]
    omega
  intro v hv
  simp only [Request.values, List.mem_cons, List.not_mem_nil, or_false] at hv
  rcases hv with rfl | rfl
  · exact hn
  · exact hobject

/-- Each of the objects stands in the listing with all its bytes. -/
theorem le_length_outcome_twice (b : Bytes) :
    b.length + b.length ≤ ((twice (.bytes b)).outcome (.listBindings Name.root)).length := by
  have hserve : ((twice (.bytes b)).serve (.listBindings Name.root)).1 =
      .ok (.bindings [⟨"a", "bytes", .object (.bytes b)⟩, ⟨"b", "bytes", .object (.bytes b)⟩]) := rfl
  have hwrite : writeOutcome .listBindings ((twice (.bytes b)).serve (.listBindings Name.root)).1 =
      .ok (Frame.success :: Tag.list.code :: (Frame.writeCount 2 ++
        (Frame.writeValue .binding (.binding ⟨"a", "bytes", .bytes b⟩) ++
          Frame.writeValue .binding (.binding ⟨"b", "bytes", .bytes b⟩)))) := by
    rw [hserve]
    simp [writeOutcome, Reply.write, Reply.writeCount, Reply.writeBinding, Bind.bind, Except.bind,
      Except.map, Pure.pure, Except.pure]
  simp only [Tree.outcome, Request.operation, hwrite, Frame.writeValue, Wire.Value.encode,
    Binding.encode, Object.encode, Wire.encodeByteString, List.length_cons, List.length_append,
    Wire.length_bigEndian]
  omega

/-- What a binding that succeeds leaves. -/
theorem naming_work_bind {t t' : Tree} {c : Connection} {ch : Channel} {n : Name} {o : Object}
    {number : Int32} (hopen : ch.Open c) (htravels : (Request.bind n o).Travels)
    (hnumber : number ≠ 0) (hbind : t.bind n o = .ok t') :
    naming.work ch ((Request.bind n o).encode number) t c = (t',
      { c with sent := c.sent ++
          [.message ch.id (Frame.writeHeader ⟨0x02, number⟩ ++ [Frame.success, Tag.void.code])] }) := by
  have hserve : t.serve (.bind n o) = (.ok .void, t') := by
    simp [Tree.serve, Tree.answer, hbind, Bind.bind, Except.bind, Pure.pure, Except.pure]
  have houtcome : t.outcome (.bind n o) = [Frame.success, Tag.void.code] := by
    simp only [Tree.outcome, hserve]
    rfl
  have hmessage := Request.ofMessage?_encode htravels number
  rw [naming_work_of_fits hopen hmessage hnumber, houtcome, hserve]
  · rfl
  · rw [houtcome]
    simp [Frame.writeHeader, Wire.budget]

/-- Two objects of nine million bytes are bound and both requests answered.  The listing of the
directory, which is asked for on the same open channel, is not answered. -/
theorem naming_leaves_listing_unanswered :
    let large : Object := .bytes (List.replicate 9000000 0)
    let ch : Channel := ⟨1, "naming", 0, false⟩
    let c : Connection := { lines := [(1, .ready 0)], inboxes := [{}] }
    let ask (number : Int32) (r : Request) (s : Tree × Connection) : Tree × Connection :=
      naming.work ch (r.encode number) s.1 s.2
    let bound (number : Int32) : Packet :=
      .message 1 (Frame.writeHeader ⟨0x02, number⟩ ++ [Frame.success, Tag.void.code])
    let s := ask 2 (.bind ⟨["b"]⟩ large) (ask 1 (.bind ⟨["a"]⟩ large) (Tree.empty, c))
    let listing : Request := .listBindings Name.root
    s.2.sent = [bound 1, bound 2] ∧ ch.Open s.2 ∧
      Request.ofMessage? (listing.encode 3) = some (⟨0x05, 3⟩, listing) ∧
      (ask 3 listing s).2.sent = s.2.sent := by
  intro large ch c ask bound s listing
  have hlength : (List.replicate 9000000 (0 : UInt8)).length = 9000000 := List.length_replicate
  have hsize : 16 + 9000000 ≤ Wire.budget := by decide
  have hlarge : Wire.budget < 9000000 + 9000000 := by decide
  have hfirst : ask 1 (.bind ⟨["a"]⟩ large) (Tree.empty, c) =
      ([("a", .object large)], { c with sent := [bound 1] }) :=
    naming_work_bind ⟨rfl, rfl, rfl⟩ (travels_bind_bytes (by decide) (by rw [hlength]; exact hsize))
      (by decide) rfl
  have hs : s = (twice large, { c with sent := [bound 1, bound 2] }) := by
    change ask 2 _ (ask 1 _ _) = _
    rw [hfirst]
    exact naming_work_bind ⟨rfl, rfl, rfl⟩
      (travels_bind_bytes (by decide) (by rw [hlength]; exact hsize)) (by decide) rfl
  have hmessage : Request.ofMessage? (listing.encode 3) = some (⟨0x05, 3⟩, listing) :=
    Request.ofMessage?_encode (by decide) 3
  have hlisting : (ask 3 listing s).2 = s.2 := by
    rw [hs]
    change (naming.work ch (listing.encode 3) (twice large) _).2 = _
    rw [naming_work_of_large ⟨rfl, rfl, rfl⟩ hmessage (by decide)]
    have houtcome : 9000000 + 9000000 ≤ ((twice large).outcome listing).length := by
      simpa only [hlength] using le_length_outcome_twice (List.replicate 9000000 0)
    rw [List.length_append]
    omega
  refine ⟨?_, ?_, hmessage, congrArg Connection.sent hlisting⟩
  · rw [hs]
  · rw [hs]
    exact ⟨rfl, rfl, rfl⟩

end Service

end NameDirectory
