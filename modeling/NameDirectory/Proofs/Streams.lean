import NameDirectory.Packet
import NameDirectory.Proofs.Limits

/-!
# Streams of packets

Packets that are written one after the other are read back in that order, each exactly to its end.
A packet that is too large leaves no trace.  What a reader claims for a packet that was written is
no more than its bytes, except for the options of a channel to be opened.

* `Packet.reads`: a packet is read back in front of whatever bytes;
* `Packet.counts`: where the count of claimed bytes goes while a packet is read;
* `Packet.readAll_encode`: a stream is read packet by packet until it ends;
* `Sink.stays_in_step`: what is accepted is what is read.
-/

namespace NameDirectory

open Wire (Reads Refuses Lacks Counts Move budget)

namespace Packet

/-! ## One packet -/

def encodeOption (o : String × String) : Bytes := Wire.encodeText o.1 ++ Wire.encodeText o.2

/-- One option is read. -/
def readOption : Wire.Decoder (String × String) := do
  return (← Wire.Decoder.text, ← Wire.Decoder.text)

theorem encode_openChannel (id : UInt32) (service : String) (options : List (String × String)) :
    (openChannel id service options).encode =
      Wire.bigEndian 4 3 ++ (encodeId id ++ (Wire.encodeText service ++
        Wire.encodeList encodeOption options)) := rfl

/-- The most that is claimed while a packet is read. -/
def need : Packet → Nat
  | openChannel _ service options =>
    4 + (4 + ((Wire.encodeText service).length + Wire.needList optionSize
      (fun o => (encodeOption o).length) (fun o => (encodeOption o).length) options))
  | p => p.encode.length

/-- The moves of the count while a packet is read. -/
def moves : Packet → List Move
  | authenticate c =>
    .claim 4 :: (Wire.textMoves c.mechanism ++ (Wire.textMoves c.principal ++
      (Wire.textMoves c.secret ++ Wire.textMoves c.realm)))
  | authenticated => [.claim 4]
  | rejected reason => .claim 4 :: Wire.textMoves reason
  | openChannel _ service options =>
    .claim 4 :: .claim 4 :: (Wire.textMoves service ++ Wire.listMoves optionSize
      (fun o => Wire.textMoves o.1 ++ Wire.textMoves o.2) options)
  | channelOpened _ => [.claim 4, .claim 4]
  | channelRejected _ reason => .claim 4 :: .claim 4 :: Wire.textMoves reason
  | message _ payload => .claim 4 :: .claim 4 :: Wire.byteStringMoves payload
  | closeChannel _ => [.claim 4, .claim 4]

theorem reads_id (id : UInt32) : Reads decodeId (encodeId id) 4 id := by
  have hnumber : Reads (Wire.Decoder.number 4) (Wire.bigEndian 4 id.toNat) 4 id.toNat :=
    Reads.number id.toNat_lt
  have h := hnumber.map fun n => n.toUInt32
  rwa [show id.toNat.toUInt32 = id from UInt32.ofNat_toNat] at h

theorem reads_option (o : String × String) :
    Reads readOption (encodeOption o) (encodeOption o).length o :=
  ((Reads.text o.1).bind ((Reads.text o.2).map (Prod.mk o.1))).mono (by simp [encodeOption])

theorem reads (p : Packet) : Reads decode p.encode p.need p := by
  unfold decode
  cases p with
  | authenticate c =>
    simp only [encode, List.append_assoc]
    refine (Reads.tagged (k := 0) ((Reads.text c.mechanism).bind ((Reads.text c.principal).bind
      ((Reads.text c.secret).bind ((Reads.text c.realm).map fun realm =>
        authenticate ⟨c.mechanism, c.principal, c.secret, realm⟩))))).mono ?_
    simp only [need, encode, List.length_append, Wire.length_bigEndian]
    omega
  | authenticated =>
    have hread := Reads.pure authenticated
    exact (Reads.tagged (b := []) (k := 1) hread).mono (by simp [need, encode])
  | rejected reason =>
    exact (Reads.tagged (k := 2) ((Reads.text reason).map rejected)).mono (by simp [need, encode])
  | openChannel id service options =>
    have hsize : 0 < optionSize := by decide
    have hoptions := Reads.list hsize fun o (_ : o ∈ options) => reads_option o
    refine (Reads.tagged (k := 3) ((reads_id id).bind ((Reads.text service).bind
      (hoptions.map (openChannel id service))))).mono ?_
    simp only [need, encodeId, Wire.length_bigEndian]
    omega
  | channelOpened id =>
    exact (Reads.tagged (k := 4) ((reads_id id).map channelOpened)).mono (by simp [need, encode, encodeId])
  | channelRejected id reason =>
    refine (Reads.tagged (k := 5)
      ((reads_id id).bind ((Reads.text reason).map (channelRejected id)))).mono ?_
    simp [need, encode, encodeId]
  | message id payload =>
    refine (Reads.tagged (k := 6)
      ((reads_id id).bind ((Reads.byteString payload).map (message id)))).mono ?_
    simp [need, encode, encodeId]
  | closeChannel id =>
    refine (Reads.tagged (k := 7) ((reads_id id).map closeChannel)).mono ?_
    simp [need, encode, encodeId]

theorem counts (p : Packet) : Counts p.moves p.need p.encode.length := by
  cases p with
  | authenticate c =>
    have htexts := (Wire.counts_text c.mechanism).append ((Wire.counts_text c.principal).append
      ((Wire.counts_text c.secret).append (Wire.counts_text c.realm)))
    refine ((Counts.claim 4).append htexts).mono ?_ ?_
    · simp only [need, encode, List.length_append, Wire.length_bigEndian]
      omega
    · simp [encode]
  | authenticated => exact Counts.claim 4
  | rejected reason =>
    exact ((Counts.claim 4).append (Wire.counts_text reason)).mono (by simp [need, encode])
      (by simp [encode])
  | openChannel id service options =>
    have hoption : ∀ o ∈ options, Counts (Wire.textMoves o.1 ++ Wire.textMoves o.2)
        (encodeOption o).length (encodeOption o).length := fun o _ =>
      ((Wire.counts_text o.1).append (Wire.counts_text o.2)).mono (by simp [encodeOption])
        (by simp [encodeOption])
    have hoptions := (Wire.counts_text service).append (Wire.counts_list optionSize hoption)
    refine ((Counts.claim 4).append ((Counts.claim 4).append hoptions)).mono ?_ ?_
    · simp only [need]
      omega
    · simp [encode, encodeId, encodeOption, Wire.encodeList]
  | channelOpened id =>
    exact ((Counts.claim 4).append (Counts.claim 4)).mono (by simp [need, encode, encodeId])
      (by simp [encode, encodeId])
  | channelRejected id reason =>
    refine ((Counts.claim 4).append ((Counts.claim 4).append (Wire.counts_text reason))).mono ?_ ?_
    · simp [need, encode, encodeId]
    · simp [encode, encodeId]
  | message id payload =>
    refine ((Counts.claim 4).append ((Counts.claim 4).append
      (Wire.counts_byteString payload))).mono ?_ ?_
    · simp [need, encode, encodeId]
    · simp [encode, encodeId]
  | closeChannel id =>
    exact ((Counts.claim 4).append (Counts.claim 4)).mono (by simp [need, encode, encodeId])
      (by simp [encode, encodeId])

theorem peak_moves (p : Packet) : Wire.peak 0 p.moves = p.need := by
  rw [p.counts.peak, Nat.zero_add]

/-- Only a channel to be opened takes more room than its bytes. -/
theorem need_le {p : Packet} (hsize : p.encode.length ≤ budget)
    (h : ∀ id service options, p = openChannel id service options →
      Wire.peak 0 p.moves ≤ budget) : p.need ≤ budget := by
  cases p with
  | openChannel id service options =>
    rw [← peak_moves]
    exact h id service options rfl
  | authenticate | authenticated | rejected | channelOpened | channelRejected | message
  | closeChannel => exact hsize

theorem refuses_openChannel {id : UInt32} {service : String} {options : List (String × String)}
    (hsize : (openChannel id service options).encode.length < 2 ^ 64) :
    Refuses decode (openChannel id service options).encode
      (Lacks (openChannel id service options).need) := by
  rw [encode_openChannel] at hsize ⊢
  simp only [Wire.encodeList, encodeId, List.length_append, Wire.length_bigEndian] at hsize
  have htext (s : String) : (Text.utf8 s).length ≤ (Wire.encodeText s).length := by
    rw [Wire.length_encodeText]
    omega
  have hcount := Wire.length_le_encodeAll encodeOption fun o (_ : o ∈ options) => by
    simp only [encodeOption, List.length_append, Wire.length_encodeText]
    omega
  have hoption : ∀ o ∈ options, Refuses readOption (encodeOption o) fun c =>
      ¬ True ∨ Lacks (encodeOption o).length c := by
    intro o ho
    have hlength := Wire.length_le_of_mem encodeOption ho
    have hkey := htext o.1
    have hvalue := htext o.2
    simp only [encodeOption, List.length_append] at hlength
    refine (Refuses.bind_lacks (Reads.text o.1) (Nat.le_refl _) (Refuses.text (by omega))
      ((Refuses.text (s := o.2) (by omega)).map (Prod.mk o.1))).mono fun c hc => ?_
    simpa [encodeOption] using hc
  have hroom : 0 < optionSize := by decide
  have hoptions := Refuses.list hroom (by omega) (fun o _ _ => reads_option o)
    (fun _ _ => Nat.le_refl _) hoption
  have hservice := htext service
  have hid : Refuses decodeId (encodeId id) (Lacks 4) := (Refuses.number 4 _).map Nat.toUInt32
  unfold decode
  refine (Refuses.tagged_lacks (k := 3) (Refuses.bind_lacks (reads_id id) (by simp [encodeId]) hid
    (Refuses.bind_lacks (Reads.text service) (Nat.le_refl _) (Refuses.text (by omega))
      ((hoptions.mono fun c hc => .inr hc).map (openChannel id service))))).mono fun c hc => ?_
  simp only [Lacks, need, encodeId, Wire.length_bigEndian] at hc ⊢
  omega

/-- A packet that can be written can be read, if the count of claimed bytes stays within the
budget. -/
theorem read_encode_iff {p : Packet} (hsize : p.encode.length ≤ budget) (rest : Bytes) :
    read (p.encode ++ rest) = .ok (p, rest) ↔ Wire.peak 0 p.moves ≤ budget := by
  rw [peak_moves]
  constructor
  · intro hread
    refine need_le hsize fun id service options hp => ?_
    subst hp
    rw [peak_moves]
    by_contra hlarge
    have hlarge : Lacks (openChannel id service options).need 0 := by
      unfold Lacks
      omega
    have hsize : (openChannel id service options).encode.length < 2 ^ 64 :=
      Nat.lt_of_le_of_lt hsize (by decide)
    obtain ⟨fault, hfault⟩ := refuses_openChannel hsize rest 0 (Nat.zero_le _) hlarge
    unfold read Wire.Decoder.run at hread
    rw [hfault] at hread
    cases hread
  · intro hneed
    have hdecode := p.reads rest 0 (by omega)
    unfold read Wire.Decoder.run
    rw [hdecode]
    rfl

/-! ## Packets in a row -/

/-- A packet that is not too large to be written. -/
def Writable (p : Packet) : Prop := p.encode.length ≤ budget

instance (p : Packet) : Decidable p.Writable := inferInstanceAs (Decidable (_ ≤ _))

theorem four_le_length_encode (p : Packet) : 4 ≤ p.encode.length := by
  cases p <;> simp [encode]

theorem read_nil : read [] = .error (.stream .shortRead) := rfl

theorem go_encode {ps : List Packet} (h : ∀ p ∈ ps, ∀ rest, read (p.encode ++ rest) = .ok (p, rest))
    {fuel : Nat} (hfuel : ps.length < fuel) (done : List Packet) :
    readAll.go fuel (ps.flatMap encode) done = (done.reverse ++ ps, .stream .shortRead) := by
  induction ps generalizing fuel done with
  | nil =>
    obtain ⟨fuel, rfl⟩ := Nat.exists_eq_succ_of_ne_zero (Nat.ne_of_gt hfuel)
    simp [readAll.go, read_nil]
  | cons p ps ih =>
    obtain ⟨fuel, rfl⟩ := Nat.exists_eq_succ_of_ne_zero (Nat.ne_of_gt (Nat.zero_lt_of_lt hfuel))
    have hp := h p List.mem_cons_self (ps.flatMap encode)
    have hps := ih (fun q hq => h q (List.mem_cons_of_mem _ hq))
      (Nat.lt_of_succ_lt_succ hfuel) (p :: done)
    simp only [List.flatMap_cons, readAll.go, hp, hps]
    simp

/-- A stream of packets is read one by one until it ends. -/
theorem readAll_encode {ps : List Packet}
    (h : ∀ p ∈ ps, ∀ rest, read (p.encode ++ rest) = .ok (p, rest)) :
    readAll (ps.flatMap encode) = (ps, .stream .shortRead) := by
  have hlength := Wire.length_le_encodeAll encode
    fun p (_ : p ∈ ps) => by have := p.four_le_length_encode; omega
  exact go_encode h (Nat.lt_succ_of_le hlength) []

end Packet

namespace Sink

/-- Write packets one after the other, whatever becomes of each. -/
def writeAll : List Packet → Sink → List (Except TransportFault Unit) × Sink
  | [], s => ([], s)
  | p :: ps, s =>
    let (result, s) := s.write p
    let (results, s) := writeAll ps s
    (result :: results, s)

/-- What becomes of a packet where there is room for everything. -/
theorem write_eq {s : Sink} (hroom : s.room = none) (hflush : s.flushFault = none) (p : Packet) :
    s.write p =
      if p.Writable then (.ok (), { s with taken := s.taken ++ p.encode })
      else (.error (.violation (.packetTooLarge p.encode.length)), s) := by
  unfold write Packet.written Packet.Writable
  by_cases hsize : p.encode.length ≤ budget
  · simp [hsize, Nat.not_lt.mpr hsize, put, hroom, hflush]
  · simp [hsize, Nat.not_le.mp hsize]

theorem writeAll_eq {s : Sink} (hroom : s.room = none) (hflush : s.flushFault = none)
    (ps : List Packet) :
    writeAll ps s =
      (ps.map fun p =>
          if p.Writable then .ok () else .error (.violation (.packetTooLarge p.encode.length)),
        { s with taken := s.taken ++ (ps.filter fun p => p.Writable).flatMap Packet.encode }) := by
  induction ps generalizing s with
  | nil => simp [writeAll]
  | cons p ps ih =>
    unfold writeAll
    rw [write_eq hroom hflush]
    by_cases hp : p.Writable
    · simp [hp, ih (s := { s with taken := s.taken ++ p.encode }) hroom hflush]
    · simp [hp, ih hroom hflush]

/-- Of packets written to a stream, those that are too large are refused and add nothing to it. The
others are read back in the order in which they were written, each exactly to its end, and then the
stream ends, if for every channel to be opened the count of claimed bytes stays within the budget. -/
theorem stays_in_step (ps : List Packet)
    (h : ∀ id service options, .openChannel id service options ∈ ps →
      (Packet.openChannel id service options).Writable →
      Wire.peak 0 (Packet.openChannel id service options).moves ≤ budget) :
    let accepted := ps.filter fun p => p.Writable
    let stream := (writeAll ps {}).2.taken
    (writeAll ps {}).1 = (ps.map fun p =>
      if p.Writable then .ok () else .error (.violation (.packetTooLarge p.encode.length))) ∧
    stream = accepted.flatMap Packet.encode ∧
    (∀ before p after, accepted = before ++ p :: after →
      stream = before.flatMap Packet.encode ++ (p :: after).flatMap Packet.encode ∧
      Packet.read ((p :: after).flatMap Packet.encode) =
        .ok (p, after.flatMap Packet.encode)) ∧
    Packet.readAll stream = (accepted, .stream .shortRead) := by
  intro accepted stream
  have hread : ∀ p ∈ accepted, ∀ rest, Packet.read (p.encode ++ rest) = .ok (p, rest) := by
    intro p hp rest
    obtain ⟨hmem, hwritable⟩ := List.mem_filter.mp hp
    have hwritable : p.Writable := of_decide_eq_true hwritable
    refine (Packet.read_encode_iff hwritable rest).mpr ?_
    rw [Packet.peak_moves]
    refine Packet.need_le hwritable fun id service options hopening => ?_
    subst hopening
    exact h id service options hmem hwritable
  have hstream : stream = accepted.flatMap Packet.encode :=
    congrArg (fun run => run.2.taken) (writeAll_eq rfl rfl ps)
  refine ⟨congrArg Prod.fst (writeAll_eq rfl rfl ps), hstream,
    fun before p after heq => ⟨?_, ?_⟩, ?_⟩
  · rw [hstream, heq, List.flatMap_append]
  · exact hread p (by rw [heq]; simp) _
  · rw [hstream]
    exact Packet.readAll_encode hread

/-- A message that is too large is refused between two packets that are read back. -/
theorem stays_in_step_refused :
    let opening : Packet := .openChannel 3 "naming" [("a", "b")]
    let large : Packet := .message 1 (List.replicate budget 0)
    let small : Packet := .message 3 [1, 2, 3]
    (∀ id service options, .openChannel id service options ∈ [opening, large, small] →
      (Packet.openChannel id service options).Writable →
      Wire.peak 0 (Packet.openChannel id service options).moves ≤ budget) ∧
    (writeAll [opening, large, small] {}).1 =
      [.ok (), .error (.violation (.packetTooLarge (budget + 16))), .ok ()] ∧
    Packet.readAll (writeAll [opening, large, small] {}).2.taken =
      ([opening, small], .stream .shortRead) := by
  intro opening large small
  have hlarge : large.encode.length = budget + 16 := by
    simp [large, Packet.encode, Packet.encodeId, Wire.encodeByteString]
    omega
  have hopening : opening.Writable := by decide +kernel
  have hsmall : small.Writable := by decide +kernel
  have hrefused : ¬ large.Writable := by
    unfold Packet.Writable
    omega
  have hroom : ∀ id service options, .openChannel id service options ∈ [opening, large, small] →
      (Packet.openChannel id service options).Writable →
      Wire.peak 0 (Packet.openChannel id service options).moves ≤ budget := by
    intro id service options hmem _
    have heq : Packet.openChannel id service options = opening := by
      simpa [opening, large, small] using hmem
    rw [heq]
    decide +kernel
  obtain ⟨hresults, -, -, hread⟩ := stays_in_step [opening, large, small] hroom
  refine ⟨hroom, ?_, ?_⟩
  · rw [hresults]
    simp [hopening, hsmall, hrefused, hlarge]
  · rw [hread]
    simp [hopening, hsmall, hrefused]

end Sink

end NameDirectory
