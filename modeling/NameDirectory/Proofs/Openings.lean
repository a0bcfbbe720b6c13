import NameDirectory.Proofs.Channels

/-!
# What a failed opening leaves

To open a channel takes three steps: a line is put under a new number, the peer is asked, and its
answer is waited for.  No step touches a line under another number.  What becomes of the line under
the number depends on the step that fails.

* `Connection.line?_arrive_of_ne`, `Connection.lines_askToOpen`, `Connection.line?_finishOpening`:
  the lines after each thing that happens;
* `Routing.Inv.line?_of_not_reached`: a number whose line is gone has none, or was given again;
* `Routing.failed_opening_leaves`: waiting in vain leaves no line, asking in vain leaves it.
-/

namespace NameDirectory

/-! ## The lines after each step -/

namespace Connection

variable {c c' : Connection} {id id' : UInt32}

theorem lines_abandon (c : Connection) (i : Nat) : (c.abandon i).lines = c.lines := rfl

theorem line?_of_lines (h : c'.lines = c.lines) (id : UInt32) : c'.line? id = c.line? id := by
  unfold line?
  rw [h]

theorem line?_arrive_of_ne {p : Packet} (hp : p.channel? = some id) (hne : id' ≠ id) :
    (c.arrive p).line? id' = c.line? id' := by
  have heffect := c.arrive_effect p
  rw [hp] at heffect
  generalize c.arrive p = c' at heffect
  cases heffect with
  | nothing | queued => rfl
  | opened => exact line?_put_of_ne hne c _
  | rejected | removed => exact line?_remove_of_ne hne c

theorem lines_askToOpen (c : Connection) (ch : Channel) (options : Options) :
    (c.askToOpen ch options).2.lines = c.lines := by
  obtain ⟨sent, ⟨-, hask⟩ | ⟨fault, hask⟩⟩ := c.askToOpen_cases ch options
  · rw [hask]
  · rw [hask, lines_abandon]

/-- Once the peer was asked, or could not be, the line is where it was put, and the lines under
other numbers are as they were. -/
theorem line?_of_begun (c : Connection) (service : String) (options : Options) (id : UInt32) :
    ((c.beginOpening service).2.askToOpen (c.beginOpening service).1 options).2.line? id =
      if id = c.nextId then some (.opening service c.inboxes.length) else c.line? id := by
  rw [line?_of_lines (lines_askToOpen _ _ options)]
  split
  · next hid =>
    rw [hid]
    exact line?_put_self _ _ _
  · next hid => exact line?_put_of_ne hid _ _

theorem line?_finishOpening (c : Connection) (ch : Channel) (after : Span) (hne : id ≠ ch.id) :
    (c.finishOpening ch after).2.line? id = c.line? id := by
  rcases c.finishOpening_cases ch after with ⟨-, hfinish⟩ | ⟨fault, hfinish⟩ |
    ⟨-, fault, sent, hfinish⟩
  · rw [hfinish]
  · rw [hfinish]
    exact line?_of_lines (lines_abandon c ch.inbox) id
  · rw [hfinish]
    exact line?_remove_of_ne hne c

end Connection

namespace Routing

open Connection (numberOf)

/-! ## Numbers without a line -/

/-- The line under the number of a channel that cannot be reached belongs to a later opening, which
was given the number after all others. -/
theorem Inv.line?_of_not_reached {s : State} (h : Inv s) {k : Nat} {o : Opening}
    (ho : s.openings[k]? = some o) (hreach : s.link.reaches k = false) :
    s.link.line? o.channel.id = none ∨ k + UInt32.size < s.openings.length := by
  cases hline : s.link.line? o.channel.id with
  | none => exact .inl rfl
  | some l =>
    right
    have hmem := Connection.mem_of_line? hline
    have hk : k < s.link.inboxes.length := h.made ▸ (List.getElem?_eq_some_iff.mp ho).1
    have hid : o.channel.id = numberOf k := (h.named k o ho).1
    have hne : l.inbox ≠ k := Connection.inbox_ne_of_line? hreach hline
    have hle : k ≤ l.inbox := h.wired.latest _ hmem k hk hid.symm
    have hlt : k < l.inbox := Nat.lt_of_le_of_ne hle hne.symm
    have hagain : numberOf k = numberOf l.inbox := hid.symm.trans (h.wired.number _ hmem)
    have hknown := h.wired.known _ hmem
    rw [h.made] at hknown
    exact Nat.lt_of_le_of_lt (Connection.le_of_numberOf_eq hagain hlt) hknown

/-- An opening is told that it failed only when its line is gone. -/
theorem Stands.not_reached_of_outcome {won : Prop} {c : Connection} {ch : Channel}
    {taken : List Bytes} {log : List Event} {fault : TransportFault}
    (h : Stands won c ch.id ch.inbox taken log)
    (houtcome : c.openingOutcome? ch = some (.error fault)) : c.reaches ch.inbox = false := by
  cases h with
  | awaited service _ _ hline hinbox _ _ =>
    have hreach : c.reaches ch.inbox = true :=
      Connection.reaches_iff.mpr ⟨_, Connection.mem_of_line? hline, rfl⟩
    simp [Connection.openingOutcome?, hinbox, hreach] at houtcome
  | going waiting _ _ hinbox _ => simp [Connection.openingOutcome?, hinbox] at houtcome
  | finished b hreach _ _ => exact hreach

/-- Waiting ends in vain when the line is gone, or the line goes then. -/
theorem Inv.not_reached_of_failed {s : State} (h : Inv s) {k : Nat} {o : Opening}
    (ho : s.openings[k]? = some o) (hstage : o.stage = .asked) {after : Span} {c : Connection}
    {fault : TransportFault} (hfails : s.link.finishOpening o.channel after = (.error fault, c)) :
    c.reaches k = false ∧
      (c.line? o.channel.id = none ∨ k + UInt32.size < s.openings.length) := by
  obtain ⟨hid, hinbox⟩ := h.named k o ho
  have hstands := h.stands k o ho (by rw [hstage]; trivial)
  rw [← hinbox] at hstands
  unfold Connection.finishOpening at hfails
  cases houtcome : s.link.openingOutcome? o.channel with
  | none =>
    obtain ⟨sent, hsent⟩ := (s.link.remove o.channel.id).exists_send_eq (.closeChannel o.channel.id)
    simp only [houtcome, Connection.giveUpOpening, Connection.post, hsent] at hfails
    cases hfails
    constructor
    · rw [hid]
      exact h.wired.reaches_remove k
    · exact .inl (Connection.line?_remove_self s.link o.channel.id)
  | some outcome =>
    cases outcome with
    | ok =>
      rw [houtcome] at hfails
      cases hfails
    | error fault' =>
      have hreach := hstands.not_reached_of_outcome houtcome
      rw [houtcome] at hfails
      cases hfails
      rw [hinbox] at hreach
      exact ⟨hreach, h.line?_of_not_reached ho hreach⟩

/-! ## Openings that fail -/

/-- However openings, packets, closings and the end of the connection are interleaved: when the
opening of a channel fails while the peer's answer is waited for, no line leads to its inbox, and
none is under its number, unless that was given to another opening since, after all others were
given.  When the peer cannot be asked, the line stays where it was put.  No step of an opening, and
no packet about its number, touches a line under another number. -/
theorem failed_opening_leaves {s : State} (h : Reachable s) :
    (∀ (k : Nat) (o : Opening) (after : Span), s.openings[k]? = some o → o.stage = .asked →
      (∀ fault c, s.link.finishOpening o.channel after = (.error fault, c) →
        c.reaches k = false ∧
          (c.line? o.channel.id = none ∨ k + UInt32.size < s.openings.length)) ∧
      ∀ id, id ≠ o.channel.id →
        (s.link.finishOpening o.channel after).2.line? id = s.link.line? id) ∧
    (∀ (service : String) (options : Options) (id : UInt32),
      ((s.link.beginOpening service).2.askToOpen
          (s.link.beginOpening service).1 options).2.line? id =
        if id = s.link.nextId then some (.opening service s.link.inboxes.length)
        else s.link.line? id) ∧
    (∀ (ch : Channel) (options : Options) (id : UInt32),
      (s.link.askToOpen ch options).2.line? id = s.link.line? id) ∧
    ∀ (p : Packet) (id id' : UInt32), p.channel? = some id → id' ≠ id →
      (s.link.arrive p).line? id' = s.link.line? id' := by
  have hinv := h.inv
  refine ⟨fun k o after ho hstage => ⟨fun fault c hfails => ?_, fun id hne => ?_⟩,
    s.link.line?_of_begun, fun ch options => ?_, fun p id id' hp hne => ?_⟩
  · exact hinv.not_reached_of_failed ho hstage hfails
  · exact s.link.line?_finishOpening o.channel after hne
  · exact Connection.line?_of_lines (s.link.lines_askToOpen ch options)
  · exact Connection.line?_arrive_of_ne hp hne

/-- Beside a channel that is open, the peer rejects another one.  Then the connection ends, and a
third one cannot be asked for. -/
theorem failed_opening_leaves_rejected :
    let echo : Channel := ⟨2, "echo", 1, false⟩
    let ended (s : State) : Connection := s.link.shutdown
    ∃ s : State, Reachable s ∧
      s.openings.map (·.stage) = [.opened, .asked] ∧
      (s.link.finishOpening echo ⟨1000⟩).1 = .error (.channelRejected "echo" "no") ∧
      (s.link.finishOpening echo ⟨1000⟩).2.line? 2 = none ∧
      (s.link.finishOpening echo ⟨1000⟩).2.line? 1 = some (.ready 0) ∧
      (((ended s).beginOpening "x").2.askToOpen ((ended s).beginOpening "x").1 []).1 =
        .error .connectionClosed ∧
      (((ended s).beginOpening "x").2.askToOpen ((ended s).beginOpening "x").1 []).2.line? 3 =
        some (.opening "x" 2) := by
  have hs := Reachable.start [] none
  have hs := hs.step (.begin "naming")
  have hs := hs.step (.ask 0 [] rfl rfl)
  have hs := hs.step (.arrive (.channelOpened 1))
  have hs := hs.step (.finish 0 ⟨1000⟩ rfl rfl)
  have hs := hs.step (.begin "echo")
  have hs := hs.step (.ask 1 [] rfl rfl)
  have hs := hs.step (.arrive (.channelRejected 2 "no"))
  obtain ⟨hasked, -⟩ := failed_opening_leaves hs
  obtain ⟨hfailed, hothers⟩ := hasked 1 _ ⟨1000⟩ rfl rfl
  obtain ⟨-, hline⟩ := hfailed _ _ rfl
  obtain ⟨-, hbegun, -⟩ := failed_opening_leaves (hs.step .stop)
  have hgone := hline.resolve_right (by decide)
  exact ⟨_, hs, rfl, rfl, hgone, hothers 1 (by decide), rfl, hbegun "x" [] 3⟩

theorem exists_written_of_large {service : String} (h : Wire.budget ≤ (Text.utf8 service).length)
    (id : UInt32) (options : Options) :
    ∃ fault, (Packet.openChannel id service options).written = .error fault := by
  have hlarge : Wire.budget < (Packet.openChannel id service options).encode.length := by
    simp only [Packet.encode, Packet.encodeId, Wire.encodeText, Wire.encodeByteString,
      List.length_append, Wire.length_bigEndian]
    omega
  exact ⟨_, if_pos hlarge⟩

/-- On a new connection, the packet that asks for a channel is too large. -/
theorem exists_failed_of_large {service : String} (h : Wire.budget ≤ (Text.utf8 service).length) :
    ∃ s : State, Reachable s ∧ s.openings.map (·.stage) = [.failed] ∧ s.link.closed = false ∧
      s.link.sent = [] ∧ s.link.line? 1 = some (.opening service 0) := by
  obtain ⟨fault, hwritten⟩ := exists_written_of_large h 1 []
  let c : Connection := (({} : Connection).beginOpening service).2
  have hsend : c.send (.openChannel 1 service []) = (.error fault, c) := by
    unfold Connection.send
    rw [hwritten]
    rfl
  have hask : c.askToOpen ⟨1, service, 0, false⟩ [] = (.error fault, c.abandon 0) := by
    unfold Connection.askToOpen
    rw [hsend]
  let s : State := ⟨c, [{ channel := ⟨1, service, 0, false⟩, began := 1 }], [.begun 1]⟩
  have hs : Reachable s := (Reachable.start [] none).step (.begin service)
  have hs := hs.step (.ask 0 [] rfl rfl)
  rw [hask] at hs
  exact ⟨_, hs, rfl, rfl, rfl, rfl⟩

theorem length_utf8_replicate (n : Nat) :
    (Text.utf8 (String.ofList (List.replicate n 'a'))).length = n := by
  have hsize : 'a'.utf8Size = 1 := rfl
  simp [Text.utf8, List.utf8Encode, hsize]

/-- The connection is open, but the name of the service is as long as a packet may be.  Nothing is
written and the opening fails; and its line stays. -/
theorem unsent_opening_stays :
    let service := String.ofList (List.replicate Wire.budget 'a')
    ∃ s : State, Reachable s ∧ s.openings.map (·.stage) = [.failed] ∧ s.link.closed = false ∧
      s.link.sent = [] ∧ s.link.line? 1 = some (.opening service 0) := by
  exact exists_failed_of_large (Nat.le_of_eq (length_utf8_replicate _).symm)

end Routing

end NameDirectory
