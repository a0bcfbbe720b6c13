import NameDirectory.Connection

/-!
# Lines

What each thing that happens to a connection does to its lines and inboxes.

* `Effect`, `arrive_effect`: what a packet can do, by the channel it is about;
* `Wired`: every line leads to the inbox that its number was given for, and stays so;
* `Apart`, `Same`: what leaves an inbox, or a channel, as it was;
* `takeUpTo_eq`: what is taken off a channel are the messages that wait, in their order.
-/

namespace NameDirectory

/-- The channel that a packet for a client is about. -/
def Packet.channel? : Packet → Option UInt32
  | message id _ | closeChannel id | channelOpened id | channelRejected id _ => some id
  | _ => none

namespace Connection

variable {c c' c'' : Connection} {id id' : UInt32} {i j : Nat} {l : Line}

theorem mem_of_line? (h : c.line? id = some l) : (id, l) ∈ c.lines := by
  obtain ⟨⟨id', l'⟩, hfind, rfl⟩ := Option.map_eq_some_iff.mp h
  obtain rfl : id' = id := by simpa using List.find?_some hfind
  exact List.mem_of_find?_eq_some hfind

theorem reaches_iff : c.reaches i = true ↔ ∃ e ∈ c.lines, e.2.inbox = i := by
  simp [reaches]

/-- Lines that there are lead elsewhere than to an inbox no line leads to. -/
theorem inbox_ne_of_line? (hreach : c.reaches i = false) (h : c.line? id = some l) :
    l.inbox ≠ i := by
  intro hinbox
  have htrue : c.reaches i = true := reaches_iff.mpr ⟨_, mem_of_line? h, hinbox⟩
  rw [hreach] at htrue
  cases htrue

theorem mem_lines_remove {e : UInt32 × Line} :
    e ∈ (c.remove id).lines ↔ e ∈ c.lines ∧ e.1 ≠ id := by
  simp [remove]

theorem mem_lines_put {e : UInt32 × Line} :
    e ∈ (c.put id l).lines ↔ e = (id, l) ∨ e ∈ c.lines ∧ e.1 ≠ id := by
  simp [put, remove]

theorem inbox?_modifyInbox_of_ne (h : j ≠ i) (f : Inbox → Inbox) :
    (c.modifyInbox j f).inbox? i = c.inbox? i := by
  simp [modifyInbox, inbox?, h]

theorem inbox?_modifyInbox_self {b : Inbox} (h : c.inbox? i = some b) (f : Inbox → Inbox) :
    (c.modifyInbox i f).inbox? i = some (f b) := by
  have h : c.inboxes[i]? = some b := h
  simp [modifyInbox, inbox?, h]

theorem length_inboxes_modifyInbox (c : Connection) (i : Nat) (f : Inbox → Inbox) :
    (c.modifyInbox i f).inboxes.length = c.inboxes.length :=
  List.length_modify _ _ _

/-! ## Packets -/

/-- What a packet about this channel, or about none, can make of a connection. -/
inductive Effect (c : Connection) : Option UInt32 → Connection → Prop
  | nothing (id? : Option UInt32) : Effect c id? c
  | queued {id : UInt32} {l : Line} (f : Inbox → Inbox) (hline : c.line? id = some l) :
      Effect c (some id) (c.modifyInbox l.inbox f)
  | opened {id : UInt32} {service : String} {i : Nat} (f : Inbox → Inbox)
      (hline : c.line? id = some (.opening service i)) :
      Effect c (some id) ((c.put id (.ready i)).modifyInbox i f)
  | rejected {id : UInt32} {l : Line} (f : Inbox → Inbox) (hline : c.line? id = some l) :
      Effect c (some id) ((c.remove id).modifyInbox l.inbox f)
  | removed (id : UInt32) : Effect c (some id) (c.remove id)
  | ended : Effect c none c.shutdown

theorem route_effect {p : Packet} (h : c.route p = .ok c') : Effect c p.channel? c' := by
  cases p with
  | message id m =>
    obtain rfl := Except.ok.inj h
    unfold deliver
    split
    · next i hline =>
      split
      · exact .queued _ hline
      · exact .removed id
    · exact .nothing _
  | closeChannel id =>
    obtain rfl := Except.ok.inj h
    exact .removed id
  | channelOpened id =>
    obtain rfl := Except.ok.inj h
    unfold channelOpened
    split
    · next hline => exact .opened _ hline
    · exact .nothing _
  | channelRejected id reason =>
    obtain rfl := Except.ok.inj h
    unfold channelRejected
    split
    · next hline => exact .rejected _ hline
    · exact .removed id
  | _ => cases h

theorem arrive_effect (c : Connection) (p : Packet) : Effect c p.channel? (c.arrive p) := by
  unfold arrive
  split
  · exact .nothing _
  cases hroute : c.route p with
  | ok c' => exact route_effect hroute
  | error violation =>
    have hnone : p.channel? = none := by cases p <;> first | rfl | cases hroute
    rw [hnone]
    exact .ended

theorem arrive_of_route {p : Packet} (hclosed : c.closed = false) (h : c.route p = .ok c') :
    c.arrive p = c' := by
  unfold arrive
  rw [if_neg (by simp [hclosed]), h]

/-- A message for a channel that is still being opened is dropped. -/
theorem arrive_message_of_opening {service : String} (h : c.line? id = some (.opening service i))
    (m : Bytes) : c.arrive (.message id m) = c := by
  unfold arrive
  split
  · rfl
  · simp only [route, deliver, h]

theorem Effect.length_inboxes {id? : Option UInt32} (h : Effect c id? c') :
    c'.inboxes.length = c.inboxes.length := by
  cases h with
  | nothing | removed | ended => rfl
  | queued | opened | rejected => exact length_inboxes_modifyInbox _ _ _

/-! ## Numbers -/

/-- The number given for an inbox; it wraps around. -/
def numberOf (i : Nat) : UInt32 := UInt32.ofNat (i + 1)

/-- A number is given again only when all have been given. -/
theorem le_of_numberOf_eq (h : numberOf i = numberOf j) (hlt : i < j) : i + UInt32.size ≤ j := by
  have hmod := congrArg UInt32.toNat h
  simp only [numberOf, UInt32.toNat_ofNat'] at hmod
  unfold UInt32.size
  omega

theorem found_remove (h : ∀ e ∈ c.lines, c.line? e.1 = some e.2) (id : UInt32) :
    ∀ e ∈ (c.remove id).lines, (c.remove id).line? e.1 = some e.2 := by
  intro e he
  rw [mem_lines_remove] at he
  rw [line?_remove_of_ne he.2]
  exact h e he.1

theorem found_put (h : ∀ e ∈ c.lines, c.line? e.1 = some e.2) (id : UInt32) (l : Line) :
    ∀ e ∈ (c.put id l).lines, (c.put id l).line? e.1 = some e.2 := by
  intro e he
  rcases mem_lines_put.mp he with rfl | ⟨he, hne⟩
  · exact line?_put_self c id l
  · rw [line?_put_of_ne hne]
    exact h e he

/-- Every line is the one under its number, which was given for the inbox it leads to and for none
since. -/
structure Wired (c : Connection) : Prop where
  found : ∀ e ∈ c.lines, c.line? e.1 = some e.2
  number : ∀ e ∈ c.lines, e.1 = numberOf e.2.inbox
  known : ∀ e ∈ c.lines, e.2.inbox < c.inboxes.length
  latest : ∀ e ∈ c.lines, ∀ i < c.inboxes.length, numberOf i = e.1 → i ≤ e.2.inbox
  next : c.nextId = numberOf c.inboxes.length

namespace Wired

theorem exists_line? (h : c.Wired) (hreach : c.reaches i = true) :
    ∃ l, c.line? (numberOf i) = some l ∧ l.inbox = i := by
  obtain ⟨e, he, rfl⟩ := reaches_iff.mp hreach
  exact ⟨e.2, h.number e he ▸ h.found e he, rfl⟩

theorem eq_numberOf (h : c.Wired) (hline : c.line? id = some l) : id = numberOf l.inbox :=
  h.number _ (mem_of_line? hline)

/-- No line leads to an inbox once the line under its number is gone, -/
theorem reaches_remove (h : c.Wired) (i : Nat) : (c.remove (numberOf i)).reaches i = false := by
  rw [Bool.eq_false_iff, ne_eq, reaches_iff]
  rintro ⟨e, he, rfl⟩
  rw [mem_lines_remove] at he
  exact he.2 (h.number e he.1)

/-- or has been replaced. -/
theorem reaches_put (h : c.Wired) (hne : l.inbox ≠ i) :
    (c.put (numberOf i) l).reaches i = false := by
  rw [Bool.eq_false_iff, ne_eq, reaches_iff]
  rintro ⟨e, he, hinbox⟩
  rcases mem_lines_put.mp he with rfl | ⟨he, hid⟩
  · exact hne hinbox
  · exact hid (hinbox ▸ h.number e he)

theorem remove (h : c.Wired) (id : UInt32) : (c.remove id).Wired where
  found := found_remove h.found id
  number e he := h.number e (mem_lines_remove.mp he).1
  known e he := h.known e (mem_lines_remove.mp he).1
  latest e he := h.latest e (mem_lines_remove.mp he).1
  next := h.next

theorem put (h : c.Wired) (hid : id = numberOf l.inbox) (hl : l.inbox < c.inboxes.length)
    (hlatest : ∀ i < c.inboxes.length, numberOf i = id → i ≤ l.inbox) : (c.put id l).Wired where
  found := found_put h.found id l
  number e he := by
    rcases mem_lines_put.mp he with rfl | ⟨he, -⟩
    · exact hid
    · exact h.number e he
  known e he := by
    rcases mem_lines_put.mp he with rfl | ⟨he, -⟩
    · exact hl
    · exact h.known e he
  latest e he := by
    rcases mem_lines_put.mp he with rfl | ⟨he, -⟩
    · exact hlatest
    · exact h.latest e he
  next := h.next

theorem modifyInbox (h : c.Wired) (i : Nat) (f : Inbox → Inbox) : (c.modifyInbox i f).Wired where
  found := h.found
  number := h.number
  known e he := by
    rw [length_inboxes_modifyInbox]
    exact h.known e he
  latest e he := by
    rw [length_inboxes_modifyInbox]
    exact h.latest e he
  next := by
    rw [length_inboxes_modifyInbox]
    exact h.next

theorem of_effect {id? : Option UInt32} (h : c.Wired) (he : Effect c id? c') : c'.Wired := by
  cases he with
  | nothing => exact h
  | queued f _ => exact h.modifyInbox _ f
  | @opened id service i f hline =>
    have hid : id = numberOf i := h.eq_numberOf hline
    have hmem := mem_of_line? hline
    have hput : (c.put id (.ready i)).Wired := h.put hid (h.known _ hmem) (h.latest _ hmem)
    exact hput.modifyInbox i f
  | rejected f _ => exact (h.remove _).modifyInbox _ f
  | removed id => exact h.remove id
  | ended =>
    exact
      { found := nofun
        number := nofun
        known := nofun
        latest := nofun
        next := h.next }

theorem beginOpening (h : c.Wired) (service : String) : (c.beginOpening service).2.Wired := by
  have hmore : (c.beginOpening service).2.inboxes.length = c.inboxes.length + 1 :=
    List.length_append
  constructor
  case found => exact found_put h.found c.nextId _
  case number =>
    intro e he
    rcases mem_lines_put.mp he with rfl | ⟨he, -⟩
    · exact h.next
    · exact h.number e he
  case known =>
    intro e he
    rw [hmore]
    rcases mem_lines_put.mp he with rfl | ⟨he, -⟩
    · exact Nat.lt_succ_self _
    · exact Nat.lt_succ_of_lt (h.known e he)
  case latest =>
    intro e he i hi hnumber
    rw [hmore, Nat.lt_succ_iff] at hi
    rcases mem_lines_put.mp he with rfl | ⟨he, hne⟩
    · exact hi
    -- the number of the new inbox has no other line
    · rcases Nat.lt_or_eq_of_le hi with hi | rfl
      · exact h.latest e he i hi hnumber
      · exact absurd (hnumber.symm.trans h.next.symm) hne
  case next =>
    rw [hmore]
    change c.nextId + 1 = _
    rw [h.next]
    simp [numberOf]

theorem write (h : c.Wired) (sent : List Packet) (writeFault : Option StreamFault) :
    Wired { c with sent, writeFault } :=
  { h with }

end Wired

/-! ## What leaves a channel as it was -/

/-- An inbox is as it was, and no line leads there that did not. -/
structure Apart (c c' : Connection) (i : Nat) : Prop where
  inbox : c'.inbox? i = c.inbox? i
  reaches : c'.reaches i = true → c.reaches i = true

namespace Apart

theorem refl (c : Connection) (i : Nat) : Apart c c i := ⟨rfl, id⟩

theorem trans (h : Apart c c' i) (h' : Apart c' c'' i) : Apart c c'' i :=
  ⟨h'.inbox.trans h.inbox, h.reaches ∘ h'.reaches⟩

theorem reaches_eq_false (h : Apart c c' i) (hreach : c.reaches i = false) :
    c'.reaches i = false := by
  rw [Bool.eq_false_iff] at hreach ⊢
  exact mt h.reaches hreach

theorem remove (c : Connection) (id : UInt32) (i : Nat) : Apart c (c.remove id) i := by
  refine ⟨rfl, fun hreach => ?_⟩
  obtain ⟨e, he, hinbox⟩ := reaches_iff.mp hreach
  exact reaches_iff.mpr ⟨e, (mem_lines_remove.mp he).1, hinbox⟩

theorem put (c : Connection) (id : UInt32) (hne : l.inbox ≠ i) : Apart c (c.put id l) i := by
  refine ⟨rfl, fun hreach => ?_⟩
  obtain ⟨e, he, hinbox⟩ := reaches_iff.mp hreach
  rcases mem_lines_put.mp he with rfl | ⟨he, -⟩
  · exact absurd hinbox hne
  · exact reaches_iff.mpr ⟨e, he, hinbox⟩

theorem modifyInbox (c : Connection) (f : Inbox → Inbox) (hne : j ≠ i) :
    Apart c (c.modifyInbox j f) i :=
  ⟨inbox?_modifyInbox_of_ne hne f, id⟩

/-- A packet does nothing to an inbox that the line it is for does not lead to. -/
theorem of_effect {id? : Option UInt32} (h : Effect c id? c')
    (hne : ∀ id l, id? = some id → c.line? id = some l → l.inbox ≠ i) : Apart c c' i := by
  cases h with
  | nothing => exact refl c i
  | queued f hline => exact modifyInbox c f (hne _ _ rfl hline)
  | @opened id service j f hline =>
    have hj : j ≠ i := hne _ _ rfl hline
    exact (put c id (l := .ready j) hj).trans (modifyInbox _ f hj)
  | rejected f hline => exact (remove c _ i).trans (modifyInbox _ f (hne _ _ rfl hline))
  | removed id => exact remove c id i
  | ended => exact ⟨rfl, nofun⟩

end Apart

/-- The line under a number is as it was too. -/
structure Same (c c' : Connection) (id : UInt32) (i : Nat) : Prop extends Apart c c' i where
  line : c'.line? id = c.line? id
  closed : c'.closed = c.closed

namespace Same

theorem trans (h : Same c c' id i) (h' : Same c' c'' id i) : Same c c'' id i :=
  ⟨h.toApart.trans h'.toApart, h'.line.trans h.line, h'.closed.trans h.closed⟩

theorem remove (c : Connection) (i : Nat) (hne : id' ≠ id) : Same c (c.remove id') id i :=
  ⟨.remove c id' i, line?_remove_of_ne hne.symm c, rfl⟩

theorem modifyInbox (c : Connection) (id : UInt32) (f : Inbox → Inbox) (hne : j ≠ i) :
    Same c (c.modifyInbox j f) id i :=
  ⟨.modifyInbox c f hne, rfl, rfl⟩

theorem write (c : Connection) (id : UInt32) (i : Nat) (sent : List Packet)
    (writeFault : Option StreamFault) : Same c { c with sent, writeFault } id i :=
  ⟨⟨rfl, fun hreach => hreach⟩, rfl, rfl⟩

/-- Packets about another channel. -/
theorem of_effect (h : Effect c (some id') c') (hne : id' ≠ id)
    (hinbox : ∀ l, c.line? id' = some l → l.inbox ≠ i) : Same c c' id i := by
  have happart : Apart c c' i := .of_effect h fun id'' l hid hline => by
    obtain rfl := Option.some.inj hid
    exact hinbox l hline
  have hremove : (c.remove id').line? id = c.line? id := line?_remove_of_ne hne.symm c
  cases h with
  | nothing | queued => exact ⟨happart, rfl, rfl⟩
  | opened => exact ⟨happart, line?_put_of_ne hne.symm c _, rfl⟩
  | rejected | removed => exact ⟨happart, hremove, rfl⟩

end Same

/-! ## Opening from here -/

/-- A packet is written or not, and nothing else changes. -/
theorem send_cases (c : Connection) (p : Packet) :
    (c.send p).2 = c ∨ (c.send p).2 = { c with sent := c.sent ++ [p] } := by
  unfold send
  split
  · exact .inl rfl
  · split
    · exact .inl rfl
    · exact .inl rfl
    · exact .inr rfl

/-- Writing changes only what was written. -/
theorem exists_send_eq (c : Connection) (p : Packet) : ∃ sent, (c.send p).2 = { c with sent } := by
  rcases c.send_cases p with h | h
  · exact ⟨c.sent, h⟩
  · exact ⟨_, h⟩

theorem not_closed_of_send_ok {p : Packet} {u : Unit} (h : (c.send p).1 = .ok u) :
    c.closed = false := by
  unfold send at h
  split at h
  · cases h
  · next hclosed => exact Bool.eq_false_iff.mpr hclosed

/-- The peer is asked, which needs a connection that is open, or the inbox is given up. -/
theorem askToOpen_cases (c : Connection) (ch : Channel) (options : Options) :
    ∃ sent, (c.closed = false ∧ c.askToOpen ch options = (.ok (), { c with sent })) ∨
      ∃ fault, c.askToOpen ch options = (.error fault, abandon { c with sent } ch.inbox) := by
  obtain ⟨sent, hsent⟩ := exists_send_eq c (.openChannel ch.id ch.service options)
  refine ⟨sent, ?_⟩
  unfold askToOpen
  cases hsend : (c.send (.openChannel ch.id ch.service options)).1 with
  | error fault =>
    rw [show c.send (.openChannel ch.id ch.service options) = (.error fault, { c with sent }) from
      Prod.ext hsend hsent]
    exact .inr ⟨fault, rfl⟩
  | ok =>
    rw [show c.send (.openChannel ch.id ch.service options) = (.ok (), { c with sent }) from
      Prod.ext hsend hsent]
    exact .inl ⟨not_closed_of_send_ok hsend, rfl⟩

/-- Waiting ends with the peer's answer, with the end of the line, or without either; then the line
is removed. -/
theorem finishOpening_cases (c : Connection) (ch : Channel) (after : Span) :
    ((c.inbox? ch.inbox).bind (·.answer) = some (.ok ()) ∧
      c.finishOpening ch after = (.ok ch, c)) ∨
    (∃ fault, c.finishOpening ch after = (.error fault, c.abandon ch.inbox)) ∨
    (c.reaches ch.inbox = true ∧ ∃ fault sent, c.finishOpening ch after =
      (.error fault, abandon { c.remove ch.id with sent } ch.inbox)) := by
  unfold finishOpening openingOutcome?
  cases hanswer : (c.inbox? ch.inbox).bind (·.answer) with
  | some answer =>
    cases answer with
    | ok => exact .inl ⟨rfl, rfl⟩
    | error fault => exact .inr (.inl ⟨fault, rfl⟩)
  | none =>
    cases hreach : c.reaches ch.inbox with
    | false => exact .inr (.inl ⟨_, rfl⟩)
    | true =>
      obtain ⟨sent, hsent⟩ := exists_send_eq (c.remove ch.id) (.closeChannel ch.id)
      refine .inr (.inr ⟨rfl, _, sent, Prod.ext rfl ?_⟩)
      simp only [if_true, giveUpOpening, post, hsent]

end Connection

/-! ## Reading and closing -/

namespace Channel

theorem take_of_nil {ch : Channel} {c : Connection} {b : Inbox}
    (hb : c.inbox? ch.inbox = some b) (hwaiting : b.waiting = []) :
    ch.take c = (if c.reaches ch.inbox then none else some (.error .channelClosed), c) := by
  simp only [take, hb, Option.map_some, Option.getD_some, hwaiting]

theorem take_of_cons {ch : Channel} {c : Connection} {b : Inbox} {m : Bytes} {rest : List Bytes}
    (hb : c.inbox? ch.inbox = some b) (hwaiting : b.waiting = m :: rest) :
    ch.take c = (some (.ok m), c.modifyInbox ch.inbox fun b => { b with waiting := rest }) := by
  simp only [take, hb, Option.map_some, Option.getD_some, hwaiting]

theorem exists_of_take {ch : Channel} {c c' : Connection} {m : Bytes}
    (h : ch.take c = (some (.ok m), c')) :
    ∃ b rest, c.inbox? ch.inbox = some b ∧ b.waiting = m :: rest ∧
      c' = c.modifyInbox ch.inbox fun b => { b with waiting := rest } := by
  cases hb : c.inbox? ch.inbox with
  | none =>
    simp only [take, hb, Option.map_none, Option.getD_none] at h
    cases hreach : c.reaches ch.inbox <;> simp [hreach] at h
  | some b =>
    cases hwaiting : b.waiting with
    | nil =>
      rw [take_of_nil hb hwaiting] at h
      cases hreach : c.reaches ch.inbox <;> simp [hreach] at h
    | cons m' rest =>
      rw [take_of_cons hb hwaiting] at h
      simp only [Prod.mk.injEq, Option.some.injEq, Except.ok.injEq] at h
      obtain ⟨rfl, rfl⟩ := h
      exact ⟨b, rest, rfl, hwaiting, rfl⟩

/-- The line under the number of the channel is removed. -/
theorem close_eq {ch : Channel} (h : ch.closed = false) (c : Connection) :
    ∃ sent, ch.close c = ({ ch with closed := true }, { c.remove ch.id with sent }) := by
  obtain ⟨sent, hsent⟩ := Connection.exists_send_eq (c.remove ch.id) (.closeChannel ch.id)
  unfold close
  rw [if_neg (by simp [h])]
  cases hclosed : (c.remove ch.id).closed with
  | false => exact ⟨sent, Prod.ext rfl ((if_neg (by simp [hclosed])).trans hsent)⟩
  | true => exact ⟨(c.remove ch.id).sent, Prod.ext rfl (if_pos hclosed)⟩

theorem drop_of_closed {ch : Channel} (h : ch.closed = true) (c : Connection) :
    ch.drop c = c.abandon ch.inbox := by
  simp only [drop, close, h, if_true]

end Channel

end NameDirectory
