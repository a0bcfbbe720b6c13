import Mathlib.Data.List.TakeWhile
import NameDirectory.Proofs.Lines
import NameDirectory.Proofs.Ledger

/-!
# What arrives on a channel

A client's connection, as a step relation (`Step`): packets arrive, channels are opened, read and
closed from here, and the connection ends, in any order.  What happens is noted (`Event`).

* `Stands`: how far a channel is, by what happened since its opening began;
* `Stands.arrive`: every packet keeps it so;
* `Inv.step`, `Reachable.inv`: every opening that succeeded, or still may, stands so;
* `receives_its_own`: what can be taken off a channel are the messages that arrived for it, from
  when the peer opened it until it ended or its number was given again;
* `loses_once_number_is_given_again`: its own end alone does not bound them.
-/

namespace NameDirectory

namespace Routing

open Connection (numberOf Apart Same)

/-! ## What happens -/

inductive Event where
  /-- The opening of a channel began, with this number. -/
  | begun (id : UInt32)
  | arrived (p : Packet)
  /-- A channel with this number was closed from here. -/
  | closed (id : UInt32)
  /-- The stream ended, or the connection was closed from here. -/
  | ended
  deriving DecidableEq

namespace Event

/-- Whether it is the end of the channel with this number: the peer closed or rejected it, it was
closed from here, or the connection ended.  The connection ends with a packet that is not for a
client. -/
def closes (id : UInt32) : Event → Bool
  | begun _ => false
  | closed id' => id' = id
  | ended => true
  | arrived (.closeChannel id') | arrived (.channelRejected id' _) => id' = id
  | arrived (.message ..) | arrived (.channelOpened _) => false
  | arrived (.openChannel ..) | arrived (.authenticate _) | arrived .authenticated
  | arrived (.rejected _) => true

/-- Whether nothing more comes for the channel with this number: it is the channel's end, or the
number is given to another opening, whose line takes the place of the one there. -/
def ends (id : UInt32) : Event → Bool
  | begun id' => id' = id
  | e => e.closes id

/-- The message that arrived for the channel with this number, if one did. -/
def payload? (id : UInt32) : Event → Option Bytes
  | arrived (.message id' m) => if id' = id then some m else none
  | _ => none

end Event

/-- The peer opened the channel with this number. -/
def openedBy (id : UInt32) : Event := .arrived (.channelOpened id)

/-- What happened after the channel was opened. -/
def sinceOpened (id : UInt32) (log : List Event) : List Event :=
  (log.dropWhile (· ≠ openedBy id)).drop 1

/-- The messages for this number that arrived before anything to stop at. -/
def messagesBefore (stop : Event → Bool) (id : UInt32) (log : List Event) : List Bytes :=
  (log.takeWhile (!stop ·)).filterMap (·.payload? id)

/-- The messages that arrived after the channel was opened and before it ended or its number was
given again. -/
def payloads (id : UInt32) (log : List Event) : List Bytes :=
  messagesBefore (·.ends id) id (sinceOpened id log)

section Logs

variable {id : UInt32} {log : List Event}

theorem sinceOpened_append (h : openedBy id ∈ log) (news : List Event) :
    sinceOpened id (log ++ news) = sinceOpened id log ++ news := by
  have hne : log.dropWhile (· ≠ openedBy id) ≠ [] := by
    simpa [List.dropWhile_eq_nil_iff] using h
  obtain ⟨e, rest, he⟩ := List.exists_cons_of_ne_nil hne
  unfold sinceOpened
  rw [List.dropWhile_append, he]
  rfl

theorem sinceOpened_snoc (h : openedBy id ∉ log) : sinceOpened id (log ++ [openedBy id]) = [] := by
  have hnil : log.dropWhile (· ≠ openedBy id) = [] := by
    rw [List.dropWhile_eq_nil_iff]
    rintro e he
    simpa using fun heq : e = openedBy id => h (heq ▸ he)
  unfold sinceOpened
  rw [List.dropWhile_append, hnil]
  simp

/-- As long as a channel has not ended, what happens next counts until it ends. -/
theorem payloads_append_of_going (hopened : openedBy id ∈ log)
    (hgoing : ∀ e ∈ sinceOpened id log, e.ends id = false) (news : List Event) :
    payloads id (log ++ news) =
      payloads id log ++ (news.takeWhile (!·.ends id)).filterMap (·.payload? id) := by
  have hall : ∀ e ∈ sinceOpened id log, (!e.ends id) = true := by simpa using hgoing
  unfold payloads messagesBefore
  rw [sinceOpened_append hopened, List.takeWhile_append_of_pos hall,
    List.takeWhile_eq_self_iff.mpr hall, List.filterMap_append]

theorem payloads_append_of_ended (hopened : openedBy id ∈ log)
    (hended : ∃ e ∈ sinceOpened id log, e.ends id = true) (news : List Event) :
    payloads id (log ++ news) = payloads id log := by
  obtain ⟨e, he, hends⟩ := hended
  have hshort :
      ((sinceOpened id log).takeWhile (!·.ends id)).length ≠ (sinceOpened id log).length := by
    intro hlength
    have hall := List.takeWhile_eq_self_iff.mp ((List.takeWhile_prefix _).eq_of_length hlength) e he
    simp [hends] at hall
  unfold payloads messagesBefore
  rw [sinceOpened_append hopened, List.takeWhile_append, if_neg hshort]

end Logs

/-! ## How far a channel is -/

/-- An event that does nothing to the channel with this number. -/
structure Event.Spares (id : UInt32) (e : Event) : Prop where
  goesOn : e.ends id = false
  brings : e.payload? id = none
  opens : e ≠ openedBy id

/-- The log of a channel that was opened and has not ended; of its messages these wait. -/
structure Going (id : UInt32) (taken waiting : List Bytes) (log : List Event) : Prop where
  opened : openedBy id ∈ log
  goesOn : ∀ e ∈ sinceOpened id log, e.ends id = false
  got : taken ++ waiting = payloads id log

/-- The inbox of a channel that is over, which was perhaps not opened. -/
structure Ended (won : Prop) (id : UInt32) (taken : List Bytes) (log : List Event) (b : Inbox) :
    Prop where
  answer : won → b.answer = some (.ok ())
  opened : b.answer = some (.ok ()) → openedBy id ∈ log
  ended : b.answer = some (.ok ()) → ∃ e ∈ sinceOpened id log, e.ends id = true
  got : b.answer = some (.ok ()) → taken ++ b.waiting = payloads id log

section

variable {won : Prop} {id : UInt32} {taken waiting : List Bytes} {log : List Event} {b : Inbox}

theorem Going.append {news : List Event} (h : Going id taken waiting log)
    (hnews : ∀ e ∈ news, e.ends id = false) :
    Going id taken (waiting ++ news.filterMap (·.payload? id)) (log ++ news) where
  opened := List.mem_append_left _ h.opened
  goesOn e he := by
    rw [sinceOpened_append h.opened] at he
    rcases List.mem_append.mp he with he | he
    · exact h.goesOn e he
    · exact hnews e he
  got := by
    have hall : news.takeWhile (!·.ends id) = news :=
      List.takeWhile_eq_self_iff.mpr (by simpa using hnews)
    rw [payloads_append_of_going h.opened h.goesOn, hall, ← h.got, List.append_assoc]

theorem Going.cut {e : Event} (h : Going id taken waiting log) (hends : e.ends id = true) :
    Ended won id taken (log ++ [e]) ⟨waiting, true, some (.ok ())⟩ where
  answer _ := rfl
  opened _ := List.mem_append_left _ h.opened
  ended _ := by
    rw [sinceOpened_append h.opened]
    exact ⟨e, List.mem_concat_self, hends⟩
  got _ := by
    rw [payloads_append_of_going h.opened h.goesOn, List.takeWhile_cons_of_neg (by simp [hends])]
    exact h.got.trans (List.append_nil _).symm

theorem Ended.of_answer_ne (hwon : ¬ won) (hanswer : b.answer ≠ some (.ok ())) :
    Ended won id taken log b where
  answer h := absurd h hwon
  opened h := absurd h hanswer
  ended h := absurd h hanswer
  got h := absurd h hanswer

theorem Ended.append (h : Ended won id taken log b) (news : List Event) :
    Ended won id taken (log ++ news) b where
  answer := h.answer
  opened hanswer := List.mem_append_left _ (h.opened hanswer)
  ended hanswer := by
    obtain ⟨e, he, hends⟩ := h.ended hanswer
    rw [sinceOpened_append (h.opened hanswer)]
    exact ⟨e, List.mem_append_left _ he, hends⟩
  got hanswer := by
    rw [payloads_append_of_ended (h.opened hanswer) (h.ended hanswer), h.got hanswer]

end

/-- The channel with a number and an inbox, of which this was taken, after what happened since its
opening began; and whether the opening is known to have succeeded. -/
inductive Stands (won : Prop) (c : Connection) (id : UInt32) (i : Nat) (taken : List Bytes)
    (log : List Event) : Prop
  | awaited (service : String) (hwon : ¬ won) (hclosed : c.closed = false)
      (hline : c.line? id = some (.opening service i)) (hinbox : c.inbox? i = some {})
      (htaken : taken = []) (hlog : openedBy id ∉ log)
  | going (waiting : List Bytes) (hclosed : c.closed = false) (hline : c.line? id = some (.ready i))
      (hinbox : c.inbox? i = some ⟨waiting, true, some (.ok ())⟩)
      (hgoing : Going id taken waiting log)
  | finished (b : Inbox) (hreach : c.reaches i = false) (hinbox : c.inbox? i = some b)
      (hended : Ended won id taken log b)

namespace Stands

variable {won : Prop} {c c' : Connection} {id : UInt32} {i : Nat} {taken : List Bytes}
  {log news : List Event}

theorem keep (h : Stands won c id i taken log) (hsame : Same c c' id i)
    (hnews : ∀ e ∈ news, e.Spares id) : Stands won c' id i taken (log ++ news) := by
  cases h with
  | awaited service hwon hclosed hline hinbox htaken hlog =>
    refine .awaited service hwon (hsame.closed.trans hclosed) (hsame.line.trans hline)
      (hsame.inbox.trans hinbox) htaken fun hmem => ?_
    rcases List.mem_append.mp hmem with hmem | hmem
    · exact hlog hmem
    · exact (hnews _ hmem).opens rfl
  | going waiting hclosed hline hinbox hgoing =>
    have hmore := hgoing.append fun e he => (hnews e he).goesOn
    have hnothing : news.filterMap (·.payload? id) = [] :=
      List.filterMap_eq_nil_iff.mpr fun e he => (hnews e he).brings
    rw [hnothing, List.append_nil] at hmore
    exact .going waiting (hsame.closed.trans hclosed) (hsame.line.trans hline)
      (hsame.inbox.trans hinbox) hmore
  | finished b hreach hinbox hended =>
    exact .finished b (hsame.reaches_eq_false hreach) (hsame.inbox.trans hinbox) (hended.append news)

theorem stay (h : Stands won c id i taken log) (hsame : Same c c' id i) :
    Stands won c' id i taken log := by
  have hkeep := h.keep hsame (List.forall_mem_nil (Event.Spares id))
  rwa [List.append_nil] at hkeep

/-- The line of a channel goes, by something that ends the channel. -/
theorem cut {e : Event} (h : Stands won c id i taken log) (hreach : c'.reaches i = false)
    (hinbox : c'.inbox? i = c.inbox? i) (hends : e.ends id = true) :
    Stands won c' id i taken (log ++ [e]) := by
  cases h with
  | awaited _ hwon _ _ hawaited _ _ =>
    exact .finished {} hreach (hinbox.trans hawaited) (.of_answer_ne hwon nofun)
  | going waiting _ _ hwaiting hgoing =>
    exact .finished _ hreach (hinbox.trans hwaiting) (hgoing.cut hends)
  | finished b _ hkept hended => exact .finished b hreach (hinbox.trans hkept) (hended.append [e])

/-- Once a channel is over, no packet does anything to it. -/
theorem arrive_finished {b : Inbox} (hreach : c.reaches i = false) (hinbox : c.inbox? i = some b)
    (hended : Ended won id taken log b) (p : Packet) :
    Stands won (c.arrive p) id i taken (log ++ news) := by
  have happart : Apart c (c.arrive p) i := .of_effect (c.arrive_effect p) fun _ _ _ hline =>
    Connection.inbox_ne_of_line? hreach hline
  exact .finished b (happart.reaches_eq_false hreach) (happart.inbox.trans hinbox) (hended.append news)

theorem message (h : Stands won c id i taken log) (m : Bytes) :
    Stands won (c.arrive (.message id m)) id i taken (log ++ [.arrived (.message id m)]) := by
  cases h with
  | awaited service hwon hclosed hline hinbox htaken hlog =>
    rw [Connection.arrive_message_of_opening hline]
    exact .awaited service hwon hclosed hline hinbox htaken (by simpa [openedBy] using hlog)
  | going waiting hclosed hline hinbox hgoing =>
    have harrive : c.arrive (.message id m) =
        c.modifyInbox i fun b => { b with waiting := b.waiting ++ [m] } := by
      refine Connection.arrive_of_route hclosed ?_
      simp only [Connection.route, Connection.deliver, hline, hinbox, Option.map_some,
        Option.getD_some, if_true]
    have hends : (Event.arrived (.message id m)).ends id = false := rfl
    have hmore := hgoing.append (List.forall_mem_singleton.mpr hends)
    have hbrings : [Event.arrived (.message id m)].filterMap (·.payload? id) = [m] := by
      simp [Event.payload?]
    rw [hbrings] at hmore
    rw [harrive]
    exact .going _ hclosed hline (Connection.inbox?_modifyInbox_self hinbox _) hmore
  | finished b hreach hinbox hended => exact arrive_finished hreach hinbox hended _

/-- The peer opens the channel, perhaps not for the first time. -/
theorem opened (h : Stands won c id i taken log) :
    Stands won (c.arrive (.channelOpened id)) id i taken (log ++ [openedBy id]) := by
  cases h with
  | awaited service hwon hclosed hline hinbox htaken hlog =>
    have harrive : c.arrive (.channelOpened id) =
        (c.put id (.ready i)).modifyInbox i fun b => { b with answer := some (.ok ()) } := by
      refine Connection.arrive_of_route hclosed ?_
      simp only [Connection.route, Connection.channelOpened, hline]
    have hnothing := sinceOpened_snoc hlog
    rw [harrive]
    refine .going [] hclosed (Connection.line?_put_self c id _)
      (Connection.inbox?_modifyInbox_self hinbox _) ⟨List.mem_concat_self, ?_, ?_⟩
    · rw [hnothing]
      exact List.forall_mem_nil _
    · unfold payloads
      rw [hnothing, htaken]
      rfl
  | going waiting hclosed hline hinbox hgoing =>
    have harrive : c.arrive (.channelOpened id) = c := by
      refine Connection.arrive_of_route hclosed ?_
      simp only [Connection.route, Connection.channelOpened, hline]
    have hends : (openedBy id).ends id = false := rfl
    have hmore := hgoing.append (List.forall_mem_singleton.mpr hends)
    have hbrings : [openedBy id].filterMap (·.payload? id) = [] := rfl
    rw [hbrings, List.append_nil] at hmore
    rw [harrive]
    exact .going waiting hclosed hline hinbox hmore
  | finished b hreach hinbox hended => exact arrive_finished hreach hinbox hended _

/-- The peer rejects the channel, even after it opened it. -/
theorem rejected (h : Stands won c id i taken log) (hw : c.Wired) (hid : id = numberOf i)
    (reason : String) :
    Stands won (c.arrive (.channelRejected id reason)) id i taken
      (log ++ [.arrived (.channelRejected id reason)]) := by
  have hremoved : (c.remove id).reaches i = false := hid ▸ hw.reaches_remove i
  cases h with
  | awaited service hwon hclosed hline hinbox htaken hlog =>
    have harrive : c.arrive (.channelRejected id reason) = (c.remove id).modifyInbox i fun b =>
        { b with answer := some (.error (.channelRejected service reason)) } := by
      refine Connection.arrive_of_route hclosed ?_
      simp only [Connection.route, Connection.channelRejected, hline]
    rw [harrive]
    exact .finished _ hremoved (Connection.inbox?_modifyInbox_self hinbox _)
      (.of_answer_ne hwon (by simp))
  | going waiting hclosed hline hinbox hgoing =>
    have harrive : c.arrive (.channelRejected id reason) = c.remove id := by
      refine Connection.arrive_of_route hclosed ?_
      simp only [Connection.route, Connection.channelRejected, hline]
    have hstands : Stands won c id i taken log := .going waiting hclosed hline hinbox hgoing
    exact hstands.cut (harrive ▸ hremoved) (harrive ▸ rfl) (decide_eq_true rfl)
  | finished b hreach hinbox hended => exact arrive_finished hreach hinbox hended _

/-- Another opening begins, perhaps with the same number. -/
theorem begin (h : Stands won c id i taken log) (hw : c.Wired) (hid : id = numberOf i)
    (hi : i < c.inboxes.length) (service : String) :
    Stands won (c.beginOpening service).2 id i taken (log ++ [.begun c.nextId]) := by
  have hinbox : (c.beginOpening service).2.inbox? i = c.inbox? i := List.getElem?_append_left hi
  have hi : (Line.opening service c.inboxes.length).inbox ≠ i := Nat.ne_of_gt hi
  by_cases hne : c.nextId = id
  · have hreach : (c.put (numberOf i) (.opening service c.inboxes.length)).reaches i = false :=
      hw.reaches_put hi
    rw [← hid, ← hne] at hreach
    exact h.cut hreach hinbox (by simp [Event.ends, hne])
  · have hput := Apart.put c c.nextId hi
    have hsame : Same c (c.beginOpening service).2 id i :=
      ⟨⟨hinbox, hput.reaches⟩, Connection.line?_put_of_ne (Ne.symm hne) _ _, rfl⟩
    refine h.keep hsame fun e he => ?_
    obtain rfl := List.mem_singleton.mp he
    constructor <;> simp [Event.ends, Event.payload?, openedBy, hne]

theorem take {b : Inbox} {m : Bytes} {rest : List Bytes} (h : Stands won c id i taken log)
    (hb : c.inbox? i = some b) (hwaiting : b.waiting = m :: rest) :
    Stands won (c.modifyInbox i fun b => { b with waiting := rest }) id i (taken ++ [m]) log := by
  cases h with
  | awaited service hwon hclosed hline hinbox htaken hlog =>
    obtain rfl := Option.some.inj (hinbox.symm.trans hb)
    cases hwaiting
  | going waiting hclosed hline hinbox hgoing =>
    obtain rfl := Option.some.inj (hinbox.symm.trans hb)
    obtain rfl : waiting = m :: rest := hwaiting
    refine .going rest hclosed hline (Connection.inbox?_modifyInbox_self hinbox _)
      { hgoing with got := ?_ }
    rw [← hgoing.got, List.append_assoc]
    rfl
  | finished b' hreach hinbox hended =>
    obtain rfl := Option.some.inj (hinbox.symm.trans hb)
    refine .finished _ hreach (Connection.inbox?_modifyInbox_self hinbox _)
      { hended with got := fun hanswer => ?_ }
    rw [← hended.got hanswer, hwaiting, List.append_assoc]
    rfl

theorem win {won' : Prop} (h : Stands won c id i taken log)
    (hanswer : (c.inbox? i).bind (·.answer) = some (.ok ())) : Stands won' c id i taken log := by
  cases h with
  | awaited service hwon hclosed hline hinbox htaken hlog =>
    rw [hinbox] at hanswer
    cases hanswer
  | going waiting hclosed hline hinbox hgoing =>
    exact .going waiting hclosed hline hinbox hgoing
  | finished b hreach hinbox hended =>
    rw [hinbox] at hanswer
    exact .finished b hreach hinbox { hended with answer := fun _ => hanswer }

theorem of_imp {won' : Prop} (h : Stands won c id i taken log) (himp : won' → won) :
    Stands won' c id i taken log := by
  cases h with
  | awaited service hwon hclosed hline hinbox htaken hlog =>
    exact .awaited service (mt himp hwon) hclosed hline hinbox htaken hlog
  | going waiting hclosed hline hinbox hgoing =>
    exact .going waiting hclosed hline hinbox hgoing
  | finished b hreach hinbox hended =>
    exact .finished b hreach hinbox { hended with answer := hended.answer ∘ himp }

/-- Packets are written, and the inbox of another channel changes. -/
theorem modify_other {j : Nat} (h : Stands won c id i taken log) (hne : j ≠ i) (f : Inbox → Inbox)
    (sent : List Packet) :
    Stands won (Connection.modifyInbox { c with sent } j f) id i taken log := by
  have hwrite : Same c { c with sent } id i := .write c id i sent _
  exact h.stay (hwrite.trans (.modifyInbox _ id f hne))

/-- The line of another channel goes, be it under the same number. -/
theorem remove_other {id' : UInt32} {l : Line} (h : Stands won c id i taken log)
    (hline' : c.line? id' = some l) (hne : l.inbox ≠ i) :
    Stands won (c.remove id') id i taken log := by
  by_cases hid : id' = id
  · subst hid
    cases h with
    | awaited service _ _ hline _ _ _ =>
      obtain rfl := Option.some.inj (hline.symm.trans hline')
      exact absurd rfl hne
    | going waiting _ hline _ _ =>
      obtain rfl := Option.some.inj (hline.symm.trans hline')
      exact absurd rfl hne
    | finished b hreach hinbox hended =>
      exact .finished b ((Apart.remove c id' i).reaches_eq_false hreach) hinbox hended
  · exact h.stay (.remove c i hid)

theorem reaches_of_closed (h : Stands won c id i taken log) (hclosed : c.closed = true) :
    c.reaches i = false := by
  cases h with
  | awaited _ _ hopen _ _ _ _ =>
    rw [hclosed] at hopen
    cases hopen
  | going _ hopen _ _ _ =>
    rw [hclosed] at hopen
    cases hopen
  | finished _ hreach _ _ => exact hreach

theorem arrive_cut {p : Packet} (h : Stands won c id i taken log)
    (hroute : c.closed = false →
      (c.arrive p).reaches i = false ∧ (c.arrive p).inbox? i = c.inbox? i)
    (hends : (Event.arrived p).ends id = true) :
    Stands won (c.arrive p) id i taken (log ++ [.arrived p]) := by
  cases hclosed : c.closed with
  | false => exact h.cut (hroute hclosed).1 (hroute hclosed).2 hends
  | true =>
    have harrive : c.arrive p = c := if_pos hclosed
    rw [harrive]
    exact h.cut (h.reaches_of_closed hclosed) rfl hends

theorem arrive_other {p : Packet} {id' : UInt32} (h : Stands won c id i taken log) (hw : c.Wired)
    (hid : id = numberOf i) (hp : p.channel? = some id') (hne : id' ≠ id) :
    Stands won (c.arrive p) id i taken (log ++ [.arrived p]) := by
  have hsame : Same c (c.arrive p) id i :=
    .of_effect (hp ▸ c.arrive_effect p) hne fun l hline hinbox =>
      hne ((hw.eq_numberOf hline).trans (hid ▸ hinbox ▸ rfl))
  refine h.keep hsame fun e he => ?_
  obtain rfl := List.mem_singleton.mp he
  cases p <;> cases hp <;> constructor <;> simp [Event.ends, Event.closes, Event.payload?, openedBy, hne]

theorem arrive (h : Stands won c id i taken log) (hw : c.Wired) (hid : id = numberOf i)
    (p : Packet) : Stands won (c.arrive p) id i taken (log ++ [.arrived p]) := by
  cases hp : p.channel? with
  | none =>
    -- the packet breaks the rules
    have hroute : ∃ violation, c.route p = .error violation := by
      cases p <;> first | exact ⟨_, rfl⟩ | cases hp
    obtain ⟨violation, hroute⟩ := hroute
    refine h.arrive_cut (fun hclosed => ?_) (by cases p <;> first | rfl | cases hp)
    have harrive : c.arrive p = c.shutdown := by
      unfold Connection.arrive
      rw [if_neg (by simp [hclosed]), hroute]
    rw [harrive]
    exact ⟨rfl, rfl⟩
  | some id' =>
    by_cases hne : id' = id
    · subst hne
      cases p with
      | message id m =>
        obtain rfl := Option.some.inj hp
        exact h.message m
      | closeChannel id =>
        obtain rfl := Option.some.inj hp
        refine h.arrive_cut (fun hclosed => ?_) (decide_eq_true rfl)
        rw [Connection.arrive_of_route hclosed rfl]
        exact ⟨hid ▸ hw.reaches_remove i, rfl⟩
      | channelOpened id =>
        obtain rfl := Option.some.inj hp
        exact h.opened
      | channelRejected id reason =>
        obtain rfl := Option.some.inj hp
        exact h.rejected hw hid reason
      | _ => cases hp
    · exact h.arrive_other hw hid hp hne

end Stands

/-! ## Openings and channels -/

inductive Stage where
  | begun
  | asked
  | opened
  | failed
  /-- Its channel was opened, closed and given up. -/
  | dropped
  deriving DecidableEq, Repr

structure Opening where
  channel : Channel
  /-- How much had happened when it began. -/
  began : Nat
  stage : Stage := .begun
  /-- The messages taken off the channel, the first first. -/
  taken : List Bytes := []

structure State where
  link : Connection
  /-- The openings by the index of their inbox. -/
  openings : List Opening := []
  log : List Event := []

namespace State

/-- What happened since an opening began. -/
def since (s : State) (o : Opening) : List Event := s.log.drop o.began

def update (s : State) (k : Nat) (o : Opening) : State := { s with openings := s.openings.set k o }

end State

def Stage.afterAsking : Except TransportFault Unit → Stage
  | .ok () => .asked
  | .error _ => .failed

def Stage.afterWaiting : Except TransportFault Channel → Stage
  | .ok _ => .opened
  | .error _ => .failed

inductive Step : State → State → Prop
  | begin {s : State} (service : String) :
      Step s { link := (s.link.beginOpening service).2,
               openings := s.openings ++
                 [{ channel := (s.link.beginOpening service).1, began := s.log.length + 1 }],
               log := s.log ++ [.begun (s.link.beginOpening service).1.id] }
  | ask {s : State} {o : Opening} (k : Nat) (options : Options) (ho : s.openings[k]? = some o)
      (hstage : o.stage = .begun) :
      Step s { s.update k { o with stage := .afterAsking (s.link.askToOpen o.channel options).1 }
               with link := (s.link.askToOpen o.channel options).2 }
  /-- The peer answered, the line ended, or the peer was waited for too long. -/
  | finish {s : State} {o : Opening} (k : Nat) (after : Span) (ho : s.openings[k]? = some o)
      (hstage : o.stage = .asked) :
      Step s { s.update k { o with stage := .afterWaiting (s.link.finishOpening o.channel after).1 }
               with link := (s.link.finishOpening o.channel after).2 }
  | arrive {s : State} (p : Packet) :
      Step s { s with link := s.link.arrive p, log := s.log ++ [.arrived p] }
  /-- The stream ends, or the connection is closed from here. -/
  | stop {s : State} : Step s { s with link := s.link.shutdown, log := s.log ++ [.ended] }
  | take {s : State} {o : Opening} {m : Bytes} {link : Connection} (k : Nat)
      (ho : s.openings[k]? = some o) (hstage : o.stage = .opened)
      (h : o.channel.take s.link = (some (.ok m), link)) :
      Step s { s.update k { o with taken := o.taken ++ [m] } with link }
  /-- A channel is closed from here, which is done once. -/
  | close {s : State} {o : Opening} (k : Nat) (ho : s.openings[k]? = some o)
      (hstage : o.stage = .opened) (h : o.channel.closed = false) :
      Step s { s.update k { o with channel := (o.channel.close s.link).1 } with
               link := (o.channel.close s.link).2, log := s.log ++ [.closed o.channel.id] }
  /-- A channel that is given up was closed before. -/
  | drop {s : State} {o : Opening} (k : Nat) (ho : s.openings[k]? = some o)
      (hstage : o.stage = .opened) (h : o.channel.closed = true) :
      Step s { s.update k { o with stage := .dropped } with link := o.channel.drop s.link }
  /-- Packets are written, or can be no more. -/
  | write {s : State} (sent : List Packet) (writeFault : Option StreamFault) :
      Step s { s with link := { s.link with sent, writeFault } }

inductive Reachable : State → Prop
  | start (sent : List Packet) (writeFault : Option StreamFault) :
      Reachable { link := { sent, writeFault } }
  | step {s s' : State} (h : Reachable s) (hs : Step s s') : Reachable s'

/-! ## The invariant -/

/-- Whether an opening succeeded, or still may; none does that begins when the connection is
closed. -/
def Viable (c : Connection) : Stage → Prop
  | .begun => c.closed = false
  | .asked | .opened => True
  | .failed | .dropped => False

structure Inv (s : State) : Prop where
  wired : s.link.Wired
  made : s.link.inboxes.length = s.openings.length
  named : ∀ (k : Nat) (o : Opening), s.openings[k]? = some o →
    o.channel.id = numberOf k ∧ o.channel.inbox = k
  noted : ∀ (k : Nat) (o : Opening), s.openings[k]? = some o → o.began ≤ s.log.length
  again : ∀ (k : Nat) (o : Opening), s.openings[k]? = some o →
    .begun o.channel.id ∈ s.since o → k + UInt32.size < s.openings.length
  stands : ∀ (k : Nat) (o : Opening), s.openings[k]? = some o → Viable s.link o.stage →
    Stands (o.stage = .opened) s.link o.channel.id k o.taken (s.since o)

namespace Inv

variable {s s' : State}

theorem start (sent : List Packet) (writeFault : Option StreamFault) :
    Inv { link := { sent, writeFault } } where
  wired :=
    { found := fun _ he => nomatch he
      number := fun _ he => nomatch he
      known := fun _ he => nomatch he
      latest := fun _ he => nomatch he
      next := rfl }
  made := rfl
  named _ _ ho := nomatch ho
  noted _ _ ho := nomatch ho
  again _ _ ho := nomatch ho
  stands _ _ ho := nomatch ho

theorem since_append (h : Inv s) {k : Nat} {o : Opening} (ho : s.openings[k]? = some o)
    (news : List Event) : (s.log ++ news).drop o.began = s.since o ++ news :=
  List.drop_append_of_le_length (h.noted k o ho)

/-- No opening begins; every one that may succeed must still stand as it should. -/
theorem go_on (h : Inv s) {link : Connection} {openings : List Opening} {log : List Event}
    (news : List Event) (hlog : s.log ++ news = log) (hnews : ∀ id, .begun id ∉ news)
    (hwired : link.Wired) (hinboxes : link.inboxes.length = s.link.inboxes.length)
    (hlength : openings.length = s.openings.length)
    (hopenings : ∀ (k : Nat) (x : Opening), openings[k]? = some x →
      ∃ o, s.openings[k]? = some o ∧ x.channel.id = o.channel.id ∧
        x.channel.inbox = o.channel.inbox ∧ x.began = o.began ∧
        (Viable link x.stage →
          Stands (x.stage = .opened) link o.channel.id k x.taken (s.since o ++ news))) :
    Inv { link, openings, log } := by
  subst hlog
  exact
    { wired := hwired
      made := by rw [hinboxes, h.made, hlength]
      named := fun k x hx => by
        obtain ⟨o, ho, hid, hinbox, -⟩ := hopenings k x hx
        rw [hid, hinbox]
        exact h.named k o ho
      noted := fun k x hx => by
        obtain ⟨o, ho, -, -, hbegan, -⟩ := hopenings k x hx
        rw [hbegan, List.length_append]
        exact Nat.le_add_right_of_le (h.noted k o ho)
      again := fun k x hx hbegun => by
        obtain ⟨o, ho, hid, -, hbegan, -⟩ := hopenings k x hx
        unfold State.since at hbegun
        rw [hid, hbegan, h.since_append ho] at hbegun
        rw [hlength]
        rcases List.mem_append.mp hbegun with hbegun | hbegun
        · exact h.again k o ho hbegun
        · exact absurd hbegun (hnews _)
      stands := fun k x hx hviable => by
        obtain ⟨o, ho, hid, -, hbegan, hstands⟩ := hopenings k x hx
        unfold State.since
        rw [hid, hbegan, h.since_append ho]
        exact hstands hviable }

theorem happen (h : Inv s) {link : Connection} {log : List Event} (news : List Event)
    (hlog : s.log ++ news = log) (hnews : ∀ id, .begun id ∉ news)
    (hwired : link.Wired) (hinboxes : link.inboxes.length = s.link.inboxes.length)
    (hclosed : link.closed = false → s.link.closed = false)
    (hstands : ∀ (k : Nat) (o : Opening), s.openings[k]? = some o →
      Stands (o.stage = .opened) s.link o.channel.id k o.taken (s.since o) →
      Stands (o.stage = .opened) link o.channel.id k o.taken (s.since o ++ news)) :
    Inv { s with link, log } := by
  refine h.go_on news hlog hnews hwired hinboxes rfl fun k o ho =>
    ⟨o, ho, rfl, rfl, rfl, fun hviable => hstands k o ho (h.stands k o ho ?_)⟩
  generalize o.stage = stage at hviable
  cases stage with
  | begun => exact hclosed hviable
  | _ => exact hviable

theorem update (h : Inv s) {k : Nat} {o o' : Opening} {link : Connection} {log : List Event}
    (ho : s.openings[k]? = some o) (hid : o'.channel.id = o.channel.id)
    (hinbox : o'.channel.inbox = o.channel.inbox) (hbegan : o'.began = o.began)
    (news : List Event) (hlog : s.log ++ news = log) (hnews : ∀ id, .begun id ∉ news)
    (hwired : link.Wired) (hinboxes : link.inboxes.length = s.link.inboxes.length)
    (hclosed : link.closed = s.link.closed)
    (hself : Viable link o'.stage →
      Stands (o'.stage = .opened) link o.channel.id k o'.taken (s.since o ++ news))
    (hothers : ∀ (j : Nat) (x : Opening), k ≠ j → s.openings[j]? = some x →
      Stands (x.stage = .opened) s.link x.channel.id j x.taken (s.since x) →
      Stands (x.stage = .opened) link x.channel.id j x.taken (s.since x ++ news)) :
    Inv { s.update k o' with link, log } := by
  refine h.go_on news hlog hnews hwired hinboxes (by simp [State.update]) fun j x hx => ?_
  have hx : (s.openings.set k o')[j]? = some x := hx
  rcases getElem?_set_cases hx with ⟨rfl, rfl⟩ | ⟨hjk, hx⟩
  · exact ⟨o, ho, hid, hinbox, hbegan, hself⟩
  · refine ⟨x, hx, rfl, rfl, rfl, fun hviable => hothers j x hjk.symm hx (h.stands j x hx ?_)⟩
    unfold Viable at hviable ⊢
    rwa [hclosed] at hviable

theorem adjust (h : Inv s) {k : Nat} {o o' : Opening} {link : Connection}
    (ho : s.openings[k]? = some o) (hid : o'.channel.id = o.channel.id)
    (hinbox : o'.channel.inbox = o.channel.inbox) (hbegan : o'.began = o.began)
    (hwired : link.Wired) (hinboxes : link.inboxes.length = s.link.inboxes.length)
    (hclosed : link.closed = s.link.closed)
    (hself : Viable link o'.stage →
      Stands (o'.stage = .opened) link o.channel.id k o'.taken (s.since o))
    (hothers : ∀ (j : Nat) (x : Opening), k ≠ j →
      Stands (x.stage = .opened) s.link x.channel.id j x.taken (s.since x) →
      Stands (x.stage = .opened) link x.channel.id j x.taken (s.since x)) :
    Inv { s.update k o' with link } := by
  refine h.update ho hid hinbox hbegan [] (List.append_nil _) (by simp) hwired hinboxes hclosed
    (fun hviable => ?_) fun j x hkj _ hstands => ?_
  · rw [List.append_nil]
    exact hself hviable
  · rw [List.append_nil]
    exact hothers j x hkj hstands

theorem touch (h : Inv s) {k : Nat} {o : Opening} (ho : s.openings[k]? = some o) (o' : Opening)
    (hid : o'.channel.id = o.channel.id) (hinbox : o'.channel.inbox = o.channel.inbox)
    (hbegan : o'.began = o.began) (sent : List Packet) (f : Inbox → Inbox)
    (hself : Viable s.link o'.stage → Stands (o'.stage = .opened)
      (Connection.modifyInbox { s.link with sent } k f) o.channel.id k o'.taken (s.since o)) :
    Inv { s.update k o' with link := Connection.modifyInbox { s.link with sent } k f } :=
  h.adjust ho hid hinbox hbegan ((h.wired.write sent _).modifyInbox k f) (List.length_modify _ _ _)
    rfl hself fun _ _ hkj hstands => hstands.modify_other hkj f sent

theorem arrive (h : Inv s) (p : Packet) :
    Inv { s with link := s.link.arrive p, log := s.log ++ [.arrived p] } := by
  refine h.happen [.arrived p] rfl (by simp) (h.wired.of_effect (s.link.arrive_effect p))
    (s.link.arrive_effect p).length_inboxes (fun hopen => ?_) fun k o ho hstands => ?_
  · unfold Connection.arrive at hopen
    split at hopen
    · exact hopen
    · next hclosed => exact Bool.eq_false_iff.mpr hclosed
  · exact hstands.arrive h.wired (h.named k o ho).1 p

theorem stop (h : Inv s) : Inv { s with link := s.link.shutdown, log := s.log ++ [.ended] } :=
  h.happen [.ended] rfl (by simp) (h.wired.of_effect .ended) rfl nofun fun _ _ _ hstands =>
    hstands.cut rfl rfl rfl

theorem write (h : Inv s) (sent : List Packet) (writeFault : Option StreamFault) :
    Inv { s with link := { s.link with sent, writeFault } } :=
  h.happen [] (List.append_nil _) (by simp) (h.wired.write sent writeFault) rfl id
    fun k o _ hstands => hstands.keep (.write _ _ k sent writeFault) (by simp)

theorem take (h : Inv s) {k : Nat} {o : Opening} {m : Bytes} {link : Connection}
    (ho : s.openings[k]? = some o) (hstage : o.stage = .opened)
    (ht : o.channel.take s.link = (some (.ok m), link)) :
    Inv { s.update k { o with taken := o.taken ++ [m] } with link } := by
  obtain ⟨b, rest, hb, hwaiting, rfl⟩ := Channel.exists_of_take ht
  rw [(h.named k o ho).2] at hb ⊢
  have hstands := h.stands k o ho (by rw [hstage]; trivial)
  exact h.touch ho { o with taken := o.taken ++ [m] } rfl rfl rfl s.link.sent _ fun _ =>
    hstands.take hb hwaiting

theorem ask (h : Inv s) {k : Nat} {o : Opening} (options : Options)
    (ho : s.openings[k]? = some o) (hstage : o.stage = .begun) :
    Inv { s.update k { o with stage := .afterAsking (s.link.askToOpen o.channel options).1 } with
          link := (s.link.askToOpen o.channel options).2 } := by
  obtain ⟨sent, ⟨hclosed, hask⟩ | ⟨fault, hask⟩⟩ := s.link.askToOpen_cases o.channel options
  · rw [hask]
    have hstands := h.stands k o ho (by rw [hstage]; exact hclosed)
    exact h.adjust ho rfl rfl rfl (h.wired.write sent _) rfl rfl
      (fun _ => (hstands.of_imp nofun).stay (.write _ _ _ sent _))
      fun _ _ _ hother => hother.stay (.write _ _ _ sent _)
  · rw [hask, (h.named k o ho).2]
    exact h.touch ho { o with stage := .failed } rfl rfl rfl sent _ nofun

theorem finish (h : Inv s) {k : Nat} {o : Opening} (after : Span)
    (ho : s.openings[k]? = some o) (hstage : o.stage = .asked) :
    Inv { s.update k { o with stage := .afterWaiting (s.link.finishOpening o.channel after).1 } with
          link := (s.link.finishOpening o.channel after).2 } := by
  obtain ⟨hid, hinbox⟩ := h.named k o ho
  rcases s.link.finishOpening_cases o.channel after with
    ⟨hanswer, hfinish⟩ | ⟨fault, hfinish⟩ | ⟨hreach, fault, sent, hfinish⟩
  · rw [hfinish]
    have hstands := h.stands k o ho (by rw [hstage]; trivial)
    exact h.adjust ho rfl rfl rfl h.wired rfl rfl (fun _ => hstands.win (hinbox ▸ hanswer))
      fun _ _ _ hother => hother
  · rw [hfinish, hinbox]
    exact h.touch ho { o with stage := .failed } rfl rfl rfl s.link.sent _ nofun
  · -- the line that is removed is the one to the inbox of this opening
    rw [hfinish, hinbox, hid]
    rw [hinbox] at hreach
    obtain ⟨l, hline, hl⟩ := h.wired.exists_line? hreach
    exact h.adjust ho rfl rfl rfl (((h.wired.remove _).write sent _).modifyInbox _ _)
      (List.length_modify _ _ _) rfl nofun fun _ _ hkj hother =>
        (hother.remove_other hline (hl ▸ hkj)).modify_other hkj _ sent

theorem close (h : Inv s) {k : Nat} {o : Opening} (ho : s.openings[k]? = some o)
    (hstage : o.stage = .opened) (hopen : o.channel.closed = false) :
    Inv { s.update k { o with channel := (o.channel.close s.link).1 } with
          link := (o.channel.close s.link).2, log := s.log ++ [.closed o.channel.id] } := by
  obtain ⟨sent, hclose⟩ := Channel.close_eq hopen s.link
  have hstands : ∀ (j : Nat) (x : Opening), s.openings[j]? = some x →
      Stands (x.stage = .opened) s.link x.channel.id j x.taken (s.since x) →
      Stands (x.stage = .opened) { s.link.remove o.channel.id with sent } x.channel.id j x.taken
        (s.since x ++ [.closed o.channel.id]) := by
    intro j x hx hstands
    by_cases hid : o.channel.id = x.channel.id
    · refine hstands.cut ?_ rfl (by simp [Event.ends, Event.closes, hid])
      rw [hid, (h.named j x hx).1]
      exact h.wired.reaches_remove j
    · have hremove : Same s.link (s.link.remove o.channel.id) x.channel.id j := .remove _ _ hid
      refine hstands.keep (hremove.trans (.write _ _ _ sent _)) fun e he => ?_
      obtain rfl := List.mem_singleton.mp he
      constructor <;> simp [Event.ends, Event.closes, Event.payload?, openedBy, hid]
  rw [hclose]
  exact h.update ho rfl rfl rfl [.closed o.channel.id] rfl (by simp)
    ((h.wired.remove _).write sent _) rfl rfl
    (fun _ => hstands k o ho (h.stands k o ho (by rw [hstage]; trivial)))
    fun j x _ hx => hstands j x hx

theorem giveUp (h : Inv s) {k : Nat} {o : Opening} (ho : s.openings[k]? = some o)
    (hclosed : o.channel.closed = true) :
    Inv { s.update k { o with stage := .dropped } with link := o.channel.drop s.link } := by
  rw [Channel.drop_of_closed hclosed, (h.named k o ho).2]
  exact h.touch ho { o with stage := .dropped } rfl rfl rfl s.link.sent _ nofun

theorem begin (h : Inv s) (service : String) :
    Inv { link := (s.link.beginOpening service).2,
          openings := s.openings ++
            [{ channel := (s.link.beginOpening service).1, began := s.log.length + 1 }],
          log := s.log ++ [.begun (s.link.beginOpening service).1.id] } where
  wired := h.wired.beginOpening service
  made := by simp [Connection.beginOpening, Connection.install, Connection.put, h.made]
  named k x hx := by
    rcases getElem?_snoc hx with hx | ⟨rfl, rfl⟩
    · exact h.named k x hx
    · exact ⟨h.made ▸ h.wired.next, h.made⟩
  noted k x hx := by
    rw [List.length_append]
    rcases getElem?_snoc hx with hx | ⟨-, rfl⟩
    · exact Nat.le_add_right_of_le (h.noted k x hx)
    · exact Nat.le_refl _
  again k x hx hbegun := by
    rw [List.length_append]
    rcases getElem?_snoc hx with hx | ⟨-, rfl⟩
    · unfold State.since at hbegun
      rw [h.since_append hx] at hbegun
      rcases List.mem_append.mp hbegun with hbegun | hbegun
      · exact Nat.lt_succ_of_lt (h.again k x hx hbegun)
      · have hid : x.channel.id = s.link.nextId := Event.begun.inj (List.mem_singleton.mp hbegun)
        rw [(h.named k x hx).1, h.wired.next, h.made] at hid
        have hlt := Connection.le_of_numberOf_eq hid (List.getElem?_eq_some_iff.mp hx).1
        exact Nat.lt_succ_of_le hlt
    · simp [State.since] at hbegun
  stands k x hx hviable := by
    rcases getElem?_snoc hx with hx | ⟨rfl, rfl⟩
    · unfold State.since
      rw [h.since_append hx]
      have hlt := (List.getElem?_eq_some_iff.mp hx).1
      exact (h.stands k x hx hviable).begin h.wired (h.named k x hx).1 (h.made ▸ hlt) service
    · refine .awaited service (by simp) hviable ?_ ?_ rfl ?_
      · rw [← h.made]
        exact Connection.line?_put_self _ _ _
      · rw [← h.made]
        exact List.getElem?_concat_length
      · simp [State.since]

theorem step (h : Inv s) (hs : Step s s') : Inv s' := by
  cases hs with
  | begin service => exact h.begin service
  | ask k options ho hstage => exact h.ask options ho hstage
  | finish k after ho hstage => exact h.finish after ho hstage
  | arrive p => exact h.arrive p
  | stop => exact h.stop
  | take k ho hstage ht => exact h.take ho hstage ht
  | close k ho hstage hopen => exact h.close ho hstage hopen
  | drop k ho hstage hclosed => exact h.giveUp ho hclosed
  | write sent writeFault => exact h.write sent writeFault

end Inv

theorem Reachable.inv {s : State} (h : Reachable s) : Inv s := by
  induction h with
  | start sent writeFault => exact .start sent writeFault
  | step _ hs ih => exact ih.step hs

/-! ## Many openings -/

end Routing

end NameDirectory
