import NameDirectory.Proofs.Lines
import NameDirectory.Proofs.Ledger
import NameDirectory.Proofs.Shutdown

/-!
# Endings of channels that the peer opened

A server's connection, as a step relation (`Step`): packets arrive, and whoever holds a channel
writes to it, reads and closes it, in any order.  To close a channel takes three steps, and others
come between.

* `Inv`, `Reachable.inv`: each line leads to the last channel with its number;
* `Act.spares`: what the holder of a channel does spares the channels with other numbers;
* `endings_by_number`: a channel goes on whatever is done to others, but for the closing of earlier
  ones with its number.
-/

namespace NameDirectory

namespace Hosting

open Connection (Effect Same)

/-! ## What happens -/

/-- How far a channel is that the peer asked for. -/
inductive Stage where
  | placed
  /-- The peer was told, and somebody holds it. -/
  | held
  /-- Its holder closes it, -/
  | marked
  /-- removed the line under its number, -/
  | removed
  /-- and told the peer. -/
  | closed
  | dropped
  deriving DecidableEq, Repr

structure Hosted where
  channel : Channel
  stage : Stage := .placed
  deriving DecidableEq, Repr

structure State where
  link : Connection := {}
  /-- The channels by the index of their inbox. -/
  channels : List Hosted := []

/-- What the holder of a channel does. -/
inductive Act where
  | send (payload : Bytes)
  | take
  /-- The first step of closing, which is made once. -/
  | mark
  | remove
  | tell
  /-- Give up the inbox. -/
  | drop
  deriving DecidableEq

namespace Act

def Allowed : Act → Stage → Prop
  | send _, stage | take, stage => stage ≠ .placed ∧ stage ≠ .dropped
  | mark, stage => stage = .held
  | remove, stage => stage = .marked
  | tell, stage => stage = .removed
  | drop, stage => stage = .closed

theorem allowed_send (payload : Bytes) : (send payload).Allowed .held := ⟨by decide, by decide⟩

theorem allowed_take : take.Allowed .held := ⟨by decide, by decide⟩

def after (x : Hosted) : Act → Hosted
  | send _ | take => x
  | mark => ⟨{ x.channel with closed := true }, .marked⟩
  | remove => { x with stage := .removed }
  | tell => { x with stage := .closed }
  | drop => { x with stage := .dropped }

def run (ch : Channel) (c : Connection) : Act → Connection
  | send payload => (ch.send payload c).2
  | take => (ch.take c).2
  | mark => c
  | remove => c.remove ch.id
  | tell => if c.closed then c else c.post (.closeChannel ch.id)
  | drop => c.abandon ch.inbox

end Act

inductive Event where
  /-- The peer asked for a channel with this number. -/
  | placed (id : UInt32)
  /-- It was told that it has it. -/
  | told (k : Nat)
  | arrived (p : Packet)
  | ended
  | wrote
  /-- The holder of a channel did this. -/
  | did (k : Nat) (a : Act)
  deriving DecidableEq

def State.place (s : State) (id : UInt32) (service : String) : State :=
  { link := (s.link.install id .ready).2,
    channels := s.channels ++ [⟨⟨id, service, (s.link.install id .ready).1, false⟩, .placed⟩] }

inductive Step : State → Event → State → Prop
  | place {s : State} (id : UInt32) (service : String) : Step s (.placed id) (s.place id service)
  | tell {s : State} {x : Hosted} {link : Connection} (k : Nat) (hx : s.channels[k]? = some x)
      (hstage : x.stage = .placed)
      (h : s.link.send (.channelOpened x.channel.id) = (.ok (), link)) :
      Step s (.told k) { link, channels := s.channels.set k { x with stage := .held } }
  /-- A packet that asks for no channel and breaks no rules. -/
  | arrive {s : State} {link : Connection} (p : Packet) (h : s.link.route p = .ok link) :
      Step s (.arrived p) { s with link }
  | stop {s : State} : Step s .ended { s with link := s.link.shutdown }
  | write {s : State} (sent : List Packet) (writeFault : Option StreamFault) :
      Step s .wrote { s with link := { s.link with sent, writeFault } }
  | act {s : State} {x : Hosted} (k : Nat) (a : Act) (hx : s.channels[k]? = some x)
      (ha : a.Allowed x.stage) :
      Step s (.did k a) { link := a.run x.channel s.link, channels := s.channels.set k (a.after x) }

/-- What happened from one state to another, the first first. -/
inductive Run (s : State) : List Event → State → Prop
  | none : Run s [] s
  | more {s' s'' : State} {events : List Event} {e : Event} (h : Run s events s')
      (hs : Step s' e s'') : Run s (events ++ [e]) s''

def Reachable (s : State) : Prop := ∃ events, Run {} events s

/-! ## The invariant -/

/-- Lines were at most removed, all under a number at once. -/
structure Trims (c c' : Connection) : Prop where
  inboxes : c'.inboxes.length = c.inboxes.length
  lines : ∀ e ∈ c'.lines, e ∈ c.lines
  found : (∀ e ∈ c.lines, c.line? e.1 = some e.2) → ∀ e ∈ c'.lines, c'.line? e.1 = some e.2

namespace Trims

variable {c c' c'' : Connection}

theorem trans (h : Trims c c') (h' : Trims c' c'') : Trims c c'' :=
  ⟨h'.inboxes.trans h.inboxes, fun e he => h.lines e (h'.lines e he), h'.found ∘ h.found⟩

theorem write (c : Connection) (sent : List Packet) (writeFault : Option StreamFault) :
    Trims c { c with sent, writeFault } :=
  ⟨rfl, fun _ he => he, id⟩

theorem send (c : Connection) (p : Packet) : Trims c (c.send p).2 := by
  obtain ⟨sent, hsent⟩ := c.exists_send_eq p
  rw [hsent]
  exact write c sent _

theorem remove (c : Connection) (id : UInt32) : Trims c (c.remove id) :=
  ⟨rfl, fun _ he => (Connection.mem_lines_remove.mp he).1, fun h => Connection.found_remove h id⟩

theorem modifyInbox (c : Connection) (i : Nat) (f : Inbox → Inbox) : Trims c (c.modifyInbox i f) :=
  ⟨Connection.length_inboxes_modifyInbox c i f, fun _ he => he, id⟩

theorem shutdown (c : Connection) : Trims c c.shutdown := ⟨rfl, nofun, nofun⟩

theorem run (ch : Channel) (c : Connection) (a : Act) : Trims c (a.run ch c) := by
  have hnothing : Trims c c := write c c.sent c.writeFault
  cases a with
  | send payload =>
    simp only [Act.run, Channel.send]
    split
    · exact hnothing
    · exact send c _
  | take =>
    simp only [Act.run, Channel.take]
    split
    · exact modifyInbox c _ _
    · exact hnothing
  | mark => exact hnothing
  | remove => exact remove c _
  | tell =>
    simp only [Act.run]
    split
    · exact hnothing
    · exact send c _
  | drop => exact modifyInbox c _ _

end Trims

/-- Each line is the one under its number, and leads to the last channel with that number. -/
structure Inv (s : State) : Prop where
  made : s.link.inboxes.length = s.channels.length
  named : ∀ (k : Nat) (x : Hosted), s.channels[k]? = some x → x.channel.inbox = k
  found : ∀ e ∈ s.link.lines, s.link.line? e.1 = some e.2
  leads : ∀ e ∈ s.link.lines, ∃ k x, e.2 = .ready k ∧ s.channels[k]? = some x ∧
    x.channel.id = e.1 ∧ ∀ j y, k < j → s.channels[j]? = some y → y.channel.id ≠ e.1

namespace Inv

variable {s s' : State} {e : Event} {k : Nat} {x : Hosted}

theorem go_on (h : Inv s) {link : Connection} (htrims : Trims s.link link)
    (hx : s.channels[k]? = some x) {x' : Hosted} (hid : x'.channel.id = x.channel.id)
    (hinbox : x'.channel.inbox = x.channel.inbox) :
    Inv { link, channels := s.channels.set k x' } := by
  have hset : ∀ (j : Nat) (y : Hosted), (s.channels.set k x')[j]? = some y →
      ∃ z, s.channels[j]? = some z ∧
      y.channel.id = z.channel.id ∧ y.channel.inbox = z.channel.inbox := by
    intro j y hy
    rcases getElem?_set_cases hy with ⟨rfl, rfl⟩ | ⟨-, hy⟩
    · exact ⟨x, hx, hid, hinbox⟩
    · exact ⟨y, hy, rfl, rfl⟩
  refine ⟨?_, fun j y hy => ?_, htrims.found h.found, fun e he => ?_⟩
  · rw [htrims.inboxes, h.made, List.length_set]
  · obtain ⟨z, hz, -, hinbox⟩ := hset j y hy
    exact hinbox.trans (h.named j z hz)
  · obtain ⟨i, y, hready, hy, hnumber, hlast⟩ := h.leads e (htrims.lines e he)
    have hlast : ∀ j z, i < j → (s.channels.set k x')[j]? = some z → z.channel.id ≠ e.1 := by
      intro j z hij hz
      obtain ⟨w, hw, hid, -⟩ := hset j z hz
      exact hid ▸ hlast j w hij hw
    by_cases hik : k = i
    · subst hik
      obtain rfl := Option.some.inj (hx.symm.trans hy)
      exact ⟨k, x', hready, List.getElem?_set_self (List.getElem?_eq_some_iff.mp hx).1,
        hid.trans hnumber, hlast⟩
    · exact ⟨i, y, hready, (List.getElem?_set_ne hik).trans hy, hnumber, hlast⟩

theorem of_trims (h : Inv s) {link : Connection} (htrims : Trims s.link link) :
    Inv { s with link } where
  made := htrims.inboxes.trans h.made
  named := h.named
  found := htrims.found h.found
  leads e he := h.leads e (htrims.lines e he)

/-- A packet finds no line of a channel that is asked for from here. -/
theorem trims_route (h : Inv s) {p : Packet} {link : Connection}
    (hroute : s.link.route p = .ok link) : Trims s.link link := by
  have heffect := Connection.route_effect hroute
  generalize p.channel? = id? at heffect
  cases heffect with
  | nothing => exact .write s.link _ _
  | queued f _ => exact .modifyInbox s.link _ f
  | opened f hline =>
    obtain ⟨k, x, hready, -⟩ := h.leads _ (Connection.mem_of_line? hline)
    cases hready
  | rejected f _ => exact (Trims.remove s.link _).trans (.modifyInbox _ _ f)
  | removed id => exact .remove s.link id
  | ended => exact .shutdown s.link

theorem place (h : Inv s) (id : UInt32) (service : String) : Inv (s.place id service) where
  made := by simp [State.place, Connection.install, Connection.put, h.made]
  named k x hx := by
    rcases getElem?_snoc hx with hx | ⟨rfl, rfl⟩
    · exact h.named k x hx
    · exact h.made
  found := Connection.found_put h.found id _
  leads e he := by
    rcases Connection.mem_lines_put.mp he with rfl | ⟨he, hne⟩
    · refine ⟨s.link.inboxes.length, ⟨⟨id, service, s.link.inboxes.length, false⟩, .placed⟩,
        rfl, ?_, rfl, fun j y hj hy => ?_⟩
      · simp [State.place, Connection.install, h.made]
      · have hlt := (List.getElem?_eq_some_iff.mp hy).1
        rw [State.place, List.length_append, List.length_singleton] at hlt
        have := h.made
        omega
    · obtain ⟨k, x, hready, hx, hid, hlast⟩ := h.leads e he
      have hk := (List.getElem?_eq_some_iff.mp hx).1
      refine ⟨k, x, hready, (List.getElem?_append_left hk).trans hx, hid, fun j y hj hy => ?_⟩
      rcases getElem?_snoc hy with hy | ⟨-, rfl⟩
      · exact hlast j y hj hy
      · exact Ne.symm hne

theorem step (h : Inv s) (hs : Step s e s') : Inv s' := by
  cases hs with
  | place id service => exact h.place id service
  | @tell x link k hx hstage hsend =>
    have htrims := Trims.send s.link (.channelOpened x.channel.id)
    rw [hsend] at htrims
    exact h.go_on htrims hx rfl rfl
  | arrive p hroute => exact h.of_trims (h.trims_route hroute)
  | stop => exact h.of_trims (.shutdown s.link)
  | write sent writeFault => exact h.of_trims (.write s.link sent writeFault)
  | act k a hx ha => cases a <;> exact h.go_on (.run _ _ _) hx rfl rfl

end Inv

theorem Reachable.inv {s : State} (h : Reachable s) : Inv s := by
  obtain ⟨events, hrun⟩ := h
  induction hrun with
  | none => exact ⟨rfl, nofun, nofun, nofun⟩
  | more _ hs ih => exact ih.step hs

/-! ## What spares a channel -/

/-- The line under a number and an inbox are as they were, and the peer is not told that the channel
is closed. -/
structure Spared (c c' : Connection) (id : UInt32) (k : Nat) : Prop extends Same c c' id k where
  untold : c'.sent = c.sent ∨ ∃ p, p ≠ .closeChannel id ∧ c'.sent = c.sent ++ [p]

section

variable {c : Connection} {id : UInt32} {k : Nat}

theorem Spared.of_same {c' : Connection} (h : Same c c' id k) (hsent : c'.sent = c.sent) :
    Spared c c' id k :=
  { h with untold := .inl hsent }

theorem Spared.refl (c : Connection) (id : UInt32) (k : Nat) : Spared c c id k :=
  .of_same ⟨.refl c k, rfl, rfl⟩ rfl

theorem Spared.send {p : Packet} (hp : p ≠ .closeChannel id) : Spared c (c.send p).2 id k := by
  rcases c.send_cases p with h | h
  · rw [h]
    exact .refl c id k
  · rw [h]
    exact { Same.write c id k _ _ with untold := .inr ⟨p, hp, rfl⟩ }

/-- What is done to one channel spares another one, unless it is a step of closing that goes by the
number, and the number is the same. -/
theorem Act.spares {ch : Channel} (a : Act) (hinbox : ch.inbox ≠ k)
    (hid : ch.id ≠ id ∨ a ≠ .remove ∧ a ≠ .tell) : Spared c (a.run ch c) id k := by
  cases a with
  | send payload =>
    simp only [run, Channel.send]
    split
    · exact .refl c id k
    · exact .send nofun
  | take =>
    simp only [run, Channel.take]
    split
    · exact .of_same (.modifyInbox c id _ hinbox) rfl
    · exact .refl c id k
  | mark => exact .refl c id k
  | remove => exact .of_same (.remove c k (hid.resolve_right (by simp))) rfl
  | tell =>
    have hne : ch.id ≠ id := hid.resolve_right (by simp)
    simp only [run]
    split
    · exact .refl c id k
    · exact .send (by simpa using hne)
  | drop => exact .of_same (.modifyInbox c id _ hinbox) rfl

end

namespace Inv

variable {s : State} {k : Nat} {x : Hosted}

/-- A channel whose inbox can be reached is the last one with its number, and has the line. -/
theorem line_of_reaches (h : Inv s) (hx : s.channels[k]? = some x)
    (hlive : s.link.reaches k = true) :
    s.link.line? x.channel.id = some (.ready k) ∧
      ∀ (j : Nat) (y : Hosted), k < j → s.channels[j]? = some y → y.channel.id ≠ x.channel.id := by
  obtain ⟨e, he, hinbox⟩ := Connection.reaches_iff.mp hlive
  obtain ⟨i, y, hready, hy, hid, hlast⟩ := h.leads e he
  obtain rfl : i = k := by rw [← hinbox, hready, Line.inbox]
  obtain rfl := Option.some.inj (hx.symm.trans hy)
  rw [hid, ← hready]
  exact ⟨h.found e he, hlast⟩

theorem reaches_remove (h : Inv s) (hx : s.channels[k]? = some x) :
    (s.link.remove x.channel.id).reaches k = false := by
  rw [Bool.eq_false_iff, ne_eq, Connection.reaches_iff]
  rintro ⟨e, he, hinbox⟩
  obtain ⟨he, hne⟩ := Connection.mem_lines_remove.mp he
  obtain ⟨i, y, hready, hy, hid, -⟩ := h.leads e he
  obtain rfl : i = k := by rw [← hinbox, hready, Line.inbox]
  obtain rfl := Option.some.inj (hx.symm.trans hy)
  exact hne hid.symm

/-- A line under another number does not lead to the channel. -/
theorem inbox_ne_of_line? (h : Inv s) (hx : s.channels[k]? = some x) {id : UInt32} {l : Line}
    (hline : s.link.line? id = some l) (hne : id ≠ x.channel.id) : l.inbox ≠ k := by
  intro hinbox
  obtain ⟨i, y, rfl, hy, hid, -⟩ := h.leads _ (Connection.mem_of_line? hline)
  obtain rfl : i = k := hinbox
  obtain rfl := Option.some.inj (hx.symm.trans hy)
  exact hne hid.symm

end Inv

/-! ## How long a channel goes on -/

/-- Its holder has closed the channel, with all that belongs to it. -/
def Stage.Over (stage : Stage) : Prop := stage = .closed ∨ stage = .dropped

namespace Act

variable {a : Act} {x : Hosted}

theorem over_after (ha : a.Allowed x.stage) (h : x.stage.Over) : (a.after x).stage.Over := by
  cases a with
  | send | take => exact h
  | tell => exact .inl rfl
  | drop => exact .inr rfl
  | mark | remove =>
    rw [Stage.Over, show x.stage = _ from ha] at h
    exact h.elim nofun nofun

theorem not_allowed_remove {stage : Stage} (h : stage.Over) : ¬ Act.remove.Allowed stage := by
  rcases h with rfl | rfl <;> exact nofun

theorem line?_run {ch : Channel} {c : Connection} {id : UInt32} (h : a = .remove → ch.id ≠ id) :
    (a.run ch c).line? id = c.line? id := by
  cases a with
  | send payload =>
    simp only [run, Channel.send]
    split
    · rfl
    · have hspared : Spared c (c.send (.message ch.id payload)).2 id 0 := .send nofun
      exact hspared.line
  | take =>
    simp only [run, Channel.take]
    split <;> rfl
  | mark | drop => rfl
  | remove => exact Connection.line?_remove_of_ne (Ne.symm (h rfl)) c
  | tell =>
    obtain ⟨sent, hsent⟩ := c.exists_send_eq (.closeChannel ch.id)
    simp only [run, Connection.post, hsent]
    split <;> rfl

end Act

/-- What leaves the line of the channel `k` under this number: all but packets about the number,
another channel under it, the end of the connection, and that its own holder removes it. -/
def Event.Leaves (id : UInt32) (k : Nat) : Event → Prop
  | placed id' => id' ≠ id
  | arrived p => p.channel? ≠ some id
  | ended => False
  | did j a => j = k → a ≠ .remove
  | told _ | wrote => True

/-- The channel `k` is the one under this number, and all others that were are over. -/
structure Alone (s : State) (id : UInt32) (k : Nat) : Prop where
  line : s.link.line? id = some (.ready k)
  number : ∃ x, s.channels[k]? = some x ∧ x.channel.id = id
  others : ∀ (j : Nat) (y : Hosted), j ≠ k → s.channels[j]? = some y → y.channel.id = id →
    y.stage.Over

namespace Alone

variable {s s' : State} {id : UInt32} {k : Nat} {e : Event}

/-- One channel changes, and not its number. -/
theorem set (h : Alone s id k) {link : Connection} {j : Nat} {y y' : Hosted}
    (hline : link.line? id = s.link.line? id) (hy : s.channels[j]? = some y)
    (hid : y'.channel.id = y.channel.id) (hover : y.stage.Over → y'.stage.Over) :
    Alone { link, channels := s.channels.set j y' } id k := by
  refine ⟨hline.trans h.line, ?_, fun i z hi hz hzid => ?_⟩
  · obtain ⟨x, hx, hxid⟩ := h.number
    by_cases hjk : j = k
    · subst hjk
      obtain rfl := Option.some.inj (hx.symm.trans hy)
      exact ⟨y', List.getElem?_set_self (List.getElem?_eq_some_iff.mp hx).1, hid.trans hxid⟩
    · exact ⟨x, (List.getElem?_set_ne hjk).trans hx, hxid⟩
  · rcases getElem?_set_cases hz with ⟨rfl, rfl⟩ | ⟨-, hz⟩
    · exact hover (h.others i y hi hy (hid.symm.trans hzid))
    · exact h.others i z hi hz hzid

theorem step (h : Alone s id k) (hinv : Inv s) (hs : Step s e s') (he : e.Leaves id k) :
    Alone s' id k := by
  obtain ⟨x, hx, rfl⟩ := h.number
  cases hs with
  | place id' service =>
    refine ⟨(Connection.line?_put_of_ne (Ne.symm he) _ _).trans h.line, ?_, fun j y hj hy hid => ?_⟩
    · exact ⟨x, (List.getElem?_append_left (List.getElem?_eq_some_iff.mp hx).1).trans hx, rfl⟩
    · rcases getElem?_snoc hy with hy | ⟨-, rfl⟩
      · exact h.others j y hj hy hid
      · exact absurd hid he
  | @tell y link j hy hstage hsend =>
    have hspared : Spared s.link (s.link.send (.channelOpened y.channel.id)).2 x.channel.id k :=
      .send nofun
    rw [hsend] at hspared
    refine h.set hspared.line hy rfl ?_
    rw [hstage]
    exact fun hover => hover.elim nofun nofun
  | arrive p hroute =>
    have heffect := Connection.route_effect hroute
    cases hp : p.channel? with
    | none => cases p <;> first | (cases hroute; done) | cases hp
    | some id' =>
      have hne : id' ≠ x.channel.id := fun heq => he (heq ▸ hp)
      have hsame : Same s.link _ x.channel.id k := .of_effect (hp ▸ heffect) hne fun l hline =>
        hinv.inbox_ne_of_line? hx hline hne
      exact ⟨hsame.line.trans h.line, h.number, h.others⟩
  | stop => exact he.elim
  | write sent writeFault => exact ⟨h.line, h.number, h.others⟩
  | @act y j a hy ha =>
    have hid : (a.after y).channel.id = y.channel.id := by cases a <;> rfl
    refine h.set (Act.line?_run fun hremove heq => ?_) hy hid (Act.over_after ha)
    subst hremove
    have hj : j ≠ k := fun hj => he hj rfl
    exact Act.not_allowed_remove (h.others j y hj hy heq) ha

theorem run (h : Alone s id k) (hinv : Inv s) {events : List Event} (hrun : Run s events s')
    (hevents : ∀ e ∈ events, e.Leaves id k) : Alone s' id k := by
  suffices Alone s' id k ∧ Inv s' from this.1
  induction hrun with
  | none => exact ⟨h, hinv⟩
  | more _ hs ih =>
    obtain ⟨h, hinv⟩ := ih fun e he => hevents e (List.mem_append_left _ he)
    exact ⟨h.step hinv hs (hevents _ List.mem_concat_self), hinv.step hs⟩

end Alone

theorem sent_tell {ch : Channel} {c : Connection} (hclosed : c.closed = false)
    (hwritable : c.writeFault = none) :
    (Act.tell.run ch c).sent = c.sent ++ [.closeChannel ch.id] := by
  have hwritten : ∃ bytes, (Packet.closeChannel ch.id).written = .ok bytes := by
    simp [Packet.written, Packet.encode, Packet.encodeId, Wire.budget]
  obtain ⟨bytes, hwritten⟩ := hwritten
  simp only [Act.run, Connection.post, Connection.send, hclosed, hwritable, hwritten,
    Bool.false_eq_true, if_false]

/-- A channel that still can be reached is the one under its number.  What the holder of another
channel does spares it, but for the closing of a channel that was asked for earlier under the same
number: that takes the line, and tells the peer.  Once all other channels with the number are over,
it goes on until packets about its number end it, its holder closes it, or the connection ends. -/
theorem endings_by_number {s : State} (h : Reachable s) {k : Nat} {x : Hosted}
    (hx : s.channels[k]? = some x) (hlive : s.link.reaches k = true) :
    s.link.line? x.channel.id = some (.ready k) ∧
    (∀ (j : Nat) (y : Hosted) (a : Act), j ≠ k → s.channels[j]? = some y →
      Spared s.link (a.run y.channel s.link) x.channel.id k ∨
        j < k ∧ y.channel.id = x.channel.id ∧ (a = .remove ∨ a = .tell)) ∧
    (∀ (j : Nat) (y : Hosted), s.channels[j]? = some y → y.channel.id = x.channel.id →
      (Act.remove.run y.channel s.link).reaches k = false ∧
        (s.link.closed = false → s.link.writeFault = none →
          (Act.tell.run y.channel s.link).sent = s.link.sent ++ [.closeChannel x.channel.id])) ∧
    ((∀ (j : Nat) (y : Hosted), j ≠ k → s.channels[j]? = some y →
        y.channel.id = x.channel.id → y.stage.Over) →
      ∀ (events : List Event) (s' : State), Run s events s' →
        (∀ e ∈ events, e.Leaves x.channel.id k) →
        s'.link.line? x.channel.id = some (.ready k)) := by
  have hinv := h.inv
  obtain ⟨hline, hlast⟩ := hinv.line_of_reaches hx hlive
  refine ⟨hline, fun j y a hj hy => ?_, fun j y hy hid => ⟨?_, fun hclosed hwritable => ?_⟩,
    fun hothers events s' hrun hevents => ?_⟩
  · have hinbox : y.channel.inbox ≠ k := (hinv.named j y hy).symm ▸ hj
    by_cases hid : y.channel.id = x.channel.id
    · by_cases ha : a = .remove ∨ a = .tell
      · have hjk : j < k :=
          Nat.lt_of_le_of_ne (Nat.le_of_not_lt fun hkj => hlast j y hkj hy hid) hj
        exact .inr ⟨hjk, hid, ha⟩
      · exact .inl (a.spares hinbox (.inr (not_or.mp ha)))
    · exact .inl (a.spares hinbox (.inl hid))
  · rw [← hinv.reaches_remove hx, ← hid]
    rfl
  · rw [← hid]
    exact sent_tell hclosed hwritable
  · have halone : Alone s x.channel.id k := ⟨hline, ⟨x, hx, rfl⟩, hothers⟩
    exact (halone.run hinv hrun hevents).line

/-- Two channels under two numbers; while the first one is closed, a message arrives for it. -/
theorem endings_by_number_two :
    let naming : Hosted := ⟨⟨1, "naming", 0, false⟩, .held⟩
    let echo : Hosted := ⟨⟨2, "echo", 1, false⟩, .held⟩
    ∃ s s' : State, Reachable s ∧ s.channels = [naming, echo] ∧ s.link.reaches 1 = true ∧
      Spared s.link (Act.remove.run naming.channel s.link) 2 1 ∧
      Run s [.did 0 .mark, .did 0 .remove, .arrived (.message 1 [7]), .did 0 .tell] s' ∧
      s'.link.line? 1 = none ∧ s'.link.line? 2 = some (.ready 1) := by
  intro naming echo
  let s : State :=
    { link :=
        { lines := [(2, .ready 1), (1, .ready 0)]
          inboxes := [{}, {}]
          sent := [.channelOpened 1, .channelOpened 2] }
      channels := [naming, echo] }
  have hs := Run.none (s := {})
  have hs := hs.more (.place 1 "naming")
  have hs := hs.more (.tell 0 rfl rfl rfl)
  have hs := hs.more (.place 2 "echo")
  have hs := hs.more (.tell 1 rfl rfl rfl)
  have hs : Run {} [.placed 1, .told 0, .placed 2, .told 1] s := hs
  have hrun := Run.none (s := s)
  have hrun := hrun.more (.act 0 .mark rfl rfl)
  have hrun := hrun.more (.act 0 .remove rfl rfl)
  have hrun := hrun.more (.arrive (.message 1 [7]) rfl)
  have hrun := hrun.more (.act 0 .tell rfl rfl)
  obtain ⟨-, hspares, -, hgoes⟩ := endings_by_number (k := 1) (x := echo) ⟨_, hs⟩ rfl rfl
  have hothers : ∀ (j : Nat) (y : Hosted), j ≠ 1 → s.channels[j]? = some y →
      y.channel.id = 2 → y.stage.Over := by
    rintro (_ | _ | j) y hj hy hid
    · cases hy
      cases hid
    · exact absurd rfl hj
    · cases hy
  have hspared := (hspares 0 naming .remove (by decide) rfl).resolve_right
    fun h => absurd h.2.1 (by decide)
  have hline := hgoes hothers _ _ hrun (by simp [Event.Leaves, Packet.channel?, echo])
  exact ⟨s, _, ⟨_, hs⟩, rfl, rfl, hspared, hrun, rfl, hline⟩

/-- The peer asks for a second channel under the same number, and the holder of the first one closes
that: the second one loses its line, and the peer is told that it is closed.  Nobody closed it. -/
theorem earlier_ending_takes_line :
    let naming : Hosted := ⟨⟨1, "naming", 0, false⟩, .held⟩
    let echo : Hosted := ⟨⟨1, "echo", 1, false⟩, .held⟩
    ∃ s s' : State, Reachable s ∧ s.channels = [naming, echo] ∧
      s.link.line? 1 = some (.ready 1) ∧
      Run s [.did 0 .mark, .did 0 .remove, .did 0 .tell] s' ∧
      s'.channels[1]? = some echo ∧ s'.link.line? 1 = none ∧ s'.link.reaches 1 = false ∧
      s'.link.sent = s.link.sent ++ [.closeChannel 1] := by
  intro naming echo
  let s : State :=
    { link :=
        { lines := [(1, .ready 1)]
          inboxes := [{}, {}]
          sent := [.channelOpened 1, .channelOpened 1] }
      channels := [naming, echo] }
  have hs := Run.none (s := {})
  have hs := hs.more (.place 1 "naming")
  have hs := hs.more (.tell 0 rfl rfl rfl)
  have hs := hs.more (.arrive (.closeChannel 1) rfl)
  have hs := hs.more (.place 1 "echo")
  have hs := hs.more (.tell 1 rfl rfl rfl)
  have hs : Run {} [.placed 1, .told 0, .arrived (.closeChannel 1), .placed 1, .told 1] s := hs
  have hrun := Run.none (s := s)
  have hrun := hrun.more (.act 0 .mark rfl rfl)
  have hrun := hrun.more (.act 0 .remove rfl rfl)
  have hrun := hrun.more (.act 0 .tell rfl rfl)
  exact ⟨s, _, ⟨_, hs⟩, rfl, rfl, hrun, rfl, rfl, rfl, rfl⟩

/-! ## Peers of a listener -/

/-- What a handler holds. -/
def hosted (h : Handler) : Hosted :=
  ⟨h.channel, if h.progress = .finished then .dropped else .held⟩

/-- A handler that goes on has not closed its channel. -/
def Sound (h : Handler) : Prop := h.progress ≠ .finished → h.channel.closed = false

section

variable {c : Connection} {before after : List Hosted} {x : Hosted} {h : Handler}

theorem Reachable.step {s s' : State} {e : Event} (h : Reachable s) (hs : Step s e s') :
    Reachable s' := by
  obtain ⟨events, hrun⟩ := h
  exact ⟨_, hrun.more hs⟩

theorem Reachable.act (hr : Reachable ⟨c, before ++ x :: after⟩) {a : Act}
    (ha : a.Allowed x.stage) : Reachable ⟨a.run x.channel c, before ++ a.after x :: after⟩ := by
  have hx : (before ++ x :: after)[before.length]? = some x := by simp
  have hstep := Step.act (s := ⟨c, before ++ x :: after⟩) before.length a hx ha
  have hset : (before ++ x :: after).set before.length (a.after x) =
      before ++ a.after x :: after := by simp
  rw [← hset]
  exact hr.step hstep

theorem Reachable.tell {ch : Channel} {c' : Connection}
    (hr : Reachable ⟨c, before ++ ⟨ch, .placed⟩ :: after⟩)
    (hsend : c.send (.channelOpened ch.id) = (.ok (), c')) :
    Reachable ⟨c', before ++ ⟨ch, .held⟩ :: after⟩ := by
  have hx : (before ++ ⟨ch, .placed⟩ :: after)[before.length]? = some ⟨ch, .placed⟩ := by simp
  have hstep := Step.tell (s := ⟨c, before ++ ⟨ch, .placed⟩ :: after⟩) before.length hx rfl hsend
  have hset : (before ++ ⟨ch, .placed⟩ :: after).set before.length ⟨ch, .held⟩ =
      before ++ ⟨ch, .held⟩ :: after := by simp
  rw [← hset]
  exact hr.step hstep

theorem Reachable.write {channels : List Hosted} (hr : Reachable ⟨c, channels⟩) (p : Packet) :
    Reachable ⟨(c.send p).2, channels⟩ := by
  obtain ⟨sent, hsent⟩ := c.exists_send_eq p
  rw [hsent]
  exact hr.step (.write sent _)

theorem hosted_of_going (h' : h.progress ≠ .finished) : hosted h = ⟨h.channel, .held⟩ := by
  rw [hosted, if_neg h']

theorem Reachable.finish (hr : Reachable ⟨c, before ++ hosted h :: after⟩)
    (hgoing : h.progress ≠ .finished) (hsound : Sound h) :
    Reachable ⟨(h.finish c).2, before ++ hosted (h.finish c).1 :: after⟩ ∧
      Sound (h.finish c).1 := by
  refine ⟨?_, fun hne => absurd rfl hne⟩
  rw [hosted_of_going hgoing] at hr
  have hr := hr.act (a := .mark) rfl
  have hr := hr.act (a := .remove) rfl
  have hr := hr.act (a := .tell) rfl
  have hr := hr.act (a := .drop) rfl
  have hclose : h.channel.close c =
      ({ h.channel with closed := true },
        Act.tell.run h.channel (Act.remove.run h.channel c)) := by
    unfold Channel.close
    rw [if_neg (by simp [hsound hgoing])]
    rfl
  simp only [Handler.finish, Channel.drop, hclose]
  exact hr

theorem next_cases (h : Handler) (c : Connection) :
    h.progress = .finished ∧ h.next c = (.idle, c) ∨
      h.progress ≠ .finished ∧ (h.next c).2 = (h.channel.take c).2 := by
  unfold Handler.next
  cases hprogress : h.progress with
  | finished => exact .inl ⟨rfl, rfl⟩
  | greeting | serving =>
    refine .inr ⟨nofun, ?_⟩
    rcases h.channel.take c with ⟨_ | _ | _, c'⟩ <;> rfl

theorem Reachable.work (hr : Reachable ⟨c, before ++ hosted h :: after⟩)
    (hgoing : h.progress ≠ .finished) (m : Bytes) (t : Tree) :
    Reachable ⟨(h.service.work h.channel m t c).2, before ++ hosted h :: after⟩ := by
  have hsend : ∀ payload,
      Reachable ⟨(h.channel.send payload c).2, before ++ hosted h :: after⟩ := by
    intro payload
    rw [hosted_of_going hgoing] at hr ⊢
    exact hr.act (Act.allowed_send payload)
  cases h.service with
  | naming =>
    simp only [Service.work]
    split
    · exact hsend _
    · exact hr
  | silent => exact hr
  | echo => exact hsend m

/-- What a handler does on its own is done to its channel. -/
theorem Reachable.run_handler (fuel : Nat) (t : Tree)
    (hr : Reachable ⟨c, before ++ hosted h :: after⟩) (hsound : Sound h) :
    Reachable ⟨(Handler.run fuel h t c).2.2, before ++ hosted (Handler.run fuel h t c).1 :: after⟩ ∧
      Sound (Handler.run fuel h t c).1 := by
  induction fuel generalizing h t c with
  | zero => exact ⟨hr, hsound⟩
  | succ fuel ih =>
    unfold Handler.run
    rcases next_cases h c with ⟨-, hidle⟩ | ⟨hgoing, htake⟩
    · rw [hidle]
      exact ⟨hr, hsound⟩
    have hr' := hr
    rw [hosted_of_going hgoing] at hr'
    have hr' := hr'.act Act.allowed_take
    rw [Act.run, ← htake, Act.after, ← hosted_of_going hgoing] at hr'
    generalize h.next c = next at hr'
    obtain ⟨_ | _ | m | _, c'⟩ := next
    · exact ⟨hr', hsound⟩
    · have hserving : hosted { h with progress := .serving } = hosted h := by
        rw [hosted_of_going hgoing]
        rfl
      rw [← hserving] at hr'
      exact ih t hr' fun _ => hsound hgoing
    · exact ih _ (hr'.work hgoing m t) hsound
    · exact hr'.finish hgoing hsound

theorem Reachable.start_handler {ch : Channel} (service : Service)
    (hr : Reachable ⟨c, before ++ ⟨ch, .held⟩ :: after⟩) (hopen : ch.closed = false) :
    Reachable ⟨(Handler.start service ch c).2,
        before ++ hosted (Handler.start service ch c).1 :: after⟩ ∧
      Sound (Handler.start service ch c).1 := by
  have hgreets : ∀ c, Reachable ⟨c, before ++ ⟨ch, .held⟩ :: after⟩ →
      Reachable ⟨(Handler.finish ⟨service, ch, .greeting⟩ c).2,
          before ++ hosted (Handler.finish ⟨service, ch, .greeting⟩ c).1 :: after⟩ ∧
        Sound (Handler.finish ⟨service, ch, .greeting⟩ c).1 := fun c hr =>
    Reachable.finish (h := ⟨service, ch, .greeting⟩) hr nofun fun _ => hopen
  unfold Handler.start
  split
  · exact ⟨hr, fun _ => hopen⟩
  split
  · exact hgreets c hr
  next offer _ =>
  have hsent := hr.act (Act.allowed_send offer)
  simp only [Act.run, Act.after] at hsent
  generalize ch.send offer c = sent at hsent
  obtain ⟨_ | _, c'⟩ := sent
  · exact hgreets c' hsent
  · exact ⟨hsent, fun _ => hopen⟩

end

/-- The connection of a peer and the channels of its handlers are as some run leaves them.  There
may be a channel more without a handler, if the peer is gone. -/
structure Explained (p : Peer) : Prop where
  sound : ∀ h ∈ p.handlers, Sound h
  reachable : ∃ rest, Reachable ⟨p.connection, p.handlers.map hosted ++ rest⟩ ∧
    (p.standing ≠ .gone → rest = [])

namespace Explained

variable {p : Peer}

theorem leave (h : Explained p) : Explained p.leave := by
  obtain ⟨rest, hr, -⟩ := h.reachable
  exact ⟨h.sound, rest, hr.step .stop, fun hne => absurd rfl hne⟩

theorem write (h : Explained p) (packet : Packet) :
    Explained { p with connection := (p.connection.send packet).2 } := by
  obtain ⟨rest, hr, hwhole⟩ := h.reachable
  exact ⟨h.sound, rest, hr.write packet, hwhole⟩

theorem standing (h : Explained p) (hp : p.standing ≠ .gone) (standing : Standing) :
    Explained { p with standing } := by
  obtain ⟨rest, hr, hwhole⟩ := h.reachable
  exact ⟨h.sound, rest, hr, fun _ => hwhole hp⟩

theorem greet (h : Explained p) (hp : p.standing ≠ .gone) (g : Gatekeeper) (first : Packet) :
    Explained (p.greet g first) := by
  unfold Peer.greet
  split
  · split
    · have hwrite := h.write .authenticated
      generalize p.connection.send .authenticated = sent at hwrite
      obtain ⟨_ | _, c⟩ := sent
      · exact hwrite.leave
      · exact hwrite.standing hp .admitted
    · exact (h.write _).leave
  · exact h.leave

theorem openChannel (h : Explained p) (hp : p.standing ≠ .gone)
    (services : List (String × Service)) (id : UInt32) (name : String) :
    Explained (p.openChannel services id name) := by
  unfold Peer.openChannel
  split
  · have hwrite := h.write (.channelRejected id ("unknown service '" ++ name ++ "'"))
    generalize p.connection.send _ = sent at hwrite
    obtain ⟨_ | _, c⟩ := sent
    · exact hwrite.leave
    · exact hwrite
  next service _ =>
  obtain ⟨rest, hr, hwhole⟩ := h.reachable
  obtain rfl := hwhole hp
  rw [List.append_nil] at hr
  have hplaced : Reachable ⟨(p.connection.install id .ready).2, p.handlers.map hosted ++
      [⟨⟨id, name, (p.connection.install id .ready).1, false⟩, .placed⟩]⟩ :=
    hr.step (.place id name)
  generalize p.connection.install id .ready = installed at hplaced
  obtain ⟨inbox, c⟩ := installed
  dsimp only at hplaced ⊢
  have hwritten := hplaced.write (.channelOpened id)
  cases hsend : c.send (.channelOpened id) with
  | mk result c' =>
    cases result with
    | error fault =>
      rw [hsend] at hwritten
      exact ⟨h.sound, _, hwritten.step .stop, fun hne => absurd rfl hne⟩
    | ok =>
      obtain ⟨hstarted, hsound⟩ := Reachable.start_handler service (hplaced.tell hsend) rfl
      refine ⟨fun h' hh' => ?_, [], ?_, fun _ => rfl⟩
      · rcases List.mem_append.mp hh' with hh' | hh'
        · exact h.sound h' hh'
        · obtain rfl := List.mem_singleton.mp hh'
          exact hsound
      · rw [List.map_append, List.append_nil]
        exact hstarted

theorem arrive (h : Explained p) (g : Gatekeeper) (services : List (String × Service))
    (packet : Packet) : Explained (p.arrive g services packet) := by
  unfold Peer.arrive
  split
  · next hp => exact h.greet (by simp [hp]) g packet
  · next hp =>
    have hp : p.standing ≠ .gone := by simp [hp]
    unfold Peer.read
    split
    · exact h.openChannel hp services _ _
    · split
      · next hroute =>
        obtain ⟨rest, hr, hwhole⟩ := h.reachable
        exact ⟨h.sound, rest, hr.step (.arrive _ hroute), hwhole⟩
      · exact h.leave
  · exact h
  · exact h

theorem catchUp (h : Explained p) (t : Tree) : Explained (p.catchUp t).2 := by
  obtain ⟨rest, hr, hwhole⟩ := h.reachable
  -- the handlers that have worked come before those that have not
  suffices ∀ (handlers done : List Handler) (t : Tree) (c : Connection),
      Reachable ⟨c, done.map hosted ++ (handlers.map hosted ++ rest)⟩ →
      (∀ h ∈ done, Sound h) → (∀ h ∈ handlers, Sound h) →
      let worked := handlers.foldl (fun x h =>
        ((h.catchUp x.1 x.2.1).2.1, (h.catchUp x.1 x.2.1).2.2,
          x.2.2 ++ [(h.catchUp x.1 x.2.1).1])) (t, c, done)
      Reachable ⟨worked.2.1, worked.2.2.map hosted ++ rest⟩ ∧ ∀ h ∈ worked.2.2, Sound h by
    obtain ⟨hworked, hsound⟩ := this p.handlers [] t p.connection hr (by simp) h.sound
    exact ⟨hsound, rest, hworked, hwhole⟩
  intro handlers
  induction handlers with
  | nil => exact fun done t c hr hdone _ => ⟨hr, hdone⟩
  | cons handler handlers ih =>
    intro done t c hr hdone hhandlers
    obtain ⟨hsound, hhandlers⟩ := List.forall_mem_cons.mp hhandlers
    obtain ⟨hr, hsound⟩ := Reachable.run_handler (handler.steps c) t hr hsound
    refine ih _ _ _ ?_ ?_ hhandlers
    · rw [List.map_append, List.append_assoc]
      exact hr
    · exact List.forall_mem_append.mpr ⟨hdone, List.forall_mem_singleton.mpr hsound⟩

end Explained

/-- Whatever happens at a listener, every peer is one whose channels some run explains. -/
theorem explained_run {l : Listener} (hl : l.peers = []) (events : List Listener.Event) :
    ∀ p ∈ (l.run events).peers, Explained p := by
  refine Listener.Kept.run ?_ (by simp [hl]) events
  constructor
  case new => exact ⟨by simp, [], ⟨[], .none⟩, fun _ => rfl⟩
  case arrive => exact fun p g services packet h => h.arrive g services packet
  case leave => exact fun p h => h.leave
  case register => exact fun p h hp => h.standing (by simp [hp]) .registered
  case work => exact fun p t h => h.catchUp t

/-- A peer that was let in opens a channel, closes it, and opens another one under the same number,
before the handler of the first one stops.  Both handlers stop then, and what the peer sends on the
second channel is lost. -/
theorem served_peer_loses_channel :
    let start : Listener :=
      { gatekeeper := .everyone
        services := [("naming", .naming), ("echo", .echo)]
        tree := .empty }
    let opened := start.run
      [.connect, .packet 0 (.authenticate ⟨"ANONYMOUS", "", "", ""⟩), .register 0,
        .packet 0 (.openChannel 1 "naming" []), .packet 0 (.closeChannel 1),
        .packet 0 (.openChannel 1 "echo" [])]
    let worked := opened.run [.work 0]
    let asked := worked.run [.packet 0 (.message 1 [7]), .work 0]
    opened.peers.map (·.connection.line? 1) = [some (.ready 1)] ∧
      worked.peers.map (·.connection.line? 1) = [none] ∧
      worked.peers.map (·.handlers.map (·.channel.closed)) = [[true, true]] ∧
      asked.peers.map (·.connection.sent) = worked.peers.map (·.connection.sent) := by
  decide +kernel

end Hosting

end NameDirectory
