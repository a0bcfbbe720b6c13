import NameDirectory.Destination
import NameDirectory.Packet

/-!
# Connections and their channels

Both ends of a connection keep a line for every channel they know of, under the
number that packets name it by.  A line leads to an inbox, in which messages wait in
the order of their arrival.  An inbox outlives its line, so messages that arrived can
still be taken; a line put under a number that was used before leads elsewhere.

What is written stands in `sent` until it is carried to the peer.
-/

namespace NameDirectory

structure Inbox where
  waiting : List Bytes := []
  /-- Whether somebody can still take them. -/
  held : Bool := true
  /-- How the peer answered the opening of the channel, until that is noticed. -/
  answer : Option (Except TransportFault Unit) := none

/-- What a channel number stands for; inboxes are known by their index. -/
inductive Line where
  | opening (service : String) (inbox : Nat)
  | ready (inbox : Nat)
  deriving DecidableEq, Repr

def Line.inbox : Line → Nat
  | opening _ inbox => inbox
  | ready inbox => inbox

structure Connection where
  lines : List (UInt32 × Line) := []
  inboxes : List Inbox := []
  nextId : UInt32 := 1
  closed : Bool := false
  /-- What was written, the first first. -/
  sent : List Packet := []
  /-- What writing fails with, once the peer is gone. -/
  writeFault : Option StreamFault := none

structure Channel where
  id : UInt32
  service : String
  inbox : Nat
  closed : Bool := false
  deriving DecidableEq, Repr

namespace Connection

/-! ## Lines and inboxes -/

def line? (c : Connection) (id : UInt32) : Option Line :=
  (c.lines.find? (·.1 = id)).map (·.2)

def remove (c : Connection) (id : UInt32) : Connection :=
  { c with lines := c.lines.filter (·.1 ≠ id) }

/-- Put a line under a number, in place of the one there. -/
def put (c : Connection) (id : UInt32) (l : Line) : Connection :=
  { c with lines := (id, l) :: (c.remove id).lines }

/-- Whether a line leads to an inbox, so that messages may still arrive there. -/
def reaches (c : Connection) (inbox : Nat) : Bool := c.lines.any (·.2.inbox = inbox)

@[simp] theorem line?_remove_self (c : Connection) (id : UInt32) : (c.remove id).line? id = none := by
  simp [line?, remove]

theorem line?_remove_of_ne {id id' : UInt32} (h : id' ≠ id) (c : Connection) :
    (c.remove id).line? id' = c.line? id' := by
  simp only [line?, remove, List.find?_filter]
  congr 2; funext a; grind

@[simp] theorem line?_put_self (c : Connection) (id : UInt32) (l : Line) :
    (c.put id l).line? id = some l := by
  simp [line?, put]

theorem line?_put_of_ne {id id' : UInt32} (h : id' ≠ id) (c : Connection) (l : Line) :
    (c.put id l).line? id' = c.line? id' := by
  rw [← line?_remove_of_ne h c]
  simp [line?, put, h.symm]

def inbox? (c : Connection) (i : Nat) : Option Inbox := c.inboxes[i]?

def modifyInbox (c : Connection) (i : Nat) (f : Inbox → Inbox) : Connection :=
  { c with inboxes := c.inboxes.modify i f }

def install (c : Connection) (id : UInt32) (line : Nat → Line) : Nat × Connection :=
  let i := c.inboxes.length
  (i, { c with inboxes := c.inboxes ++ [({} : Inbox)] }.put id (line i))

/-- Give up an inbox: what arrives for it from now on finds nobody. -/
def abandon (c : Connection) (i : Nat) : Connection :=
  c.modifyInbox i fun b => { b with held := false }

/-! ## Writing and closing -/

/-- Write a packet, unless the connection is closed or the packet too large. -/
def send (c : Connection) (p : Packet) : Except TransportFault Unit × Connection :=
  if c.closed then (.error .connectionClosed, c)
  else match p.written, c.writeFault with
    | .error fault, _ => (.error fault, c)
    | .ok _, some fault => (.error (.stream fault), c)
    | .ok _, none => (.ok (), { c with sent := c.sent ++ [p] })

def post (c : Connection) (p : Packet) : Connection := (c.send p).2

def shutdown (c : Connection) : Connection := { c with closed := true, lines := [] }

/-! ## Packets that arrive -/

def deliver (c : Connection) (id : UInt32) (payload : Bytes) : Connection :=
  match c.line? id with
  | some (.ready i) =>
    if ((c.inbox? i).map (·.held)).getD false then
      c.modifyInbox i fun b => { b with waiting := b.waiting ++ [payload] }
    else c.remove id
  | _ => c

def channelOpened (c : Connection) (id : UInt32) : Connection :=
  match c.line? id with
  | some (.opening _ i) =>
    (c.put id (.ready i)).modifyInbox i fun b => { b with answer := some (.ok ()) }
  | _ => c

/-- The peer refused a channel; a line under its number is removed in any case. -/
def channelRejected (c : Connection) (id : UInt32) (reason : String) : Connection :=
  match c.line? id with
  | some (.opening service i) =>
    (c.remove id).modifyInbox i fun b =>
      { b with answer := some (.error (.channelRejected service reason)) }
  | _ => c.remove id

def route (c : Connection) : Packet → Except Violation Connection
  | .message id payload => .ok (c.deliver id payload)
  | .closeChannel id => .ok (c.remove id)
  | .channelOpened id => .ok (c.channelOpened id)
  | .channelRejected id reason => .ok (c.channelRejected id reason)
  | .openChannel .. => .error .unaskedChannel
  | p => .error (.unexpectedPacket p.kind)

/-- A packet from the server: one that breaks the rules ends the connection. -/
def arrive (c : Connection) (p : Packet) : Connection :=
  if c.closed then c
  else match c.route p with
    | .ok c => c
    | .error _ => c.shutdown

def admission (mechanism : String) : Packet → Except TransportFault Unit
  | .authenticated => .ok ()
  | .rejected reason => .error (.authentication mechanism reason)
  | p => .error (.violation (.unexpectedOutcome p.kind))

/-! ## Opening a channel from here -/

/-- Take the next number and put a line under it, before the peer is asked. -/
def beginOpening (c : Connection) (service : String) : Channel × Connection :=
  let id := c.nextId
  let (inbox, c) := { c with nextId := id + 1 }.install id (.opening service)
  (⟨id, service, inbox, false⟩, c)

def askToOpen (c : Connection) (ch : Channel) (options : Options) :
    Except TransportFault Unit × Connection :=
  match c.send (.openChannel ch.id ch.service options) with
  | (.error fault, c) => (.error fault, c.abandon ch.inbox)
  | asked => asked

/-- What came of asking: the peer's answer, or the end of the line; none while neither came. -/
def openingOutcome? (c : Connection) (ch : Channel) : Option (Except TransportFault Unit) :=
  match (c.inbox? ch.inbox).bind (·.answer) with
  | some answer => some answer
  | none => if c.reaches ch.inbox then none else some (.error .connectionClosed)

def giveUpOpening (c : Connection) (ch : Channel) (after : Span) : TransportFault × Connection :=
  (.timeout after .channelOpen,
    ((c.remove ch.id).post (.closeChannel ch.id)).abandon ch.inbox)

/-- Stop waiting, with the outcome if there is one. -/
def finishOpening (c : Connection) (ch : Channel) (after : Span) :
    Except TransportFault Channel × Connection :=
  match c.openingOutcome? ch with
  | some (.ok ()) => (.ok ch, c)
  | some (.error fault) => (.error fault, c.abandon ch.inbox)
  | none =>
    let (fault, c) := c.giveUpOpening ch after
    (.error fault, c)

end Connection

/-! ## Open channels -/

namespace Channel

def isClosed (ch : Channel) (c : Connection) : Bool := ch.closed || c.closed

def send (ch : Channel) (payload : Bytes) (c : Connection) :
    Except TransportFault Unit × Connection :=
  if ch.closed then (.error .channelClosed, c) else c.send (.message ch.id payload)

/-- Take the next message; none while there is none but one may come. -/
def take (ch : Channel) (c : Connection) : Option (Except TransportFault Bytes) × Connection :=
  match ((c.inbox? ch.inbox).map (·.waiting)).getD [] with
  | m :: rest => (some (.ok m), c.modifyInbox ch.inbox fun b => { b with waiting := rest })
  | [] => (if c.reaches ch.inbox then none else some (.error .channelClosed), c)

def takeWithin (ch : Channel) (after : Span) (c : Connection) :
    Except TransportFault Bytes × Connection :=
  match ch.take c with
  | (some r, c) => (r, c)
  | (none, c) => (.error (.timeout after .message), c)

/-- Close the channel and tell the peer, the first time.  The line that is removed is the one
under the channel's number. -/
def close (ch : Channel) (c : Connection) : Channel × Connection :=
  if ch.closed then (ch, c)
  else
    let c := c.remove ch.id
    ({ ch with closed := true }, if c.closed then c else c.post (.closeChannel ch.id))

def drop (ch : Channel) (c : Connection) : Connection :=
  let (ch, c) := ch.close c
  c.abandon ch.inbox

end Channel

end NameDirectory
