import NameDirectory.Connection
import NameDirectory.Exchange
import NameDirectory.Greeting
import NameDirectory.InFlight

/-!
# The client's end of a naming channel

A proxy sends requests on its channel and gives every response to the request with its
number.  Sending a request, filing a response and the end of the channel are single
steps, which callers on their own may make in any order.  A reservation is made before
the mark of a lost channel is looked at, so a request is either failed with all others
that wait when the channel ends, or sees the mark.
-/

namespace NameDirectory

/-! ## Arguments -/

inductive Parameter where
  | name (n : Name)
  | object (o : Object)
  deriving DecidableEq, Repr

def Request.ofParameters : Operation → List Parameter → Except ClientFault Request
  | .lookup, [.name n] => .ok (.lookup n)
  | .list, [.name n] => .ok (.list n)
  | .listBindings, [.name n] => .ok (.listBindings n)
  | .unbind, [.name n] => .ok (.unbind n)
  | .createSubcontext, [.name n] => .ok (.createSubcontext n)
  | .destroySubcontext, [.name n] => .ok (.destroySubcontext n)
  | .lookupLink, [.name n] => .ok (.lookupLink n)
  | .bind, [.name n, .object o] => .ok (.bind n o)
  | .rebind, [.name n, .object o] => .ok (.rebind n o)
  | .rename, [.name n, .name m] => .ok (.rename n m)
  | .bind, _ => .error (.argument .bind "requires a name and an object argument")
  | .rebind, _ => .error (.argument .rebind "requires a name and an object argument")
  | .rename, _ => .error (.argument .rename "requires two name arguments")
  | op, _ => .error (.argument op "requires a single name argument")

/-- Whether a reply is of the kind that an operation gives; where nothing is expected, any is. -/
def Operation.expects : Operation → Reply → Bool
  | .lookup, .entry _ | .lookupLink, .entry _ => true
  | .lookup, _ | .lookupLink, _ => false
  | .list, .pairs _ => true
  | .list, _ => false
  | .listBindings, .bindings _ => true
  | .listBindings, _ => false
  | .createSubcontext, .entry (.context _) => true
  | .createSubcontext, _ => false
  | .bind, _ | .rebind, _ | .unbind, _ | .rename, _ | .destroySubcontext, _ => true

def Operation.conclude (op : Operation) : Outcome → Outcome
  | .error fault => .error fault
  | .ok reply =>
    if op.expects reply then .ok reply
    else .error (.transport (.violation (.unexpectedReply op reply)))

/-! ## Proxies -/

structure Proxy where
  channel : Channel
  table : InFlight := {}
  patience : Span
  closed : Bool := false
  lost : Bool := false

namespace Proxy

/-- Greet on a channel: take the offer, send the choice, and have a marshaller for it.  A channel on
which that fails is closed. -/
def greet (ch : Channel) (offerWithin patience : Span) (c : Connection) :
    Except TransportFault Proxy × Connection :=
  let attempt : Except TransportFault Unit × Connection :=
    match ch.takeWithin offerWithin c with
    | (.error fault, c) => (.error fault, c)
    | (.ok offer, c) =>
      match Greeting.answerOffer offer with
      | .error fault => (.error fault, c)
      | .ok (version, choice) =>
        match ch.send choice c, Greeting.marshaller? version with
        | (.ok (), c), none => (.error (.unsupportedVersion [version]), c)
        | sent, _ => sent
  match attempt with
  | (.ok (), c) => (.ok { channel := ch, patience }, c)
  | (.error fault, c) => (.error fault, ch.drop c)

/-! ### Requests -/

/-- Take a number for a request, the proxy having been found open. -/
def allot (p : Proxy) (r : Request) : Reservation × Proxy :=
  ((p.table.reserve r.captured?).1, { p with table := (p.table.reserve r.captured?).2 })

def reserve (p : Proxy) (r : Request) : Except ClientFault Reservation × Proxy :=
  if p.closed then (.error .closed, p) else (.ok (p.allot r).1, (p.allot r).2)

/-- Write the frame of a request, the channel not having been found lost. -/
def transmit (p : Proxy) (v : Reservation) (r : Request) (c : Connection) :
    Except TransportFault Unit × Connection :=
  p.channel.send (r.encode v.number) c

/-- Send a request under its number, unless the channel is known to have ended. -/
def send (p : Proxy) (v : Reservation) (r : Request) (c : Connection) :
    Except TransportFault Unit × Connection :=
  if p.lost then (.error .channelClosed, c) else p.transmit v r c

def release (p : Proxy) (v : Reservation) : Proxy := { p with table := p.table.drop v }

/-- Look for the outcome of a request; one that can no longer come is that of a lost channel. -/
def outcome? (p : Proxy) (v : Reservation) : Option Outcome × Proxy :=
  match p.table.receive v with
  | (.outcome o, table) => (some o, { p with table })
  | (.disconnected, table) => (some (.error (.transport .channelClosed)), { p with table })
  | (.empty, table) => (none, { p with table })

/-! ### Responses -/

structure Filing where
  header : Header
  operation : Operation
  body : Bytes
  deriving DecidableEq, Repr

def Filing.ofMessage? (message : Bytes) : Option Filing :=
  match Frame.Reader.header.on message with
  | (.error _, _) => none
  | (.ok header, body) => (Operation.ofCode? header.code).map (⟨header, ·, body⟩)

/-- Give a response to the request with its number, read as its own header says. -/
def file (p : Proxy) (f : Filing) : Proxy :=
  let outcome captured := (Outcome.decode f.operation captured f.body).1
  { p with table := (p.table.complete f.header.number outcome).2 }

/-- The channel ended: first the mark is set, -/
def markLost (p : Proxy) : Proxy := { p with lost := true }

/-- then all requests that wait fail. -/
def failWaiting (p : Proxy) : Proxy :=
  { p with table := p.table.failAll (.transport .channelClosed) }

/-- Take messages off the channel and file them, for at most `fuel` steps. -/
def pump : Nat → Proxy → Connection → Proxy × Connection
  | 0, p, c => (p, c)
  | fuel + 1, p, c =>
    match p.channel.take c with
    | (none, c) => (p, c)
    | (some (.error _), c) => (if p.lost then p else p.markLost.failWaiting, c)
    | (some (.ok m), c) =>
      match Filing.ofMessage? m with
      | none => pump fuel p c
      | some f => pump fuel (p.file f) c

def catchUp (p : Proxy) (c : Connection) : Proxy × Connection :=
  pump (((c.inbox? p.channel.inbox).map (·.waiting.length)).getD 0 + 1) p c

def close (p : Proxy) (c : Connection) : Proxy × Connection :=
  if p.closed then (p, c)
  else
    let (channel, c) := p.channel.close c
    ({ p with closed := true, channel }, c)

end Proxy

end NameDirectory
