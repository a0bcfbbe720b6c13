import NameDirectory.Connection
import NameDirectory.Exchange
import NameDirectory.Greeting
import NameDirectory.Tree

/-!
# Services on channels

A request is answered with one frame that repeats its header, or not at all: if
the header is incomplete, the operation is unknown, or the request cannot be read
and its number says that nobody waits.

A service works on one channel at a time of every peer that opened one, each in a
handler of its own.  A handler takes the messages of its channel one by one until
the channel ends; what it does for one message is a step of its own, so that several
messages of a channel may be under work at once.
-/

namespace NameDirectory

/-! ## Requests -/

def internalFailure (h : Header) (fault : TransportFault) : Bytes :=
  Frame.writeHeader h ++
    Frame.failure :: Frame.writeValue .exception (.fault (.internal fault.message))

/-- What is sent when a request fails for a reason other than the directory's. -/
def failed (h : Header) (fault : TransportFault) : Option Bytes :=
  if h.number = 0 then none else some (internalFailure h fault)

def Tree.serveBody (t : Tree) (h : Header) (op : Operation) (body : Bytes) :
    Option Bytes × Tree :=
  match ((Request.read op).on body).1 with
  | .error fault => (failed h fault, t)
  | .ok request =>
    let (result, t') := t.serve request
    match writeOutcome op result with
    | .ok outcome => (some (Frame.writeHeader h ++ outcome), t')
    | .error fault => (failed h fault, t')

def Tree.dispatch (t : Tree) (message : Bytes) : Option Bytes × Tree :=
  match Frame.Reader.header.on message with
  | (.error _, _) => (none, t)
  | (.ok h, body) =>
    match Operation.ofCode? h.code with
    | none => (none, t)
    | some op => t.serveBody h op body

/-! ## Services -/

inductive Service where
  | naming
  /-- Greets like the directory, then answers nothing. -/
  | silent
  | echo
  deriving DecidableEq, Repr

namespace Service

def greets : Service → Bool
  | echo => false
  | _ => true

/-- What a service does for one message of a channel, in whatever order messages are worked on;
that a response cannot be sent is not noticed. -/
def work (s : Service) (ch : Channel) (message : Bytes) (t : Tree) (c : Connection) :
    Tree × Connection :=
  match s with
  | naming =>
    match t.dispatch message with
    | (some response, t) => (t, (ch.send response c).2)
    | (none, t) => (t, c)
  | silent => (t, c)
  | echo => (t, (ch.send message c).2)

end Service

inductive Progress where
  /-- The offer was sent, the choice is waited for. -/
  | greeting
  | serving
  | finished
  deriving DecidableEq, Repr

structure Handler where
  service : Service
  channel : Channel
  progress : Progress
  deriving DecidableEq, Repr

namespace Handler

/-- Stop working: the channel is closed, unless that was done. -/
def finish (h : Handler) (c : Connection) : Handler × Connection :=
  ({ h with progress := .finished, channel := { h.channel with closed := true } },
    h.channel.drop c)

/-- Begin to work on a channel that was opened; a service that greets makes its offer, and stops
if that cannot be sent. -/
def start (s : Service) (ch : Channel) (c : Connection) : Handler × Connection :=
  if !s.greets then (⟨s, ch, .serving⟩, c)
  else match Greeting.encodeOffer Greeting.supported with
    | .error _ => finish ⟨s, ch, .greeting⟩ c
    | .ok offer =>
      match ch.send offer c with
      | (.ok (), c) => (⟨s, ch, .greeting⟩, c)
      | (.error _, c) => finish ⟨s, ch, .greeting⟩ c

inductive Next where
  | idle
  | greeted
  | message (payload : Bytes)
  /-- It stops, as the channel ended or the greeting failed. -/
  | stop
  deriving DecidableEq, Repr

def next (h : Handler) (c : Connection) : Next × Connection :=
  match h.progress with
  | .finished => (.idle, c)
  | .greeting =>
    match h.channel.take c with
    | (none, c) => (.idle, c)
    | (some (.error _), c) => (.stop, c)
    | (some (.ok m), c) =>
      let marshaller := (Greeting.acceptChoice m).toOption.bind Greeting.marshaller?
      (if marshaller.isSome then .greeted else .stop, c)
  | .serving =>
    match h.channel.take c with
    | (none, c) => (.idle, c)
    | (some (.error _), c) => (.stop, c)
    | (some (.ok m), c) => (.message m, c)

/-- Work until nothing is left to do, for at most `fuel` steps. -/
def run : Nat → Handler → Tree → Connection → Handler × Tree × Connection
  | 0, h, t, c => (h, t, c)
  | fuel + 1, h, t, c =>
    match h.next c with
    | (.idle, c) => (h, t, c)
    | (.greeted, c) => run fuel { h with progress := .serving } t c
    | (.message m, c) =>
      let (t, c) := h.service.work h.channel m t c
      run fuel h t c
    | (.stop, c) =>
      let (h, c) := h.finish c
      (h, t, c)

def steps (h : Handler) (c : Connection) : Nat :=
  ((c.inbox? h.channel.inbox).map (·.waiting.length)).getD 0 + 1

def catchUp (h : Handler) (t : Tree) (c : Connection) : Handler × Tree × Connection :=
  run (h.steps c) h t c

end Handler

end NameDirectory
