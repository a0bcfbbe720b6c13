import NameDirectory.Listener
import NameDirectory.Proxy
import NameDirectory.Registry
import NameDirectory.SocketAddress

/-!
# A network in memory

Hosts with listeners, and links from clients to them.  Nothing travels on its own:
whatever a client does on a link is followed by an exchange, which carries all that
was written there and back until both ends have nothing left to do.  An answer that
has not come by then does not come, so whoever waits for it has waited in vain.
Without routes no host is reached, and only numeric addresses, this machine's own
name and the names of hosts can be resolved.
-/

namespace NameDirectory

structure Host where
  authority : String
  listener : Listener

/-- A connection between a client and a peer of the listener at a host. -/
structure Link where
  host : Nat
  peer : Nat
  client : Connection

/-- Carry what was written on a link to the listener, and back what that writes. -/
def Link.carry (k : Link) (l : Listener) : Link × Listener :=
  let l := k.client.sent.foldl (fun l p => l.handle k.peer p) l
  let l := if k.client.closed then (l.streamEnds k.peer).catchUp k.peer else l
  let (back, l) := l.takeSent k.peer
  let client := back.foldl Connection.arrive { k.client with sent := [] }
  ({ k with client := if l.isGone k.peer then client.shutdown else client }, l)

structure Network where
  routes : Bool := true
  hosts : List Host := []
  links : List Link := []
  /-- Stores, each with the index of its link. -/
  stores : List (Nat × Proxy) := []

namespace Network

/-! ## Exchange -/

def setListener (w : Network) (i : Nat) (listener : Listener) : Network :=
  { w with hosts := w.hosts.modify i fun h => { h with listener } }

def setClient (w : Network) (i : Nat) (client : Connection) : Network :=
  { w with links := w.links.modify i fun k => { k with client } }

/-- Let the stores on a link take what arrived for them. -/
def catchUp (w : Network) (i : Nat) : Network :=
  match w.links[i]? with
  | none => w
  | some k =>
    let (stores, client) := w.stores.foldl (fun (done, c) (j, p) =>
      if j = i then
        let (p, c) := p.catchUp c
        (done ++ [(j, p)], c)
      else (done ++ [(j, p)], c)) ([], k.client)
    { w with stores }.setClient i client

def exchange (w : Network) (i : Nat) : Network :=
  match w.links[i]? with
  | none => w
  | some k =>
    match w.hosts[k.host]? with
    | none => w
    | some h =>
      let (k, listener) := k.carry h.listener
      ({ w with links := w.links.set i k }.setListener k.host listener).catchUp i

/-- Act on the client's end of a link, and let the consequences happen. -/
def act {α : Type} (w : Network) (i : Nat) (f : Connection → α × Connection) (lost : α) :
    α × Network :=
  match w.links[i]? with
  | none => (lost, w)
  | some k =>
    let (a, client) := f k.client
    (a, (w.setClient i client).exchange i)

/-! ## What clients do -/

def resolves (w : Network) (d : Destination) : Bool :=
  d.host.toLower = "localhost" || (SocketAddress.parse? d.authority).isSome
    || SocketAddress.isSpelledOctets d.host || w.hosts.any (·.authority = d.authority)

def reach (w : Network) (d : Destination) : Except TransportFault (Nat × Host) :=
  if !w.resolves d then .error (.unresolved d.text)
  else if !w.routes then .error (.stream .unreachable)
  else match w.hosts.findIdx? fun h => h.authority = d.authority && !h.listener.closing with
    | none => .error (.stream .notListening)
    | some i => match w.hosts[i]? with
      | none => .error (.stream .notListening)
      | some h => .ok (i, h)

/-- Reach a host, authenticate, and give the index of the link. -/
def connect (d : Descriptor) (w : Network) : Except TransportFault Nat × Network :=
  match w.reach d.destination with
  | .error fault => (.error fault, w)
  | .ok (i, h) =>
    match h.listener.accept with
    | none => (.error (.stream .notListening), w)
    | some (peer, listener) =>
      let credentials := d.authenticator.credentials
      let (sending, client) := ({} : Connection).send (.authenticate credentials)
      match sending with
      | .error fault => (.error fault, w.setListener i (listener.streamEnds peer))
      | .ok () =>
        let listener := listener.handle peer (.authenticate credentials)
        let (back, listener) := listener.takeSent peer
        let w := w.setListener i listener
        let outcome := match back with
          | p :: _ => Connection.admission credentials.mechanism p
          | [] => .error (if listener.isGone peer then .stream .shortRead
            else .timeout d.connectTimeout .authentication)
        match outcome with
        | .error fault => (.error fault, w.setListener i (listener.streamEnds peer))
        | .ok () =>
          let client := back.tail.foldl Connection.arrive { client with sent := [] }
          (.ok w.links.length, { w with links := w.links ++ [⟨i, peer, client⟩] })

def isClosed (i : Nat) (w : Network) : Bool := w.links[i]?.all (·.client.closed)

def close (i : Nat) (w : Network) : Network :=
  (w.act i (fun c => ((), c.shutdown)) ()).2

def openChannel (w : Network) (i : Nat) (service : String) (options : Options) (after : Span) :
    Except TransportFault Channel × Network :=
  let ask (c : Connection) : (Channel × Except TransportFault Unit) × Connection :=
    let (ch, c) := c.beginOpening service
    let (r, c) := c.askToOpen ch options
    ((ch, r), c)
  let ((ch, r), w) := w.act i ask (⟨0, service, 0, true⟩, .error .connectionClosed)
  match r with
  | .error fault => (.error fault, w)
  | .ok () => w.act i (fun c => c.finishOpening ch after) (.error .connectionClosed)

/-- Open a channel to the directory, and greet. -/
def openStore (i : Nat) (d : Descriptor) (patience : Span) (w : Network) :
    Except TransportFault Nat × Network :=
  match w.openChannel i Greeting.service d.channelOptions d.channelTimeout with
  | (.error fault, w) => (.error fault, w)
  | (.ok ch, w) =>
    match w.act i (Proxy.greet ch d.channelTimeout patience) (.error .connectionClosed) with
    | (.error fault, w) => (.error fault, w)
    | (.ok p, w) => (.ok w.stores.length, { w with stores := w.stores ++ [(i, p)] }.catchUp i)

/-- Act on a store and its end of the link, and let the consequences happen. -/
def actOn {α : Type} (w : Network) (s : Nat) (f : Proxy → Connection → α × Proxy × Connection)
    (lost : α) : α × Network :=
  match w.stores[s]? with
  | none => (lost, w)
  | some (i, p) =>
    match w.links[i]? with
    | none => (lost, w)
    | some k =>
      let (a, p, c) := f p k.client
      (a, ({ w with stores := w.stores.set s (i, p) }.setClient i c).exchange i)

/-- Reserve a number for a request and send it; a number whose request is not sent is free again. -/
def request (r : Request) (p : Proxy) (c : Connection) :
    Except ClientFault Reservation × Proxy × Connection :=
  match p.reserve r with
  | (.error fault, p) => (.error fault, p, c)
  | (.ok v, p) =>
    match p.send v r c with
    | (.ok (), c) => (.ok v, p, c)
    | (.error fault, c) => (.error (.transport fault), p.release v, c)

/-- The outcome of a request that was sent; one that has not come by now does not come. -/
def conclude (op : Operation) (v : Reservation) (p : Proxy) : Outcome × Proxy :=
  let (outcome, p) := p.outcome? v
  (op.conclude (outcome.getD (.error (.timeout p.patience))), p.release v)

def serve (s : Nat) (r : Request) (w : Network) : Outcome × Network :=
  match w.actOn s (request r) (.error .closed) with
  | (.error fault, w) => (.error fault, w)
  | (.ok v, w) =>
    w.actOn s (fun p c => let (o, p) := conclude r.operation v p; (o, p, c)) (.error .closed)

def closeStore (s : Nat) (w : Network) : Network :=
  (w.actOn s (fun p c => ((), p.close c)) ()).2

def carrier : Carrier Network Nat Nat :=
  { connect, isClosed, close, openStore, serve, closeStore }

/-! ## What hosts do -/

def listen (w : Network) (h : Host) : Network := { w with hosts := w.hosts ++ [h] }

/-- Change the listener at a host, and let the consequences happen on all links. -/
def withListener (w : Network) (i : Nat) (f : Listener → Listener) : Network :=
  match w.hosts[i]? with
  | none => w
  | some h => (List.range w.links.length).foldl exchange (w.setListener i (f h.listener))

def stop (w : Network) (i : Nat) : Network := w.withListener i Listener.close

def start (w : Network) (i : Nat) : Network := w.withListener i Listener.reopen

def tree (w : Network) (i : Nat) : Tree :=
  match w.hosts[i]? with
  | none => Tree.empty
  | some h => h.listener.tree

end Network

end NameDirectory
