import NameDirectory.Credentials
import NameDirectory.Service

/-!
# Listeners

A listener lets peers in by their credentials and gives the channels they open to its
services.  A peer is accepted, then judged by its first packet, then registered; only
a registered peer's packets reach channels.  Closing ends the peers that are
registered at that moment.
-/

namespace NameDirectory

inductive Standing where
  | accepted
  | admitted
  /-- Its packets are read, and closing the listener ends it. -/
  | registered
  | gone
  deriving DecidableEq, Repr

structure Peer where
  standing : Standing := .accepted
  connection : Connection := {}
  handlers : List Handler := []

structure Listener where
  gatekeeper : Gatekeeper
  services : List (String × Service)
  tree : Tree
  /-- No further peer is accepted. -/
  closing : Bool := false
  peers : List Peer := []

namespace Peer

def leave (p : Peer) : Peer :=
  { p with standing := .gone, connection := p.connection.shutdown }

/-- Judge a peer by its first packet; whoever is not let in is told so at most once. -/
def greet (g : Gatekeeper) (first : Packet) (p : Peer) : Peer :=
  match first with
  | .authenticate credentials =>
    match g.judge credentials with
    | .ok _ =>
      match p.connection.send .authenticated with
      | (.ok (), connection) => { p with standing := .admitted, connection }
      | (.error _, connection) => { p with connection }.leave
    | .error reason => { p with connection := p.connection.post (.rejected reason) }.leave
  | _ => p.leave

/-- Open a channel to a service, in place of one under the same number. -/
def openChannel (services : List (String × Service)) (id : UInt32) (name : String) (p : Peer) :
    Peer :=
  match (services.find? (·.1 = name)).map (·.2) with
  | none =>
    match p.connection.send (.channelRejected id ("unknown service '" ++ name ++ "'")) with
    | (.ok (), connection) => { p with connection }
    | (.error _, connection) => { p with connection }.leave
  | some service =>
    let (inbox, connection) := p.connection.install id .ready
    match connection.send (.channelOpened id) with
    | (.error _, connection) => { p with connection }.leave
    | (.ok (), connection) =>
      let (h, connection) := Handler.start service ⟨id, name, inbox, false⟩ connection
      { p with connection, handlers := p.handlers ++ [h] }

/-- A packet of a registered peer: one that breaks the rules ends the connection. -/
def read (services : List (String × Service)) (packet : Packet) (p : Peer) : Peer :=
  match packet with
  | .openChannel id name _ => p.openChannel services id name
  | packet =>
    match p.connection.route packet with
    | .ok connection => { p with connection }
    | .error _ => p.leave

def arrive (g : Gatekeeper) (services : List (String × Service)) (packet : Packet) (p : Peer) :
    Peer :=
  match p.standing with
  | .accepted => p.greet g packet
  | .registered => p.read services packet
  | .admitted | .gone => p

/-- Let the handlers work on what has arrived, in the order they were started. -/
def catchUp (t : Tree) (p : Peer) : Tree × Peer :=
  let (t, connection, handlers) := p.handlers.foldl (fun (t, c, done) h =>
    let (h, t, c) := h.catchUp t c
    (t, c, done ++ [h])) (t, p.connection, [])
  (t, { p with connection, handlers })

end Peer

namespace Listener

def modifyPeer (l : Listener) (i : Nat) (f : Peer → Peer) : Listener :=
  { l with peers := l.peers.modify i f }

/-- Accept a peer and give its index, unless the listener is closing. -/
def accept (l : Listener) : Option (Nat × Listener) :=
  if l.closing then none else some (l.peers.length, { l with peers := l.peers ++ [{}] })

def register (l : Listener) (i : Nat) : Listener :=
  l.modifyPeer i fun p => if p.standing = .admitted then { p with standing := .registered } else p

def arrive (l : Listener) (i : Nat) (packet : Packet) : Listener :=
  l.modifyPeer i (·.arrive l.gatekeeper l.services packet)

def streamEnds (l : Listener) (i : Nat) : Listener := l.modifyPeer i Peer.leave

def catchUp (l : Listener) (i : Nat) : Listener :=
  match l.peers[i]? with
  | none => l
  | some p =>
    let (tree, p) := p.catchUp l.tree
    { l with tree, peers := l.peers.set i p }

def beginClosing (l : Listener) : Listener := { l with closing := true }

def endRegistered (l : Listener) : Listener :=
  { l with peers := l.peers.map fun p => if p.standing = .registered then p.leave else p }

def close (l : Listener) : Listener :=
  if l.closing then l else l.beginClosing.endRegistered

/-- Accept peers again; those that were there have gone. -/
def reopen (l : Listener) : Listener := { l.close with closing := false }

def isGone (l : Listener) (i : Nat) : Bool := l.peers[i]?.all (·.standing = .gone)

def handle (l : Listener) (i : Nat) (packet : Packet) : Listener :=
  ((l.arrive i packet).register i).catchUp i

/-- The packets written to a peer since they were last taken. -/
def takeSent (l : Listener) (i : Nat) : List Packet × Listener :=
  match l.peers[i]? with
  | none => ([], l)
  | some p => (p.connection.sent, l.modifyPeer i fun p =>
      { p with connection := { p.connection with sent := [] } })

end Listener

end NameDirectory
