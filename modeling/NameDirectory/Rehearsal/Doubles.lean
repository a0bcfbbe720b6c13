import NameDirectory.Context
import NameDirectory.Failover
import NameDirectory.Lease
import NameDirectory.Tree

/-!
# Rehearsals

Worlds to run parts of a client in by a script, without a network: a store that only records
what it is asked, servers that serve trees and fail on demand, and resources that count how
often they are closed.  No part of the program is built on them.
-/

namespace NameDirectory.Rehearsal

open Script

/-! ## A store that records -/

/-- Whether the recorder takes a name for that of a context. -/
def standsForContext (n : Name) : Bool :=
  match n.last? with
  | none => true
  | some last => "ctx".toList.isPrefixOf last.toList

/-- What the recorder answers, whatever it was asked before. -/
def recorded : Request → Reply
  | .lookup n | .lookupLink n =>
    .entry (if standsForContext n then .context n else .object (.text (n.last?.getD "")))
  | .list _ => .pairs []
  | .listBindings n => .bindings [Binding.ofEntry "ctx" (.context (n.child "ctx"))]
  | .createSubcontext n => .entry (.context n)
  | _ => .void

/-- What a recording store was asked: a request, or to close. -/
inductive Record where
  | asked (r : Request)
  | closed
  deriving DecidableEq, Repr

/-- Two recorders, of which only the first one's record is kept. -/
structure Recorder where
  handles : Handles Bool
  records : List Record := []

namespace Recorder

/-- The handles every script starts with; `true` stands for the second store. -/
def start (base : Name) : Recorder :=
  { handles := [("root", .found base false), ("owner", .owning false), ("other", .found base true)] }

def note (r : Record) (second : Bool) (w : Recorder) : Recorder :=
  if second then w else { w with records := w.records ++ [r] }

def stores : Stores Recorder Bool where
  serve second r w := (.ok (recorded r), note (.asked r) second w)
  close second w := (.ok (), note .closed second w)
  home second := second

def shelf : Shelf Recorder Bool := ⟨Recorder.handles, fun h w => { w with handles := h }⟩

end Recorder

def record (s : Step) (w : Recorder) : Answer × List Record × Recorder :=
  let (a, w) := s.run Recorder.stores Recorder.shelf { w with records := [] }
  (a, w.records, w)

/-! ## Servers that fail on demand -/

/-- A session on a server; sessions are numbered from 1 in the order of their opening. -/
structure Session where
  server : Nat
  number : Nat
  deriving DecidableEq, Repr

/-- How handles reach the group: directly, or through one of the leases on it. -/
inductive Route where
  | direct
  | lease (index : Nat)
  deriving DecidableEq, Repr

mutual
inductive Act where
  | context (s : Step)
  | set (server : Nat) (change : Change)
  | active
  | isClosed
  | servers
  | close
  | closeAside

/-- New orders for a server; what is not given stays. -/
inductive Change where
  | mk (connect : Option (Option TransportFault)) (fail : Option (Option ClientFault))
      (queue : Option (List (Option ClientFault))) (hook : Option (List Act))
end

structure Server where
  tree : Tree
  connect : Option TransportFault := none
  queue : List (Option ClientFault) := []
  /-- What calls fail with that the queue does not decide. -/
  fail : Option ClientFault := none
  hook : List Act := []

inductive Response where
  | context (a : Answer)
  | active (server : Option String)
  | isClosed (b : Bool)
  | servers (list : List String)
  | closed
  | nothing

inductive Event where
  | connect (server : Nat)
  | connected (server : String)
  | call (r : Request) (s : Session)
  | closeStore (s : Session)
  | closeConnection (s : Session)
  | closeConnector
  | hook (answer : Response)

structure Stage where
  group : Failover.Group Session
  servers : List Server
  opened : Nat := 0
  /-- The numbers of the sessions whose store was closed. -/
  closed : List Nat := []
  /-- What happened, the last first. -/
  log : List Event := []
  handles : Handles Route
  pool : Pool Unit Unit := {}
  leases : List (Lease Unit Unit) := []
  /-- Whether sessions have a connection of their own to close. -/
  connections : Bool := true
  watched : Bool := true

namespace Stage

def note (e : Event) (w : Stage) : Stage := { w with log := e :: w.log }

def change (i : Nat) (f : Server → Server) (w : Stage) : Stage :=
  { w with servers := w.servers.modify i f }

def place : Failover.Place Stage Session := ⟨Stage.group, fun g w => { w with group := g }⟩

def shelf : Shelf Stage Route := ⟨Stage.handles, fun h w => { w with handles := h }⟩

def connect (i : Nat) (w : Stage) : Except TransportFault Session × Stage :=
  let w := w.note (.connect i)
  match w.servers[i]?.bind Server.connect with
  | some fault => (.error fault, w)
  | none => (.ok ⟨i, w.opened + 1⟩, { w with opened := w.opened + 1 })

def closeSession (s : Session) (w : Stage) : Stage :=
  let w := { w with closed := s.number :: w.closed }.note (.closeStore s)
  if w.connections then w.note (.closeConnection s) else w

def environment : Failover.Environment Stage Session where
  connect := connect
  connected i _ w :=
    if w.watched then w.note (.connected (w.group.servers[i]?.getD "")) else w
  closeSession := closeSession
  closeConnector w := w.note .closeConnector

def closeGroup (w : Stage) : Stage := Failover.close environment place w

/-- End the lease that a handle holds; the group is closed with the last one. -/
def endLease (i : Nat) (w : Stage) : Stage :=
  match w.leases[i]? with
  | none => w
  | some l =>
    let (r, l, pool) := w.pool.endLease l
    let w := { w with leases := w.leases.set i l, pool }
    if r.isSome then w.closeGroup else w

def closeRoute : Route → Stage → Stage
  | .direct, w => w.closeGroup
  | .lease i, w => w.endLease i

def apply : Change → Server → Server
  | .mk connect fail queue hook, s =>
    { s with connect := connect.getD s.connect, fail := fail.getD s.fail,
             queue := queue.getD s.queue, hook := hook.getD s.hook }

def decide (r : Request) (s : Session) (w : Stage) : Except ClientFault Reply × Stage :=
  if w.closed.contains s.number then (.error .closed, w)
  else match w.servers[s.server]? with
    | none => (.error .closed, w)
    | some server =>
      let w := w.change s.server fun server => { server with queue := server.queue.tail }
      match server.queue.head?.join <|> server.fail with
      | some fault => (.error fault, w)
      | none =>
        let (reply, tree) := server.tree.serve r
        (reply.mapError .naming, w.change s.server fun server => { server with tree })

/-- Make a step of a hook, which has no handle but the root of the group itself, and keeps none. -/
def aside (f : Stage → Response × Stage) (w : Stage) : Stage :=
  let (answer, after) := f { w with handles := [("root", .owning .direct)] }
  { after with handles := w.handles }.note (.hook answer)

/-- Make a step.  `depth` bounds how often hooks may run within hooks. -/
def act : Nat → Act → Stage → Response × Stage
  | depth, .context s, w =>
    let call (r : Request) (session : Session) (w : Stage) : Except ClientFault Reply × Stage :=
      let w := w.note (.call r session)
      let hook := (w.servers[session.server]?.map Server.hook).getD []
      let w := w.change session.server fun server => { server with hook := [] }
      let w := match depth with
        | 0 => w
        | depth + 1 => hook.foldl (fun w a => w.aside (act depth a)) w
      w.decide r session
    let stores : Stores Stage Route :=
      { serve := fun _ r w => Failover.run environment place (call r) w
        close := fun route w => (.ok (), closeRoute route w)
        home := fun _ => .direct }
    let (a, w) := s.run stores shelf w
    (.context a, w)
  | _, .set i c, w => (.nothing, w.change i (apply c))
  | _, .active, w => (.active (w.group.current.bind fun c => w.group.servers[c.index]?), w)
  | _, .isClosed, w => (.isClosed w.group.closed, w)
  | _, .servers, w => (.servers w.group.servers, w)
  | _, .close, w => (.closed, w.closeGroup)
  | _, .closeAside, w => (.nothing, w.closeGroup)

def holds (w : Stage) (i : Nat) : Bool := w.handles.any fun (_, c) => c.store = .lease i

def collect (w : Stage) : Stage :=
  (List.range w.leases.length).foldl (fun w i => if w.holds i then w else w.endLease i) w

def perform (depth : Nat) (a : Act) (w : Stage) : Response × List Event × Stage :=
  let (r, w) := act depth a { w with log := [] }
  let w := w.collect
  (r, w.log.reverse, w)

/-- A stage of servers with trees; with `leased`, two leases on the group share its handles. -/
def start (servers : List String) (trees : List Tree) (connections watched leased : Bool) :
    Except ClientFault Stage := do
  let group ← Failover.Group.ofServers servers
  let servers := trees.map fun t => { tree := t : Server }
  if leased then
    let (first, pool) := Pool.install {} () ()
    let (second, pool) := pool.lend () ⟨(), pool.references (), first.generation⟩
    return { group, servers, connections, watched, pool, leases := [first, second],
             handles := [("root", .owning (.lease 0)), ("second", .owning (.lease 1))] }
  else
    return { group, servers, connections, watched, handles := [("root", .owning .direct)] }

end Stage

/-! ## Resources that count -/

inductive Build where
  | fails
  | works
  /-- It works, but closing the resource reports a failure. -/
  | closeFails
  deriving DecidableEq, Repr

/-- A resource's closings, and whether they fail. -/
structure Tally where
  closes : Nat := 0
  closeFails : Bool
  deriving Repr

structure Bench where
  pool : Pool String Nat := {}
  built : List Tally := []
  leases : List (String × Lease String Nat) := []
  /-- The keys that were asked for, the first first. -/
  asked : List String := []

namespace Bench

def close (r : Option Nat) (w : Bench) : Except ClientFault Unit × Bench :=
  match r with
  | none => (.ok (), w)
  | some i =>
    let w := { w with built := w.built.modify i fun t => { t with closes := t.closes + 1 } }
    if (w.built[i]?.map Tally.closeFails).getD false then
      (.error (.config ("cannot close " ++ toString i)), w)
    else (.ok (), w)

def closes (w : Bench) (i : Nat) : Nat := (w.built[i]?.map Tally.closes).getD 0

def lease? (w : Bench) (label : String) : Option (Lease String Nat) :=
  (w.leases.find? (·.1 = label)).map (·.2)

/-- End the lease under a label, which stays there. -/
def endLease (label : String) (w : Bench) : Except ClientFault Unit × Bench :=
  match w.lease? label with
  | none => (.ok (), w)
  | some l =>
    let (r, l, pool) := w.pool.endLease l
    let leases := w.leases.map fun (k, m) => if k = label then (k, l) else (k, m)
    { w with pool, leases }.close r

/-- End the lease under a label and forget it. -/
def drop (label : String) (w : Bench) : Bench :=
  let (_, w) := w.endLease label
  { w with leases := w.leases.filter (·.1 ≠ label) }

def build (how : Build) (tallies : List Tally) : Except ClientFault Nat × List Tally :=
  match how with
  | .fails => (.error (.config "build failed"), tallies)
  | _ => (.ok tallies.length, tallies ++ [{ closeFails := how = .closeFails }])

/-- Take a lease, put it under a label in place of the one there, and tell whether the resource
was built for it.  `valid` decides on a resource by its closings. -/
def get (label key : String) (how : Build) (valid : Nat → Bool) (w : Bench) :
    Except ClientFault (Nat × Bool) × Bench :=
  let count := w.built.length
  let asked := if w.asked.contains key then w.asked else w.asked ++ [key]
  let (r, pool, built) := w.pool.get key (fun i => valid (w.closes i)) (build how) w.built
  let w := { w with pool, built, asked }
  match r with
  | .error fault => (.error fault, w)
  | .ok l =>
    let w := w.drop label
    (.ok (l.resource, count < w.built.length), { w with leases := (label, l) :: w.leases })

/-- End one lease on what is under a key, whoever holds it. -/
def release (key : String) (w : Bench) : Except ClientFault Unit × Bench :=
  let (r, pool) := w.pool.release key none
  { w with pool }.close r

def shutdown (w : Bench) : Bench :=
  let (rs, pool) := w.pool.shutdown
  rs.foldl (fun w r => (w.close (some r)).2) { w with pool }

end Bench

end NameDirectory.Rehearsal
