import NameDirectory.Configuration
import NameDirectory.Context
import NameDirectory.Failover
import NameDirectory.Lease

/-!
# Clients that share what they use

A registry keeps three pools: groups of servers, connections and endpoints.  Clients
with equal settings share a group; groups share the connections that were made from
the same endpoint to the same server with the same options and identity.  A session
on a server holds a lease on its connection, and a group holds one on its endpoint.
A connection that its peer dropped is replaced when it is asked for again.
-/

namespace NameDirectory

/-- What carries requests: `C` are connections, `S` stores on them, `σ` the states of the world. -/
structure Carrier (σ C S : Type) where
  connect : Descriptor → σ → Except TransportFault C × σ
  isClosed : C → σ → Bool
  close : C → σ → σ
  /-- Open a channel and greet, for requests that may wait for the given time. -/
  openStore : C → Descriptor → Span → σ → Except TransportFault S × σ
  serve : S → Request → σ → Except ClientFault Reply × σ
  closeStore : S → σ → σ

namespace Registry

/-- What connections are made from: closing it closes them. -/
structure Endpoint (C : Type) where
  connections : List C := []
  closed : Bool := false

/-- A store on a server, with the hold on its connection. -/
structure Session (C S : Type) where
  store : S
  lease : Lease ConnectionKey C

structure Team (C S : Type) where
  group : Failover.Group (Session C S)
  descriptors : List Descriptor
  endpoint : Lease EndpointKey Nat
  requestTimeout : Span

/-- How a context reaches the group with the number `team`: through a lease on it, or directly. -/
inductive Route where
  | lease (index team : Nat)
  | direct (team : Nat)
  deriving DecidableEq, Repr

def Route.team : Route → Nat
  | lease _ team => team
  | direct team => team

end Registry

open Registry

structure Registry (σ C S : Type) where
  world : σ
  stores : Pool StoreKey Nat := {}
  connections : Pool ConnectionKey C := {}
  endpoints : Pool EndpointKey Nat := {}
  /-- All groups ever made, by the number that is in the pool. -/
  teams : List (Team C S) := []
  /-- All endpoints ever made, likewise. -/
  endpointList : List (Endpoint C) := []
  leases : List (Lease StoreKey Nat) := []
  /-- The servers that sessions were opened on, the first first. -/
  reached : List Destination := []

namespace Registry

variable {σ C S : Type}

/-! ## Endpoints and connections -/

def closeConnection (env : Carrier σ C S) (c : C) (w : Registry σ C S) : Registry σ C S :=
  { w with world := env.close c w.world }

def closeEndpoint (env : Carrier σ C S) (i : Nat) (w : Registry σ C S) : Registry σ C S :=
  match w.endpointList[i]? with
  | none => w
  | some e =>
    if e.closed then w
    else e.connections.foldl (fun w c => w.closeConnection env c)
      { w with endpointList := w.endpointList.set i ⟨[], true⟩ }

/-- Connect from an endpoint, unless it is closed. -/
def connect (env : Carrier σ C S) (endpoint : Nat) (d : Descriptor) (w : Registry σ C S) :
    Except TransportFault C × Registry σ C S :=
  if w.endpointList[endpoint]?.all (·.closed) then (.error .connectionClosed, w)
  else
    let (r, world) := env.connect d w.world
    let w := { w with world }
    match r with
    | .error fault => (.error fault, w)
    | .ok c => (.ok c, { w with endpointList := w.endpointList.modify endpoint fun e =>
        { e with connections := e.connections ++ [c] } })

/-- A lease on a connection that is not closed. -/
def leaseConnection (env : Carrier σ C S) (endpoint : Lease EndpointKey Nat) (d : Descriptor)
    (w : Registry σ C S) : Except TransportFault (Lease ConnectionKey C) × Registry σ C S :=
  let (r, connections, w) := w.connections.get (ConnectionKey.of endpoint.key d)
    (fun c => !env.isClosed c w.world) (connect env endpoint.resource d) w
  (r, { w with connections })

/-- End a lease on a connection, which is closed with the last one. -/
def endConnectionLease (env : Carrier σ C S) (l : Lease ConnectionKey C) (w : Registry σ C S) :
    Registry σ C S :=
  let (given, _, connections) := w.connections.endLease l
  let w := { w with connections }
  match given with
  | some c => w.closeConnection env c
  | none => w

def endEndpointLease (env : Carrier σ C S) (l : Lease EndpointKey Nat) (w : Registry σ C S) :
    Registry σ C S :=
  let (given, _, endpoints) := w.endpoints.endLease l
  let w := { w with endpoints }
  match given with
  | some i => w.closeEndpoint env i
  | none => w

/-! ## Sessions -/

/-- Open a session: a lease on a connection, and a store on it.  If the store cannot be opened
the lease ends. -/
def openSession (env : Carrier σ C S) (t : Team C S) (d : Descriptor) (w : Registry σ C S) :
    Except TransportFault (Session C S) × Registry σ C S :=
  match w.leaseConnection env t.endpoint d with
  | (.error fault, w) => (.error fault, w)
  | (.ok lease, w) =>
    let (r, world) := env.openStore lease.resource d t.requestTimeout w.world
    let w := { w with world }
    match r with
    | .ok store => (.ok ⟨store, lease⟩, w)
    | .error fault => (.error fault, w.endConnectionLease env lease)

def closeSession (env : Carrier σ C S) (s : Session C S) (w : Registry σ C S) :
    Registry σ C S :=
  { w with world := env.closeStore s.store w.world }.endConnectionLease env s.lease

/-! ## Groups -/

/-- The group with this number; one that was never made counts as closed. -/
def group (i : Nat) (w : Registry σ C S) : Failover.Group (Session C S) :=
  match w.teams[i]? with
  | some t => t.group
  | none => { servers := [], closed := true }

def place (i : Nat) : Failover.Place (Registry σ C S) (Session C S) :=
  ⟨group i, fun group w => { w with teams := w.teams.modify i fun t => { t with group } }⟩

/-- What the group with this number does to the registry and the world. -/
def environment (env : Carrier σ C S) (i : Nat) :
    Failover.Environment (Registry σ C S) (Session C S) where
  connect server w :=
    match w.teams[i]? with
    | none => (.error .connectionClosed, w)
    | some t =>
      match t.descriptors[server]? with
      | none => (.error .connectionClosed, w)
      | some d => w.openSession env t d
  connected server _ w :=
    let d := (w.teams[i]?.bind fun t => t.descriptors[server]?).map (·.destination)
    { w with reached := w.reached ++ d.toList }
  closeSession := closeSession env
  closeConnector w :=
    match w.teams[i]? with
    | none => w
    | some t => w.endEndpointLease env t.endpoint

def closeGroup (env : Carrier σ C S) (i : Nat) (w : Registry σ C S) : Registry σ C S :=
  Failover.close (environment env i) (place i) w

/-! ## Contexts -/

def leaseEndpoint (k : EndpointKey) (w : Registry σ C S) :
    Lease EndpointKey Nat × Registry σ C S :=
  match w.endpoints.slot? k with
  | some s =>
    let (l, endpoints) := w.endpoints.lend k s
    (l, { w with endpoints })
  | none =>
    let (l, endpoints) := w.endpoints.install k w.endpointList.length
    (l, { w with endpoints, endpointList := w.endpointList ++ [{}] })

def makeTeam (c : Configuration) (descriptors : List Descriptor) (w : Registry σ C S) :
    Except ClientFault Nat × Registry σ C S :=
  match Failover.Group.ofServers (descriptors.map (·.destination.text)) with
  | .error fault => (.error fault, w)
  | .ok group =>
    let (endpoint, w) := w.leaseEndpoint c.endpointKey
    (.ok w.teams.length, { w with teams := w.teams ++
      [{ group, descriptors, endpoint, requestTimeout := c.requestTimeout }] })

def storeKey (c : Configuration) (descriptors : List Descriptor) : StoreKey :=
  ⟨c.endpointKey, descriptors.map (·.key), c.randomServer, c.requestTimeout⟩

def lease (c : Configuration) (w : Registry σ C S) :
    Except ClientFault Route × Registry σ C S :=
  match c.descriptors with
  | .error fault => (.error fault, w)
  | .ok descriptors =>
    let (r, stores, w) := w.stores.get (storeKey c descriptors) (fun _ => true)
      (makeTeam c descriptors) w
    let w := { w with stores }
    match r with
    | .error fault => (.error fault, w)
    | .ok l => (.ok (.lease w.leases.length l.resource), { w with leases := w.leases ++ [l] })

def context (c : Configuration) (w : Registry σ C S) :
    Except ClientFault (Context Route) × Registry σ C S :=
  let (r, w) := w.lease c
  (r.map Context.owning, w)

/-- End a lease on a group, which is closed with the last one. -/
def endLease (env : Carrier σ C S) (i : Nat) (w : Registry σ C S) : Registry σ C S :=
  match w.leases[i]? with
  | none => w
  | some l =>
    let (given, l, stores) := w.stores.endLease l
    let w := { w with stores, leases := w.leases.set i l }
    match given with
    | some team => w.closeGroup env team
    | none => w

def closeRoute (env : Carrier σ C S) (r : Route) (w : Registry σ C S) : Registry σ C S :=
  match r with
  | .lease i _ => w.endLease env i
  | .direct team => w.closeGroup env team

def ask (env : Carrier σ C S) (request : Request) (s : Session C S) (w : Registry σ C S) :
    Except ClientFault Reply × Registry σ C S :=
  let (reply, world) := env.serve s.store request w.world
  (reply, { w with world })

def serve (env : Carrier σ C S) (r : Route) (request : Request) (w : Registry σ C S) :
    Except ClientFault Reply × Registry σ C S :=
  Failover.run (environment env r.team) (place r.team) (ask env request) w

/-- Close everything, whoever holds leases on it. -/
def shutdown (env : Carrier σ C S) (w : Registry σ C S) : Registry σ C S :=
  let (teams, stores) := w.stores.shutdown
  let w := teams.foldl (fun w i => w.closeGroup env i) { w with stores }
  let (cs, connections) := w.connections.shutdown
  let w := cs.foldl (fun w c => w.closeConnection env c) { w with connections }
  let (es, endpoints) := w.endpoints.shutdown
  es.foldl (fun w e => w.closeEndpoint env e) { w with endpoints }

def counts (w : Registry σ C S) : List Nat :=
  [w.stores.size, w.connections.size, w.endpoints.size]

def contexts (env : Carrier σ C S) : Script.Stores (Registry σ C S) Route where
  serve := serve env
  close r w := (.ok (), w.closeRoute env r)
  home r := .direct r.team

end Registry

end NameDirectory
