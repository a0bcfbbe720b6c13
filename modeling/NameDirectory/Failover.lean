import NameDirectory.Fault

/-!
# Failover

A group of servers of which one is in use.  When the one in use fails on the way,
the next that accepts a connection takes its place; the list is scanned at most
once, from the cursor on.  Each session has the epoch in which it was opened, and a
caller reports a failure with the epoch it saw, so that of several callers that saw
the same session fail only one replaces it.

What connecting, closing and watching do to the world is left to an `Environment`;
the group only says when they happen.
-/

namespace NameDirectory.Failover

variable {σ S α : Type}

/-- What the group does to the world: `S` are sessions, `σ` the states of the world. -/
structure Environment (σ S : Type) where
  connect : Nat → σ → Except TransportFault S × σ
  /-- A session was opened and is going to be used. -/
  connected : Nat → S → σ → σ
  /-- Close a session, with what keeps it connected. -/
  closeSession : S → σ → σ
  closeConnector : σ → σ

structure Current (S : Type) where
  session : S
  index : Nat
  epoch : Nat
  deriving DecidableEq, Repr

structure Group (S : Type) where
  /-- The servers' addresses as written; there is at least one. -/
  servers : List String
  cursor : Nat := 0
  epoch : Nat := 0
  current : Option (Current S) := none
  /-- Set at the start of closing, outside the lock that guards the rest. -/
  closed : Bool := false
  deriving Repr

def Group.ofServers (servers : List String) : Except ClientFault (Group S) :=
  if servers.isEmpty then .error (.config "at least one server is required")
  else .ok { servers }

/-! ## Scanning -/

inductive Scan (S : Type) where
  | found (index : Nat) (session : S)
  | exhausted (attempts : List String) (cause : Option TransportFault)

def attempt (server : String) (fault : TransportFault) : String :=
  server ++ " (" ++ fault.message ++ ")"

/-- The cause that explains a failed scan best: the last refusal of who we are, else the first
failure to reach a server. -/
def explain (cause : Option TransportFault) (fault : TransportFault) : Option TransportFault :=
  if fault.isAuthentication || (cause.isNone && fault.isConnectivity) then some fault else cause

def scan (env : Environment σ S) (servers : List String) :
    Nat → Nat → List String → Option TransportFault → σ → Scan S × Nat × σ
  | 0, cursor, attempts, cause, w => (.exhausted attempts cause, cursor, w)
  | tries + 1, cursor, attempts, cause, w =>
    let next := (cursor + 1) % servers.length
    match env.connect cursor w with
    | (.ok session, w) => (.found cursor session, next, w)
    | (.error fault, w) =>
      scan env servers tries next (attempts ++ [attempt (servers[cursor]?.getD "") fault])
        (explain cause fault) w

def exhaustedFault (attempts : List String) (cause : Option TransportFault) : ClientFault :=
  match cause with
  | some fault =>
    if fault.isAuthentication then .authentication attempts cause else .communication attempts cause
  | none => .communication attempts none

/-! ## Steps under the lock -/

def Group.install (env : Environment σ S) (g : Group S) (w : σ) :
    Except ClientFault (Current S) × Group S × σ :=
  match scan env g.servers g.servers.length g.cursor [] none w with
  | (.exhausted attempts cause, cursor, w) =>
    (.error (exhaustedFault attempts cause), { g with cursor, current := none }, w)
  | (.found index session, cursor, w) =>
    let current : Current S := ⟨session, index, g.epoch + 1⟩
    (.ok current, { g with cursor, epoch := g.epoch + 1, current := some current },
      env.connected index session w)

/-- Replace the session of epoch `failed`, unless that was done already. -/
def Group.replace (env : Environment σ S) (failed : Option Nat) (g : Group S) (w : σ) :
    Except ClientFault (Current S) × Group S × σ :=
  if g.closed then (.error .closed, g, w)
  else match g.current with
    | none => g.install env w
    | some c =>
      if failed ≠ some c.epoch then (.ok c, g, w)
      else { g with current := none }.install env (env.closeSession c.session w)

def Group.obtain (env : Environment σ S) (g : Group S) (w : σ) :
    Except ClientFault (Current S) × Group S × σ :=
  match g.current with
  | some c => (.ok c, g, w)
  | none => g.replace env none w

/-- Close the session in use, the flag being set. -/
def Group.clear (env : Environment σ S) (g : Group S) (w : σ) : Group S × σ :=
  match g.current with
  | some c => ({ g with current := none }, env.closeSession c.session w)
  | none => (g, w)

/-! ## Operations -/

inductive Stage (S α : Type) where
  | entering
  | obtaining
  | applying (current : Current S)
  | replacing (epoch : Nat)
  | reapplying (current : Current S)
  | finished (result : Except ClientFault α)

/-- Whether an outcome calls for another server: it failed on the way, or its store was closed
underneath while the group is open. -/
def callsForAnother (closed : Bool) : Except ClientFault α → Bool
  | .ok _ => false
  | .error .closed => !closed
  | .error fault => fault.isTransport

def Stage.afterFirst (closed : Bool) (c : Current S) (outcome : Except ClientFault α) :
    Stage S α :=
  if callsForAnother closed outcome then .replacing c.epoch else .finished outcome

/-- After the second application: a failure on the way is that of the only server tried. -/
def Stage.afterSecond (servers : List String) (c : Current S) :
    Except ClientFault α → Stage S α
  | .error (.transport fault) =>
    .finished (.error
      (.communication [attempt (servers[c.index]?.getD "") fault] (some fault)))
  | outcome => .finished outcome

structure Place (σ S : Type) where
  get : σ → Group S
  set : Group S → σ → σ

def Place.locked {β : Type} (p : Place σ S) (step : Group S → σ → β × Group S × σ) (w : σ) :
    β × σ :=
  let (b, g, w) := step (p.get w) w
  (b, p.set g w)

def Stage.ofObtained : Except ClientFault (Current S) → (Current S → Stage S α) → Stage S α
  | .ok c, next => next c
  | .error fault, _ => .finished (.error fault)

def Stage.step (env : Environment σ S) (p : Place σ S)
    (apply : S → σ → Except ClientFault α × σ) : Stage S α → σ → Stage S α × σ
  | .entering, w =>
    (if (p.get w).closed then .finished (.error .closed) else .obtaining, w)
  | .obtaining, w =>
    let (r, w) := p.locked (Group.obtain env) w
    (.ofObtained r .applying, w)
  | .applying c, w =>
    let (outcome, w) := apply c.session w
    (.afterFirst (p.get w).closed c outcome, w)
  | .replacing epoch, w =>
    let (r, w) := p.locked (Group.replace env (some epoch)) w
    (.ofObtained r .reapplying, w)
  | .reapplying c, w =>
    let (outcome, w) := apply c.session w
    (.afterSecond (p.get w).servers c outcome, w)
  | .finished r, w => (.finished r, w)

/-- Run an operation: at most five steps lead to its end. -/
def run (env : Environment σ S) (p : Place σ S) (apply : S → σ → Except ClientFault α × σ)
    (w : σ) : Except ClientFault α × σ :=
  go 5 .entering w
where
  go : Nat → Stage S α → σ → Except ClientFault α × σ
    | _, .finished r, w => (r, w)
    | 0, _, w => (.error .closed, w)
    | n + 1, stage, w =>
      let (stage, w) := stage.step env p apply w
      go n stage w

/-- Close the group; only the first call does anything. -/
def close (env : Environment σ S) (p : Place σ S) (w : σ) : σ :=
  let g := p.get w
  if g.closed then w
  else
    let w := p.set { g with closed := true } w
    let ((), w) := p.locked (fun g w => ((), g.clear env w)) w
    env.closeConnector w

end NameDirectory.Failover
