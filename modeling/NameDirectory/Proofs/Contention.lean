import Mathlib.Logic.Relation
import NameDirectory.Proofs.Custody
import NameDirectory.Proofs.Generations

/-!
# Callers and closings at one group

A failover group among any number of operations and of calls that close it, as a step relation
(`Step`).  The flag of a closed group is not guarded by the group's lock: an operation reads it
before it takes the lock and once more when it has it, and goes by what it read even if the flag is
set before it is done; a call that closes sets the flag first, then takes the lock.  Everything else
happens under the lock.

* `kept_of_needsLock`, `step_of_seen`, `step_of_not_needsLock`: what a step of an operation does to
  what is shared;
* `later_run`, `later_close`: operations and calls that close which nobody interrupts are runs of
  these steps;
* `Settled`: every session that was opened is in use or was closed, and closed once;
* `Inv.step`, `Reachable.inv`: the invariant of flag, lock, sessions and closings.
-/

namespace NameDirectory.Failover

variable {σ S α : Type}

/-- Whether the next step of an operation is made under the lock. -/
def Stage.needsLock : Stage S α → Bool
  | .obtaining | .replacing _ => true
  | .entering | .applying _ | .reapplying _ | .finished _ => false

/-- How many steps lead to the end of an operation at most. -/
def Stage.remaining : Stage S α → Nat
  | .entering => 5
  | .obtaining => 4
  | .applying _ => 3
  | .replacing _ => 2
  | .reapplying _ => 1
  | .finished _ => 0

theorem Stage.remaining_step {σ' : Type} (env : Environment σ' S) (p : Place σ' S)
    (apply : S → σ' → Except ClientFault α × σ') (stage : Stage S α) (w : σ') :
    (stage.step env p apply w).1.remaining ≤ stage.remaining - 1 := by
  have hobtained : ∀ {r : Except ClientFault (Current S)} {next : Current S → Stage S α} {n : Nat},
      (∀ c, (next c).remaining ≤ n) → (Stage.ofObtained r next).remaining ≤ n := by
    intro r next n hnext
    cases r with
    | ok c => exact hnext c
    | error fault => exact Nat.zero_le n
  cases stage with
  | entering =>
    simp only [Stage.step]
    split <;> simp [remaining]
  | obtaining => exact hobtained fun _ => le_rfl
  | replacing => exact hobtained fun _ => le_rfl
  | applying c =>
    simp only [Stage.step, afterFirst]
    split <;> simp [remaining]
  | reapplying c =>
    simp only [Stage.step, afterSecond]
    split <;> simp [remaining]
  | finished r => exact le_rfl

end NameDirectory.Failover

namespace NameDirectory.Contention

open Failover

variable {σ S α : Type}

/-! ## What is shared -/

/-- A group and its world, in which it is counted what the group asks of the world. -/
structure Shared (σ S : Type) where
  group : Failover.Group (Numbered S)
  world : Recorded σ
  asked : Nat := 0
  connectorClosings : Nat := 0

namespace Shared

def elapse (w : Shared σ S) (world : σ) : Shared σ S := { w with world := { w.world with world } }

def withFlag (w : Shared σ S) (closed : Bool) : Shared σ S :=
  { w with group := { w.group with closed } }

theorem withFlag_of {w : Shared σ S} {closed : Bool} (h : w.group.closed = closed) :
    w.withFlag closed = w := by
  cases h
  rfl

end Shared

def environment (env : Environment σ S) : Environment (Shared σ S) (Numbered S) where
  connect index w :=
    let (r, world) := env.recorded.connect index w.world
    (r, { w with world, asked := w.asked + 1 })
  connected index session w := { w with world := env.recorded.connected index session w.world }
  closeSession session w := { w with world := env.recorded.closeSession session w.world }
  closeConnector w :=
    { w with world := env.recorded.closeConnector w.world,
             connectorClosings := w.connectorClosings + 1 }

def place : Place (Shared σ S) (Numbered S) := ⟨Shared.group, fun group w => { w with group }⟩

/-- What applying an operation to a session does to the world, and to nothing else. -/
def applying (act : S → σ → Except ClientFault α × σ) (session : Numbered S) (w : Shared σ S) :
    Except ClientFault α × Shared σ S :=
  let (outcome, world) := act session.value w.world.world
  (outcome, w.elapse world)

/-! ## Steps -/

structure Call (S α : Type) where
  stage : Stage (Numbered S) α := .entering
  /-- The sessions that it was applied to, the last first. -/
  used : List (Current (Numbered S)) := []

/-- How far a call that closes the group has come. -/
inductive Closing where
  | begun
  /-- The flag was set before, so there is nothing to do. -/
  | idle
  | marked
  | cleared
  | completed
  deriving DecidableEq, Repr

namespace Closing

/-- It is the one that set the flag. -/
def marks : Closing → Bool
  | .marked | .cleared | .completed => true
  | .begun | .idle => false

/-- The session in use was closed by it. -/
def clears : Closing → Bool
  | .cleared | .completed => true
  | .begun | .idle | .marked => false

end Closing

structure State (σ S α : Type) where
  shared : Shared σ S
  /-- The operation that has the lock, with the flag as it read it then. -/
  lock : Option (Nat × Bool) := none
  calls : List (Call S α) := []
  closings : List Closing := []

namespace State

def start (servers : List String) (cursor : Nat) (world : σ) : State σ S α :=
  { shared := { group := { servers, cursor }, world := { world } } }

def proceed (env : Environment σ S) (act : S → σ → Except ClientFault α × σ) (s : State σ S α)
    (k : Nat) (call : Call S α) : State σ S α :=
  let (stage, shared) := call.stage.step (environment env) place (applying act) s.shared
  { s with shared, calls := s.calls.set k ⟨stage, call.stage.current?.toList ++ call.used⟩ }

theorem getElem?_proceed {env : Environment σ S} {act : S → σ → Except ClientFault α × σ}
    {s : State σ S α} {k : Nat} {call : Call S α} (h : s.calls[k]? = some call) :
    (s.proceed env act k call).calls[k]? =
      some ⟨(call.stage.step (environment env) place (applying act) s.shared).1,
        call.stage.current?.toList ++ call.used⟩ :=
  List.getElem?_set_self (List.getElem?_eq_some_iff.mp h).1

/-- Operation `k`, which has the lock and read the flag as `saw`, takes its next step and frees the
lock. -/
def turn (env : Environment σ S) (act : S → σ → Except ClientFault α × σ) (s : State σ S α)
    (k : Nat) (saw : Bool) (call : Call S α) : State σ S α :=
  let s' := proceed env act { s with shared := s.shared.withFlag saw } k call
  { s' with shared := s'.shared.withFlag s.shared.group.closed, lock := none }

end State

/-- What can happen, where `may` says what sessions may answer. Each time that an operation is
applied, `act` is whatever comes of it. -/
inductive Step (env : Environment σ S)
    (may : Ledger → Current (Numbered S) → Except ClientFault α → Prop) :
    State σ S α → State σ S α → Prop
  | ask {s : State σ S α} : Step env may s { s with calls := s.calls ++ [{}] }
  | proceed {s : State σ S α} {k : Nat} {call : Call S α} (act : S → σ → Except ClientFault α × σ)
      (hcall : s.calls[k]? = some call) (hstage : call.stage.needsLock = false)
      (hmay : ∀ c, call.stage.current? = some c →
        may s.shared.world.ledger c (act c.session.value s.shared.world.world).1) :
      Step env may s (s.proceed env act k call)
  /-- Whoever gets the lock reads the flag again. -/
  | lock {s : State σ S α} {k : Nat} {call : Call S α} (hcall : s.calls[k]? = some call)
      (hstage : call.stage.needsLock = true) (hfree : s.lock = none) :
      Step env may s { s with lock := some (k, s.shared.group.closed) }
  | turn {s : State σ S α} {k : Nat} {saw : Bool} {call : Call S α}
      (act : S → σ → Except ClientFault α × σ) (hcall : s.calls[k]? = some call)
      (hstage : call.stage.needsLock = true) (hlock : s.lock = some (k, saw)) :
      Step env may s (s.turn env act k saw call)
  | close {s : State σ S α} : Step env may s { s with closings := s.closings ++ [.begun] }
  | leave {s : State σ S α} {j : Nat} (h : s.closings[j]? = some .begun)
      (hflag : s.shared.group.closed = true) :
      Step env may s { s with closings := s.closings.set j .idle }
  | mark {s : State σ S α} {j : Nat} (h : s.closings[j]? = some .begun)
      (hflag : s.shared.group.closed = false) :
      Step env may s
        { s with shared := s.shared.withFlag true, closings := s.closings.set j .marked }
  | clear {s : State σ S α} {j : Nat} (h : s.closings[j]? = some .marked) (hfree : s.lock = none) :
      Step env may s
        { s with shared := (place.locked (fun g w => ((), g.clear (environment env) w)) s.shared).2,
                 closings := s.closings.set j .cleared }
  | finish {s : State σ S α} {j : Nat} (h : s.closings[j]? = some .cleared) :
      Step env may s
        { s with shared := (environment env).closeConnector s.shared,
                 closings := s.closings.set j .completed }
  /-- Servers come and go. -/
  | elsewhere {s : State σ S α} (world : σ) :
      Step env may s { s with shared := s.shared.elapse world }

variable {env : Environment σ S}
  {may : Ledger → Current (Numbered S) → Except ClientFault α → Prop}

inductive Reachable (env : Environment σ S)
    (may : Ledger → Current (Numbered S) → Except ClientFault α → Prop) : State σ S α → Prop
  | start (servers : List String) (cursor : Nat) (world : σ) :
      Reachable env may (.start servers cursor world)
  | step {s s' : State σ S α} (h : Reachable env may s) (hs : Step env may s s') :
      Reachable env may s'

abbrev Later (env : Environment σ S)
    (may : Ledger → Current (Numbered S) → Except ClientFault α → Prop) :
    State σ S α → State σ S α → Prop :=
  Relation.ReflTransGen (Step env may)

theorem Reachable.now {s : State σ S α} (_ : Reachable env may s) : Later env may s s := .refl

/-! ## What a step does to what is shared -/

/-- An account of the session that is held, which neither time nor the rest of the group matters
to. -/
structure Account (env : Environment σ S) (J : Option (Numbered S) → Shared σ S → Prop) : Prop where
  accounts : (environment env).Accounts J
  set : ∀ {held g w}, J held w → J held { w with group := g }
  elapse : ∀ {held w world}, J held w → J held (w.elapse world)

/-- What is counted of sessions and closed connectors needs to be looked at only where it changes. -/
theorem Account.of {J : Option (Numbered S) → Shared σ S → Prop}
    (hopened : ∀ {w : Shared σ S} {world : σ} {value : S}, J none w →
      J (some ⟨w.world.ledger.opened, value⟩)
        { w with world := ⟨world, w.world.ledger.add⟩, asked := w.asked + 1 })
    (hfailed : ∀ {w : Shared σ S} {world : σ}, J none w →
      J none { w with world := ⟨world, w.world.ledger⟩, asked := w.asked + 1 })
    (hclosed : ∀ {s : Numbered S} {w : Shared σ S} {world : σ}, J (some s) w →
      J none { w with world := ⟨world, w.world.ledger.close [s.number]⟩ })
    (hset : ∀ {held g w}, J held w → J held { w with group := g })
    (helapse : ∀ {held w world}, J held w → J held (w.elapse world)) : Account env J where
  accounts :=
    { opened := fun {index w s w'} hw h => by
        rcases hconnect : env.connect index w.world.world with ⟨fault | value, world⟩
        · simp [environment, recorded_connect_error hconnect] at h
        · simp only [environment, recorded_connect_ok hconnect, Prod.mk.injEq, Except.ok.injEq] at h
          obtain ⟨rfl, rfl⟩ := h
          exact hopened hw
      failed := fun {index w fault w'} hw h => by
        rcases hconnect : env.connect index w.world.world with ⟨fault | value, world⟩
        · simp only [environment, recorded_connect_error hconnect, Prod.mk.injEq] at h
          obtain ⟨-, rfl⟩ := h
          exact hfailed hw
        · simp [environment, recorded_connect_ok hconnect] at h
      connected := helapse
      closeSession := hclosed }
  set := hset
  elapse := helapse

/-- Everything that was opened was closed, and that once, except for the session that is held. -/
def Settled (held : Option (Numbered S)) (w : Shared σ S) : Prop :=
  w.world.ledger.Settles (held.toList.map (·.number))

theorem account_settled (env : Environment σ S) : Account env Settled := by
  refine .of (fun h => ?_) id (fun h => ?_) id id
  · exact Ledger.Settles.add h
  · exact Ledger.Settles.close h

theorem account_connectorClosings (env : Environment σ S) (n : Nat) :
    Account env fun _ w => w.connectorClosings = n :=
  .of id id id id id

theorem account_closed (env : Environment σ S) (n : Nat) :
    Account env fun _ w => n ∈ w.world.ledger.closings :=
  .of id id (List.mem_cons_of_mem _) id id

variable {stage : Stage (Numbered S) α}

/-- An operation that needs the lock makes a turn at the group, to obtain a session or to replace
one. -/
theorem step_of_needsLock (env : Environment σ S) (act : S → σ → Except ClientFault α × σ)
    (h : stage.needsLock = true) (w : Shared σ S) :
    ∃ turn : Failover.Group (Numbered S) → Shared σ S → Except ClientFault (Current (Numbered S)) ×
        Failover.Group (Numbered S) × Shared σ S,
      (turn = Failover.Group.obtain (environment env) ∨
        ∃ epoch, turn = Failover.Group.replace (environment env) (some epoch)) ∧
      (stage.step (environment env) place (applying act) w).2 = (place.locked turn w).2 := by
  cases stage with
  | obtaining => exact ⟨_, .inl rfl, rfl⟩
  | replacing epoch => exact ⟨_, .inr ⟨epoch, rfl⟩, rfl⟩
  | entering | applying | reapplying | finished => cases h

theorem step_of_not_needsLock (env : Environment σ S) (act : S → σ → Except ClientFault α × σ)
    (h : stage.needsLock = false) (w : Shared σ S) :
    ∃ world, (stage.step (environment env) place (applying act) w).2 = w.elapse world := by
  cases stage with
  | entering | finished => exact ⟨w.world.world, rfl⟩
  | applying c | reapplying c => exact ⟨_, rfl⟩
  | obtaining | replacing => cases h

theorem kept_of_needsLock {J : Option (Numbered S) → Shared σ S → Prop} (hJ : Account env J)
    (act : S → σ → Except ClientFault α × σ) (h : stage.needsLock = true) {w : Shared σ S}
    (hw : J w.group.session? w) :
    let w' := (stage.step (environment env) place (applying act) w).2
    J w'.group.session? w' ∧ w'.group.closed = w.group.closed := by
  obtain ⟨turn, hturn, hstep⟩ := step_of_needsLock env act h w
  rw [hstep]
  have haccounts : TurnAccounts J w.group (turn w.group w) := by
    rcases hturn with rfl | ⟨epoch, rfl⟩
    · exact obtain_accounts hJ.accounts hw
    · exact replace_accounts hJ.accounts _ hw
  exact ⟨hJ.set haccounts.account, haccounts.closed⟩

/-- Whoever reads under the lock that the group is closed leaves everything as it is, and is refused
if no session is in use. -/
theorem step_of_seen (env : Environment σ S) (act : S → σ → Except ClientFault α × σ)
    (h : stage.needsLock = true) {w : Shared σ S} (hclosed : w.group.closed = true) :
    (stage.step (environment env) place (applying act) w).2 = w ∧
      (w.group.current = none →
        (stage.step (environment env) place (applying act) w).1 = .finished (.error .closed)) := by
  have hreplace : ∀ failed,
      w.group.replace (environment env) failed w = (.error .closed, w.group, w) := fun failed => by
    simp only [Failover.Group.replace, hclosed, if_true]
  cases stage with
  | obtaining =>
    simp only [Stage.step, Place.locked, place, Failover.Group.obtain]
    cases hc : w.group.current with
    | none =>
      dsimp only
      rw [hreplace]
      exact ⟨rfl, fun _ => rfl⟩
    | some c => exact ⟨rfl, fun h => by cases h⟩
  | replacing epoch =>
    dsimp only [Stage.step, Place.locked, place]
    rw [hreplace]
    exact ⟨rfl, fun _ => rfl⟩
  | entering | applying | reapplying | finished => cases h

/-! ## Nobody interrupts -/

variable {act : S → σ → Except ClientFault α × σ}

theorem later_proceed {s : State σ S α} {k : Nat} {call : Call S α} (hmay : ∀ l c o, may l c o)
    (hcall : s.calls[k]? = some call) (hfree : s.lock = none) :
    Later env may s (s.proceed env act k call) := by
  cases hstage : call.stage.needsLock with
  | false => exact .single (.proceed act hcall hstage fun c _ => hmay _ _ _)
  | true =>
    have hlock : Step env may s { s with lock := some (k, s.shared.group.closed) } :=
      .lock hcall hstage hfree
    refine (Relation.ReflTransGen.single hlock).tail ?_
    have hshared : (s.proceed env act k call).shared.withFlag s.shared.group.closed =
        (s.proceed env act k call).shared :=
      Shared.withFlag_of (kept_of_needsLock (J := fun _ _ => True) (.of id id id id id) act hstage trivial).2
    have hturn : State.turn env act { s with lock := some (k, s.shared.group.closed) } k
        s.shared.group.closed call = s.proceed env act k call :=
      calc
        _ = { s.proceed env act k call with
              shared := (s.proceed env act k call).shared.withFlag s.shared.group.closed
              lock := none } := rfl
        _ = { s.proceed env act k call with lock := s.lock } := by rw [hshared, hfree]
    rw [← hturn]
    exact .turn act hcall hstage rfl

theorem later_go (n : Nat) {s : State σ S α} {k : Nat} {used : List (Current (Numbered S))}
    (hmay : ∀ l c o, may l c o) (hcall : s.calls[k]? = some ⟨stage, used⟩) (hfree : s.lock = none)
    (hn : stage.remaining ≤ n) :
    let (r, w) := run.go (environment env) place (applying act) n stage s.shared
    ∃ s' used', Later env may s s' ∧ s'.calls[k]? = some ⟨.finished r, used'⟩ ∧ s'.shared = w := by
  induction n generalizing s stage used with
  | zero =>
    cases stage with
    | finished r => exact ⟨s, used, .refl, hcall, rfl⟩
    | _ => cases hn
  | succ n ih =>
    rw [go_succ]
    have hremaining := stage.remaining_step (environment env) place (applying act) s.shared
    obtain ⟨s', used', hlater, hended⟩ := ih (State.getElem?_proceed hcall) hfree
      (hremaining.trans (Nat.sub_le_of_le_add hn))
    exact ⟨s', used', .trans (later_proceed hmay hcall hfree) hlater, hended⟩

/-- An operation that nobody interrupts comes to its end as `Failover.run` says. -/
theorem later_run {s : State σ S α} {k : Nat} (hmay : ∀ l c o, may l c o)
    (hcall : s.calls[k]? = some {}) (hfree : s.lock = none) :
    let (r, w) := run (environment env) place (applying act) s.shared
    ∃ s' used, Later env may s s' ∧ s'.calls[k]? = some ⟨.finished r, used⟩ ∧ s'.shared = w :=
  later_go 5 hmay hcall hfree le_rfl

/-- A call that closes, with nobody in between, does what `Failover.close` does. -/
theorem later_close {s : State σ S α} {j : Nat} (hj : s.closings[j]? = some .begun)
    (hfree : s.lock = none) :
    ∃ s', Later env may s s' ∧ s'.shared = close (environment env) place s.shared ∧
      (s'.closings[j]? = some .idle ∨ s'.closings[j]? = some .completed) := by
  have hset : ∀ {closings : List Closing} {c c' : Closing}, closings[j]? = some c →
      (closings.set j c')[j]? = some c' :=
    fun h => List.getElem?_set_self (List.getElem?_eq_some_iff.mp h).1
  cases hflag : s.shared.group.closed with
  | true =>
    refine ⟨_, .single (.leave hj hflag), ?_, .inl (hset hj)⟩
    simp only [close, place, hflag, if_true]
  | false =>
    let marked : State σ S α :=
      { s with shared := s.shared.withFlag true, closings := s.closings.set j .marked }
    let cleared : State σ S α :=
      { marked with
        shared := (place.locked (fun g w => ((), g.clear (environment env) w)) marked.shared).2
        closings := marked.closings.set j .cleared }
    have hmarked : marked.closings[j]? = some .marked := hset hj
    have hcleared : cleared.closings[j]? = some .cleared := hset hmarked
    have hlater : Later env may s cleared :=
      .tail (.single (.mark hj hflag)) (.clear hmarked hfree)
    refine ⟨_, hlater.tail (.finish hcleared), ?_, .inr (hset hcleared)⟩
    simp only [close, place, hflag, Bool.false_eq_true, if_false]
    rfl

/-! ## The invariant -/

theorem countP_set_of_eq {β : Type} {p : β → Bool} {l : List β} {i : Nat} {a b : β}
    (h : l[i]? = some a) (hab : p b = p a) : (l.set i b).countP p = l.countP p := by
  obtain ⟨hlt, rfl⟩ := List.getElem?_eq_some_iff.mp h
  have hpos : p l[i] = true → 0 < l.countP p := fun h =>
    List.countP_pos_iff.mpr ⟨_, List.getElem_mem hlt, h⟩
  rw [List.countP_set hlt, hab]
  split
  · next hp => have := hpos hp; omega
  · rfl

theorem countP_set_of_ne {β : Type} {p : β → Bool} {l : List β} {i : Nat} {a b : β}
    (h : l[i]? = some a) (ha : p a = false) (hb : p b = true) :
    (l.set i b).countP p = l.countP p + 1 := by
  obtain ⟨hlt, rfl⟩ := List.getElem?_eq_some_iff.mp h
  simp [List.countP_set hlt, ha, hb]

structure Inv (s : State σ S α) : Prop where
  settled : Settled s.shared.group.session? s.shared
  /-- The flag was set by one of the calls that close, if it is set. -/
  marked : s.closings.countP Closing.marks = if s.shared.group.closed then 1 else 0
  connector : s.shared.connectorClosings = s.closings.countP (· = .completed)
  /-- What was read of the flag once holds for good. -/
  seen : ∀ k, s.lock = some (k, true) → s.shared.group.closed = true
  /-- Once it is cleared, no session is in use, and nobody is about to open one. -/
  cleared : ∀ c ∈ s.closings, c.clears = true →
    s.shared.group.current = none ∧ ∀ k saw, s.lock = some (k, saw) → saw = true

namespace Inv

variable {s s' : State σ S α}

theorem closed_of_clears (h : Inv s) {c : Closing} (hc : c ∈ s.closings) (hclears : c.clears = true) :
    s.shared.group.closed = true := by
  have hmarks : c.marks = true := by
    cases c with
    | begun | idle | marked => cases hclears
    | cleared | completed => rfl
  have hpos : 0 < s.closings.countP Closing.marks := List.countP_pos_iff.mpr ⟨c, hc, hmarks⟩
  by_contra hopen
  rw [h.marked, if_neg hopen] at hpos
  omega

theorem open_of_nobody (h : Inv s) (hnone : s.closings = []) : s.shared.group.closed = false := by
  have hmarked := h.marked
  rw [hnone] at hmarked
  by_contra hclosed
  rw [if_pos (by simpa using hclosed)] at hmarked
  cases hmarked

theorem connectorClosings_le (h : Inv s) : s.shared.connectorClosings ≤ 1 := by
  have hle : s.closings.countP (· = .completed) ≤ s.closings.countP Closing.marks :=
    List.countP_mono_left fun c _ hc => by
      obtain rfl : c = .completed := by simpa using hc
      rfl
  rw [h.connector]
  refine hle.trans (h.marked.trans_le ?_)
  split <;> omega

theorem set_closing (h : Inv s) {j : Nat} {c c' : Closing} (hj : s.closings[j]? = some c)
    (hmarks : c'.marks = c.marks) (hcompleted : c ≠ .completed ∧ c' ≠ .completed)
    (hclears : c'.clears = c.clears) : Inv { s with closings := s.closings.set j c' } := by
  refine { h with
    marked := (countP_set_of_eq hj hmarks).trans h.marked
    connector := h.connector.trans (countP_set_of_eq hj (by simp [hcompleted])).symm
    cleared := fun x hx hxclears => ?_ }
  rcases List.mem_or_eq_of_mem_set hx with hx | rfl
  · exact h.cleared x hx hxclears
  · exact h.cleared c (List.mem_of_getElem? hj) (hclears ▸ hxclears)

theorem elapse (h : Inv s) {world : σ} (hshared : s'.shared = s.shared.elapse world)
    (hlock : s'.lock = s.lock) (hclosings : s'.closings = s.closings) : Inv s' := by
  obtain ⟨shared, lock, calls, closings⟩ := s'
  obtain rfl : shared = _ := hshared
  obtain rfl : lock = _ := hlock
  obtain rfl : closings = _ := hclosings
  exact { h with }

theorem turn (h : Inv s) {k : Nat} {saw : Bool} {call : Call S α}
    (hstage : call.stage.needsLock = true) (hlock : s.lock = some (k, saw)) :
    Inv (s.turn env act k saw call) := by
  have hsettled := kept_of_needsLock (w := s.shared.withFlag saw) (account_settled env) act hstage
    h.settled
  have hconnector := kept_of_needsLock (w := s.shared.withFlag saw)
    (account_connectorClosings env s.shared.connectorClosings) act hstage rfl
  refine ⟨hsettled.1, h.marked, hconnector.1.trans h.connector, fun _ hk => (nomatch hk),
    fun c hc hclears => ⟨?_, fun _ _ hk => nomatch hk⟩⟩
  obtain ⟨hnone, hsaw⟩ := h.cleared c hc hclears
  obtain rfl := hsaw k saw hlock
  have hkept := (step_of_seen env act (w := s.shared.withFlag true) hstage rfl).1
  exact (congrArg (fun w : Shared σ S => w.group.current) hkept).trans hnone

theorem mark (h : Inv s) {j : Nat} (hj : s.closings[j]? = some .begun)
    (hopen : s.shared.group.closed = false) :
    Inv { s with shared := s.shared.withFlag true, closings := s.closings.set j .marked } where
  settled := h.settled
  marked := by
    have hmarked := h.marked
    rw [if_neg (by simp [hopen])] at hmarked
    rw [countP_set_of_ne hj rfl rfl, hmarked]
    rfl
  connector := h.connector.trans (countP_set_of_eq hj (by decide)).symm
  seen _ _ := rfl
  cleared c hc hclears := by
    rcases List.mem_or_eq_of_mem_set hc with hc | rfl
    · exact h.cleared c hc hclears
    · cases hclears

theorem clear (h : Inv s) {j : Nat} (hj : s.closings[j]? = some .marked) (hfree : s.lock = none) :
    Inv { s with
      shared := (place.locked (fun g w => ((), g.clear (environment env) w)) s.shared).2
      closings := s.closings.set j .cleared } := by
  obtain ⟨hclosed, hnone, hsettled⟩ :=
    clear_accounts (account_settled env).accounts h.settled
  obtain ⟨-, -, hconnector⟩ := clear_accounts (g := s.shared.group)
    (account_connectorClosings env s.shared.connectorClosings).accounts rfl
  refine ⟨?_, ?_, ?_, fun k hk => ?_, fun c _ _ => ⟨hnone, fun k saw hk => ?_⟩⟩
  · simp only [Place.locked, place, Failover.Group.session?, hnone]
    exact hsettled
  · refine (countP_set_of_eq (b := .cleared) hj rfl).trans (h.marked.trans ?_)
    simp only [Place.locked, place, hclosed]
  · exact hconnector.trans (h.connector.trans (countP_set_of_eq hj (by decide)).symm)
  · cases hfree.symm.trans hk
  · cases hfree.symm.trans hk

theorem finish (h : Inv s) {j : Nat} (hj : s.closings[j]? = some .cleared) :
    Inv { s with shared := (environment env).closeConnector s.shared,
                 closings := s.closings.set j .completed } where
  settled := h.settled
  marked := (countP_set_of_eq (b := .completed) hj rfl).trans h.marked
  connector := by
    rw [countP_set_of_ne hj (by decide) (by decide), ← h.connector]
    rfl
  seen := h.seen
  cleared c hc hclears := by
    rcases List.mem_or_eq_of_mem_set hc with hc | rfl
    · exact h.cleared c hc hclears
    · exact h.cleared .cleared (List.mem_of_getElem? hj) rfl

theorem step (h : Inv s) (hs : Step env may s s') : Inv s' := by
  cases hs with
  | ask => exact { h with }
  | @proceed k call act _ hstage _ =>
    obtain ⟨world, hworld⟩ := step_of_not_needsLock env act hstage s.shared
    exact h.elapse hworld rfl rfl
  | lock _ _ hfree =>
    refine { h with
      seen := fun k hk => (Prod.mk.inj (Option.some.inj hk)).2
      cleared := fun c hc hclears => ⟨(h.cleared c hc hclears).1, fun k saw hk => ?_⟩ }
    cases hk
    exact h.closed_of_clears hc hclears
  | turn act _ hstage hlock => exact h.turn hstage hlock
  | close =>
    refine { h with
      marked := by simp [h.marked, Closing.marks]
      connector := by simp [h.connector]
      cleared := fun c hc hclears => ?_ }
    rcases List.mem_append.mp hc with hc | hc
    · exact h.cleared c hc hclears
    · obtain rfl := List.mem_singleton.mp hc
      cases hclears
  | leave hj _ => exact h.set_closing hj rfl (by decide) rfl
  | mark hj hopen => exact h.mark hj hopen
  | clear hj hfree => exact h.clear hj hfree
  | finish hj => exact h.finish hj
  | elsewhere world => exact h.elapse rfl rfl rfl

end Inv

theorem Inv.start (servers : List String) (cursor : Nat) (world : σ) :
    Inv (.start servers cursor world : State σ S α) where
  settled := Ledger.settles_empty
  marked := rfl
  connector := rfl
  seen _ h := nomatch h
  cleared _ h := nomatch h

theorem Reachable.inv {s : State σ S α} (h : Reachable env may s) : Inv s := by
  induction h with
  | start servers cursor world => exact .start servers cursor world
  | step _ hs ih => exact ih.step hs

/-- An environment in which all servers accept; a session is the index of its server. -/
def willing : Environment Unit Nat where
  connect index _ := (.ok index, ())
  connected _ _ _ := ()
  closeSession _ _ := ()
  closeConnector _ := ()

end NameDirectory.Contention
