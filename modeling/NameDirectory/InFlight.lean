import NameDirectory.Fault

/-!
# Requests in flight

The requests of one channel that wait for a response.  Each has a number, from 1
upwards and back to 1 after the largest, that no other waiting request has; number
0 is never given.  An outcome goes to the mailbox of the request with its number,
which holds one outcome at a time; the mailbox outlives the number, so that an
outcome which arrived can still be read.
-/

namespace NameDirectory

abbrev Outcome := Except ClientFault Reply

/-- A request that waits: its number, the ticket of its mailbox, and the name it was made with. -/
structure Waiter where
  number : Int32
  ticket : Nat
  captured : Option Name
  deriving DecidableEq, Repr

structure Reservation where
  number : Int32
  ticket : Nat
  deriving DecidableEq, Repr

structure InFlight where
  next : Int32 := 1
  tickets : Nat := 0
  waiting : List Waiter := []
  /-- Outcomes by ticket that were not yet read. -/
  mail : List (Nat × Outcome) := []

namespace InFlight

def waiter? (t : InFlight) (number : Int32) : Option Waiter :=
  t.waiting.find? (·.number = number)

def isTaken (t : InFlight) (number : Int32) : Bool := (t.waiter? number).isSome

def size (t : InFlight) : Nat := t.waiting.length

def mail? (t : InFlight) (ticket : Nat) : Option Outcome :=
  (t.mail.find? (·.1 = ticket)).map (·.2)

/-! ## Numbers -/

/-- The number that stands for `n`: 1 for what is no number. -/
def firstFrom (n : Int32) : Int32 := if n < 1 then 1 else n

theorem one_le_firstFrom (n : Int32) : 1 ≤ firstFrom n := by
  simp only [firstFrom]; split
  · decide
  · next h => exact Int32.not_lt.mp h

/-- The first free number from `n` on, and the one to be tried after it.  Each number passed
over is taken, so `waiting.length` passes are enough. -/
def allocate (taken : Int32 → Bool) : Nat → Int32 → Int32 × Int32
  | 0, n => (firstFrom n, firstFrom n + 1)
  | passes + 1, n =>
    if taken (firstFrom n) then allocate taken passes (firstFrom n + 1)
    else (firstFrom n, firstFrom n + 1)

def reserve (t : InFlight) (captured : Option Name) : Reservation × InFlight :=
  let (number, next) := allocate t.isTaken t.waiting.length t.next
  let r : Reservation := ⟨number, t.tickets⟩
  (r, { t with next, tickets := t.tickets + 1,
               waiting := ⟨number, t.tickets, captured⟩ :: t.waiting })

/-- Free a number; an outcome in the mailbox stays. -/
def release (t : InFlight) (number : Int32) : InFlight :=
  { t with waiting := t.waiting.filter (·.number ≠ number) }

/-! ## Outcomes -/

/-- Put an outcome into a mailbox, if that is empty. -/
def post (t : InFlight) (ticket : Nat) (o : Outcome) : Bool × InFlight :=
  if (t.mail? ticket).isSome then (false, t)
  else (true, { t with mail := (ticket, o) :: t.mail })

/-- Give the request with this number what `outcome` makes of its name; false if there is no
such request or it has an outcome already. -/
def complete (t : InFlight) (number : Int32) (outcome : Option Name → Outcome) :
    Bool × InFlight :=
  match t.waiter? number with
  | none => (false, t)
  | some w => t.post w.ticket (outcome w.captured)

/-- Give every request that has no outcome yet this fault. -/
def failAll (t : InFlight) (fault : ClientFault) : InFlight :=
  t.waiting.foldl (fun t w => (t.post w.ticket (.error fault)).2) t

inductive Mail where
  | outcome (o : Outcome)
  | empty
  /-- There is no outcome and none can come. -/
  | disconnected

def receive (t : InFlight) (r : Reservation) : Mail × InFlight :=
  match t.mail? r.ticket with
  | some o => (.outcome o, { t with mail := t.mail.filter (·.1 ≠ r.ticket) })
  | none => (if t.waiting.any (·.ticket = r.ticket) then .empty else .disconnected, t)

def drop (t : InFlight) (r : Reservation) : InFlight :=
  let t := t.release r.number
  { t with mail := t.mail.filter (·.1 ≠ r.ticket) }

end InFlight

end NameDirectory
