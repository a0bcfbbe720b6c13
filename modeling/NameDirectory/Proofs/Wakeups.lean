import Mathlib.Logic.Relation
import NameDirectory.Proofs.Hangup

/-!
# Nobody waits on a channel that ended

Callers of a proxy and the end of its channel, as a step relation (`Step`).  A caller finds the
proxy open, takes a number, looks for the mark of a lost channel, sends its frame and waits; the
receiver sets the mark and then fails all requests that wait.  Each of these is a step of its own,
and steps may come in any order.

* `Booked`: who has a number is in the table, under that number and with that mailbox;
* `Inv.step`, `Reachable.inv`: once the receiver is done, who has a number has an outcome or does
  not come to wait;
* `nobody_left_waiting`: so nobody waits with an empty mailbox.
-/

namespace NameDirectory

namespace InFlight

variable {t t' : InFlight}

theorem isSome_mail?_post (t : InFlight) (k : Nat) (o : Outcome) :
    ((t.post k o).2.mail? k).isSome := by
  unfold post
  split
  · assumption
  · simp [mail?]

/-- A mailbox holds something once one of several outcomes was put there, or if it did before. -/
theorem isSome_mail?_foldl_post {k : Nat} (ws : List Waiter) (o : Outcome)
    (h : (t.mail? k).isSome ∨ ∃ w ∈ ws, w.ticket = k) :
    ((ws.foldl (fun t w => (t.post w.ticket o).2) t).mail? k).isSome := by
  induction ws generalizing t with
  | nil => simpa using h
  | cons x ws ih =>
    refine ih ?_
    rcases h with hsome | ⟨w, hw, rfl⟩
    · obtain ⟨o', ho'⟩ := Option.isSome_iff_exists.mp hsome
      exact .inl (by rw [mail?_post_of_some ho']; rfl)
    · rcases List.mem_cons.mp hw with rfl | hw
      · exact .inl (isSome_mail?_post t w.ticket o)
      · exact .inr ⟨w, hw, rfl⟩

theorem isSome_mail?_failAll {w : Waiter} (hw : w ∈ t.waiting) (fault : ClientFault) :
    ((t.failAll fault).mail? w.ticket).isSome :=
  isSome_mail?_foldl_post t.waiting (.error fault) (.inr ⟨w, hw, rfl⟩)

theorem receive_of_mail {v : Reservation} {o : Outcome} (h : t.mail? v.ticket = some o) :
    (t.receive v).1 = .outcome o := by
  unfold receive
  rw [h]

end InFlight

namespace Wakeup

/-! ## Callers and the end of the channel -/

inductive Exit where
  | took (o : Outcome)
  /-- It failed before it waited. -/
  | failed (fault : TransportFault)
  | timedOut
  | cutOff

inductive Stage where
  | entered
  | reserved (v : Reservation)
  /-- The mark was not seen. -/
  | cleared (v : Reservation)
  | waiting (v : Reservation)
  /-- The end is known, and the number not free yet. -/
  | leaving (v : Reservation) (exit : Exit)
  | gone (exit : Exit)

/-- What was reserved and not given up. -/
def Stage.reservation? : Stage → Option Reservation
  | entered | gone _ => none
  | reserved v | cleared v | waiting v | leaving v _ => some v

structure Call where
  request : Request
  stage : Stage

inductive Receiver where
  | running
  /-- The mark is set. -/
  | marked
  /-- The requests that waited have been failed. -/
  | finished
  deriving DecidableEq, Repr

structure State where
  proxy : Proxy
  link : Connection
  receiver : Receiver := .running
  calls : List Call := []
  /-- Outcomes that workers have ready, with the requests they are for. -/
  found : List (Waiter × Outcome) := []

def State.advance (s : State) (k : Nat) (stage : Stage) : State :=
  { s with calls := s.calls.modify k fun c => { c with stage } }

def Stage.afterLook (lost : Bool) (v : Reservation) : Stage :=
  if lost then .leaving v (.failed .channelClosed) else .cleared v

def Stage.afterSending (v : Reservation) : Except TransportFault Unit → Stage
  | .ok () => .waiting v
  | .error fault => .leaving v (.failed fault)

inductive Step : State → State → Prop
  | enter {s : State} (r : Request) (h : s.proxy.closed = false) :
      Step s { s with calls := s.calls ++ [⟨r, .entered⟩] }
  /-- The search for a number only ends at one that is free. -/
  | reserve {s : State} {c : Call} (k : Nat) (hc : s.calls[k]? = some c)
      (hstage : c.stage = .entered)
      (hfree : s.proxy.table.isTaken (s.proxy.allot c.request).1.number = false) :
      Step s { s.advance k (.reserved (s.proxy.allot c.request).1) with
               proxy := (s.proxy.allot c.request).2 }
  | look {s : State} {c : Call} {v : Reservation} (k : Nat) (hc : s.calls[k]? = some c)
      (hstage : c.stage = .reserved v) : Step s (s.advance k (.afterLook s.proxy.lost v))
  | send {s : State} {c : Call} {v : Reservation} (k : Nat) (hc : s.calls[k]? = some c)
      (hstage : c.stage = .cleared v) :
      Step s { s.advance k (.afterSending v (s.proxy.transmit v c.request s.link).1) with
               link := (s.proxy.transmit v c.request s.link).2 }
  | take {s : State} {c : Call} {v : Reservation} {o : Outcome} {table : InFlight} (k : Nat)
      (hc : s.calls[k]? = some c) (hstage : c.stage = .waiting v)
      (h : s.proxy.table.receive v = (.outcome o, table)) :
      Step s { s.advance k (.leaving v (.took o)) with proxy := { s.proxy with table } }
  | giveUp {s : State} {c : Call} {v : Reservation} {table : InFlight} (k : Nat)
      (hc : s.calls[k]? = some c) (hstage : c.stage = .waiting v)
      (h : s.proxy.table.receive v = (.empty, table)) :
      Step s (s.advance k (.leaving v .timedOut))
  | cutOff {s : State} {c : Call} {v : Reservation} {table : InFlight} (k : Nat)
      (hc : s.calls[k]? = some c) (hstage : c.stage = .waiting v)
      (h : s.proxy.table.receive v = (.disconnected, table)) :
      Step s (s.advance k (.leaving v .cutOff))
  | release {s : State} {c : Call} {v : Reservation} {exit : Exit} (k : Nat)
      (hc : s.calls[k]? = some c) (hstage : c.stage = .leaving v exit) :
      Step s { s.advance k (.gone exit) with proxy := s.proxy.release v }
  | mark {s : State} (h : s.receiver = .running) :
      Step s { s with receiver := .marked, proxy := s.proxy.markLost }
  | fail {s : State} (h : s.receiver = .marked) :
      Step s { s with receiver := .finished, proxy := s.proxy.failWaiting }
  /-- A worker looks up whose a response is, and reads it. -/
  | find {s : State} {w : Waiter} (number : Int32) (outcome : Option Name → Outcome)
      (h : s.proxy.table.waiter? number = some w) :
      Step s { s with found := (w, outcome w.captured) :: s.found }
  | post {s : State} {w : Waiter} {o : Outcome} (h : (w, o) ∈ s.found) :
      Step s { s with found := s.found.erase (w, o),
                      proxy := { s.proxy with table := (s.proxy.table.post w.ticket o).2 } }
  | close {s : State} :
      Step s { s with proxy := (s.proxy.close s.link).1, link := (s.proxy.close s.link).2 }
  /-- Packets arrive, other channels use the connection, or it ends. -/
  | elsewhere {s : State} (link : Connection) : Step s { s with link }

inductive Reachable : State → Prop
  | start (channel : Channel) (patience : Span) (link : Connection) :
      Reachable { proxy := { channel, patience }, link }
  | step {s s' : State} (h : Reachable s) (hs : Step s s') : Reachable s'

/-! ## Who has a number -/

variable {calls calls' : List Call} {t t' : InFlight}

/-- The caller with this index has a number, and the mailbox that goes with it. -/
def Holds (calls : List Call) (k : Nat) (v : Reservation) : Prop :=
  ∃ c, calls[k]? = some c ∧ c.stage.reservation? = some v

theorem getElem?_advance (s : State) (k : Nat) (stage : Stage) (j : Nat) :
    (s.advance k stage).calls[j]? =
      s.calls[j]?.map fun c => if k = j then { c with stage } else c :=
  List.getElem?_modify _ _ _ _

theorem call_of_advance {s : State} {j k : Nat} {c d : Call} {stage : Stage}
    (hc : s.calls[k]? = some c) (hd : (s.advance k stage).calls[j]? = some d) :
    k = j ∧ d = { c with stage } ∨ k ≠ j ∧ s.calls[j]? = some d := by
  rw [getElem?_advance] at hd
  obtain ⟨d', hd', rfl⟩ := Option.map_eq_some_iff.mp hd
  by_cases hjk : k = j
  · subst hjk
    obtain rfl := Option.some.inj (hc.symm.trans hd')
    exact .inl ⟨rfl, if_pos rfl⟩
  · rw [if_neg hjk]
    exact .inr ⟨hjk, hd'⟩

theorem holds_of_advance {s : State} {j k : Nat} {c : Call} {stage : Stage} {v : Reservation}
    (hc : s.calls[k]? = some c) (h : Holds (s.advance k stage).calls j v) :
    k = j ∧ stage.reservation? = some v ∨ k ≠ j ∧ Holds s.calls j v := by
  obtain ⟨d, hd, hv⟩ := h
  rcases call_of_advance hc hd with ⟨rfl, rfl⟩ | ⟨hjk, hd⟩
  · exact .inl ⟨rfl, hv⟩
  · exact .inr ⟨hjk, d, hd, hv⟩

/-- Whoever has a number is in the table under it, and shares neither number nor mailbox. -/
structure Booked (calls : List Call) (t : InFlight) : Prop where
  listed : ∀ k v, Holds calls k v → ∃ w ∈ t.waiting, w.number = v.number ∧ w.ticket = v.ticket
  fresh : ∀ k v, Holds calls k v → v.ticket < t.tickets
  apart : ∀ j k u v, Holds calls j u → Holds calls k v → j ≠ k →
    u.number ≠ v.number ∧ u.ticket ≠ v.ticket

namespace Booked

theorem mono (h : Booked calls t) (hholds : ∀ k v, Holds calls' k v → Holds calls k v)
    (hsame : InFlight.SameNumbers t t') : Booked calls' t' where
  listed k v hv := hsame.waiting ▸ h.listed k v (hholds k v hv)
  fresh k v hv := hsame.tickets ▸ h.fresh k v (hholds k v hv)
  apart j k u v hu hv hjk := h.apart j k u v (hholds j u hu) (hholds k v hv) hjk

theorem reserve {s : State} {k : Nat} {c : Call} {captured : Option Name}
    (h : Booked s.calls t) (hc : s.calls[k]? = some c)
    (hfree : t.isTaken (t.reserve captured).1.number = false) :
    Booked (s.advance k (.reserved (t.reserve captured).1)).calls (t.reserve captured).2 := by
  have hwaiting : (t.reserve captured).2.waiting =
      ⟨(t.reserve captured).1.number, t.tickets, captured⟩ :: t.waiting := rfl
  have hfree : ∀ w ∈ t.waiting, w.number ≠ (t.reserve captured).1.number := by
    simpa [InFlight.isTaken, InFlight.waiter?] using hfree
  -- whoever had a number has another one, and another mailbox
  have hothers : ∀ j u, Holds s.calls j u → u.number ≠ (t.reserve captured).1.number ∧
      u.ticket ≠ (t.reserve captured).1.ticket := by
    intro j u hu
    obtain ⟨w, hw, hnumber, -⟩ := h.listed j u hu
    exact ⟨hnumber ▸ hfree w hw, Nat.ne_of_lt (h.fresh j u hu)⟩
  constructor
  · intro j v hv
    rw [hwaiting]
    rcases holds_of_advance hc hv with ⟨-, hv⟩ | ⟨-, hv⟩
    · cases hv
      exact ⟨_, List.mem_cons_self, rfl, rfl⟩
    · obtain ⟨w, hw, hsame⟩ := h.listed j v hv
      exact ⟨w, List.mem_cons_of_mem _ hw, hsame⟩
  · intro j v hv
    rcases holds_of_advance hc hv with ⟨-, hv⟩ | ⟨-, hv⟩
    · cases hv
      exact Nat.lt_succ_self _
    · exact Nat.lt_succ_of_lt (h.fresh j v hv)
  · intro i j u v hu hv hij
    rcases holds_of_advance hc hu with ⟨rfl, hnew⟩ | ⟨hi, hu⟩
    · obtain rfl := Option.some.inj hnew
      rcases holds_of_advance hc hv with ⟨rfl, -⟩ | ⟨-, hv⟩
      · exact absurd rfl hij
      · exact (hothers j v hv).imp Ne.symm Ne.symm
    · rcases holds_of_advance hc hv with ⟨rfl, hnew⟩ | ⟨-, hv⟩
      · obtain rfl := Option.some.inj hnew
        exact hothers i u hu
      · exact h.apart i j u v hu hv hij

theorem drop {s : State} {k : Nat} {c : Call} {v : Reservation} {exit : Exit}
    (h : Booked s.calls t) (hc : s.calls[k]? = some c) (hv : c.stage.reservation? = some v) :
    Booked (s.advance k (.gone exit)).calls (t.drop v) := by
  have hholds : ∀ j u, Holds (s.advance k (.gone exit)).calls j u → k ≠ j ∧ Holds s.calls j u := by
    intro j u hu
    rcases holds_of_advance hc hu with ⟨-, hnone⟩ | hu
    · cases hnone
    · exact hu
  constructor
  · intro j u hu
    obtain ⟨hjk, hu⟩ := hholds j u hu
    obtain ⟨w, hw, hnumber, hticket⟩ := h.listed j u hu
    have hapart := (h.apart k j v u ⟨c, hc, hv⟩ hu hjk).1
    refine ⟨w, List.mem_filter.mpr ⟨hw, ?_⟩, hnumber, hticket⟩
    simpa [hnumber] using hapart.symm
  · intro j u hu
    exact h.fresh j u (hholds j u hu).2
  · intro i j u u' hu hu' hij
    exact h.apart i j u u' (hholds i u hu).2 (hholds j u' hu').2 hij

end Booked

/-! ## The invariant -/

/-- A caller that has a number has an outcome or took it; or it did not look for the mark yet, or
failed before it waited. -/
inductive Served (stage : Stage) (v : Reservation) (t : InFlight) : Prop
  | answered (h : (t.mail? v.ticket).isSome)
  | took (o : Outcome) (h : stage = .leaving v (.took o))
  | unlooked (h : stage = .reserved v)
  | refused (h : stage = .leaving v (.failed .channelClosed))

structure Inv (s : State) : Prop where
  booked : Booked s.calls s.proxy.table
  marked : s.receiver ≠ .running → s.proxy.lost = true
  served : s.receiver = .finished → ∀ (k : Nat) (c : Call) (v : Reservation),
    s.calls[k]? = some c → c.stage.reservation? = some v → Served c.stage v s.proxy.table

namespace Served

theorem of_mail {stage : Stage} {v : Reservation} (h : Served stage v t)
    (hmail : ∀ o, t.mail? v.ticket = some o → (t'.mail? v.ticket).isSome) : Served stage v t' := by
  cases h with
  | answered hsome =>
    obtain ⟨o, ho⟩ := Option.isSome_iff_exists.mp hsome
    exact .answered (hmail o ho)
  | took o hstage => exact .took o hstage
  | unlooked hstage => exact .unlooked hstage
  | refused hstage => exact .refused hstage

end Served

namespace Inv

variable {s s' : State}

theorem start (channel : Channel) (patience : Span) (link : Connection) :
    Inv { proxy := { channel, patience }, link } where
  booked :=
    { listed := fun _ _ ⟨_, hc, _⟩ => nomatch hc
      fresh := fun _ _ ⟨_, hc, _⟩ => nomatch hc
      apart := fun _ _ _ _ ⟨_, hc, _⟩ => nomatch hc }
  marked h := absurd rfl h
  served h := nomatch h

theorem advance (h : Inv s) {k : Nat} {c : Call} {stage : Stage} {v : Reservation}
    {table : InFlight} (hc : s.calls[k]? = some c) (hv : c.stage.reservation? = some v)
    (hstage : stage.reservation? = some v) (hsame : InFlight.SameNumbers s.proxy.table table)
    (hothers : ∀ j, v.ticket ≠ j → table.mail? j = s.proxy.table.mail? j)
    (hserved : s.receiver = .finished → Served stage v table) :
    Inv { s.advance k stage with proxy := { s.proxy with table } } := by
  have hholds : ∀ j u, Holds (s.advance k stage).calls j u → Holds s.calls j u := by
    intro j u hu
    rcases holds_of_advance hc hu with ⟨rfl, hsame⟩ | ⟨-, hu⟩
    · exact ⟨c, hc, hv.trans (hstage.symm.trans hsame)⟩
    · exact hu
  refine ⟨h.booked.mono hholds hsame, h.marked, fun hfinished j d u hd hu => ?_⟩
  rcases call_of_advance hc hd with ⟨rfl, rfl⟩ | ⟨hjk, hd⟩
  · obtain rfl := Option.some.inj (hstage.symm.trans hu)
    exact hserved hfinished
  · have hapart := (h.booked.apart k j v u ⟨c, hc, hv⟩ ⟨d, hd, hu⟩ hjk).2
    refine (h.served hfinished j d u hd hu).of_mail fun o ho => ?_
    rw [hothers _ hapart, ho]
    rfl

/-- The table keeps its numbers, and no mailbox is emptied. -/
theorem retable (h : Inv s) {table : InFlight} (hsame : InFlight.SameNumbers s.proxy.table table)
    (hmail : ∀ k o, s.proxy.table.mail? k = some o → table.mail? k = some o) :
    Inv { s with proxy := { s.proxy with table } } where
  booked := h.booked.mono (fun _ _ hv => hv) hsame
  marked := h.marked
  served hfinished k c v hc hv :=
    (h.served hfinished k c v hc hv).of_mail fun o ho => by rw [hmail _ o ho]; rfl

theorem enter (h : Inv s) (r : Request) : Inv { s with calls := s.calls ++ [⟨r, .entered⟩] } := by
  have hcall : ∀ {k : Nat} {c : Call} {v : Reservation},
      (s.calls ++ [⟨r, .entered⟩])[k]? = some c → c.stage.reservation? = some v →
      s.calls[k]? = some c := by
    intro k c v hc hv
    rcases getElem?_snoc hc with hc | ⟨-, rfl⟩
    · exact hc
    · cases hv
  have hholds : ∀ k v, Holds (s.calls ++ [⟨r, .entered⟩]) k v → Holds s.calls k v :=
    fun k v ⟨c, hc, hv⟩ => ⟨c, hcall hc hv, hv⟩
  exact
    { booked := h.booked.mono hholds ⟨rfl, rfl, rfl⟩
      marked := h.marked
      served := fun hfinished k c v hc hv => h.served hfinished k c v (hcall hc hv) hv }

theorem reserve (h : Inv s) {k : Nat} {c : Call} (hc : s.calls[k]? = some c)
    (hfree : s.proxy.table.isTaken (s.proxy.allot c.request).1.number = false) :
    Inv { s.advance k (.reserved (s.proxy.allot c.request).1) with
          proxy := (s.proxy.allot c.request).2 } where
  booked := h.booked.reserve hc hfree
  marked := h.marked
  served hfinished j d v hd hv := by
    rcases call_of_advance hc hd with ⟨rfl, rfl⟩ | ⟨-, hd⟩
    · obtain rfl := Option.some.inj hv
      exact .unlooked rfl
    · exact (h.served hfinished j d v hd hv).of_mail fun o ho => Option.isSome_of_eq_some ho

theorem release (h : Inv s) {k : Nat} {c : Call} {v : Reservation} {exit : Exit}
    (hc : s.calls[k]? = some c) (hv : c.stage.reservation? = some v) :
    Inv { s.advance k (.gone exit) with proxy := s.proxy.release v } where
  booked := h.booked.drop hc hv
  marked := h.marked
  served hfinished j d u hd hu := by
    rcases call_of_advance hc hd with ⟨rfl, rfl⟩ | ⟨hjk, hd⟩
    · cases hu
    · have hapart := (h.booked.apart k j v u ⟨c, hc, hv⟩ ⟨d, hd, hu⟩ hjk).2
      refine (h.served hfinished j d u hd hu).of_mail fun o ho => ?_
      have hmail : (s.proxy.table.drop v).mail? u.ticket = s.proxy.table.mail? u.ticket :=
        InFlight.mail?_filter_of_ne hapart (s.proxy.table.release v.number)
      exact Option.isSome_of_eq_some (hmail.trans ho)

/-- All who have a number are in the table, so all of them get an outcome. -/
theorem fail (h : Inv s) (hreceiver : s.receiver = .marked) :
    Inv { s with receiver := .finished, proxy := s.proxy.failWaiting } where
  booked := h.booked.mono (fun _ _ hv => hv) (InFlight.failAll_spec _ _).1
  marked _ := h.marked (by simp [hreceiver])
  served _ k c v hc hv := by
    obtain ⟨w, hw, -, hticket⟩ := h.booked.listed k v ⟨c, hc, hv⟩
    exact .answered (hticket ▸ InFlight.isSome_mail?_failAll hw _)

theorem stay (h : Inv s) {k : Nat} {c : Call} {stage : Stage} {v : Reservation}
    (hc : s.calls[k]? = some c) (hv : c.stage.reservation? = some v)
    (hstage : stage.reservation? = some v)
    (hserved : s.receiver = .finished → Served stage v s.proxy.table) :
    Inv (s.advance k stage) :=
  h.advance hc hv hstage ⟨rfl, rfl, rfl⟩ (fun _ _ => rfl) hserved

/-- Whoever did not see the mark, and is not leaving, has an outcome once the receiver is done. -/
theorem isSome_mail? (h : Inv s) (hfinished : s.receiver = .finished) {k : Nat} {c : Call}
    {v : Reservation} (hc : s.calls[k]? = some c)
    (hstage : c.stage = .cleared v ∨ c.stage = .waiting v) :
    (s.proxy.table.mail? v.ticket).isSome := by
  have hv : c.stage.reservation? = some v := by
    rcases hstage with hstage | hstage <;> rw [hstage] <;> rfl
  cases h.served hfinished k c v hc hv with
  | answered hsome => exact hsome
  | took o htook => simp [htook] at hstage
  | unlooked hreserved => simp [hreserved] at hstage
  | refused hleaving => simp [hleaving] at hstage

/-- Once the receiver is done the mark is set, so that who looks for it then is refused. -/
theorem look (h : Inv s) {k : Nat} {c : Call} {v : Reservation} (hc : s.calls[k]? = some c)
    (hstage : c.stage = .reserved v) : Inv (s.advance k (.afterLook s.proxy.lost v)) := by
  have hkeeps : ∀ lost, (Stage.afterLook lost v).reservation? = some v := by
    intro lost
    cases lost <;> rfl
  refine h.stay hc (by rw [hstage]; rfl) (hkeeps _) fun hfinished => ?_
  have hlost : s.proxy.lost = true := h.marked (by simp [hfinished])
  exact .refused (by rw [hlost]; rfl)

theorem send (h : Inv s) {k : Nat} {c : Call} {v : Reservation} (hc : s.calls[k]? = some c)
    (hstage : c.stage = .cleared v) :
    Inv { s.advance k (.afterSending v (s.proxy.transmit v c.request s.link).1) with
          link := (s.proxy.transmit v c.request s.link).2 } := by
  have hkeeps : ∀ sent, (Stage.afterSending v sent).reservation? = some v := by
    intro sent
    cases sent <;> rfl
  have hstay := h.stay hc (by rw [hstage]; rfl) (hkeeps (s.proxy.transmit v c.request s.link).1)
    fun hfinished => .answered (h.isSome_mail? hfinished hc (.inl hstage))
  exact { hstay with }

theorem take (h : Inv s) {k : Nat} {c : Call} {v : Reservation} {o : Outcome} {table : InFlight}
    (hc : s.calls[k]? = some c) (hstage : c.stage = .waiting v)
    (ht : s.proxy.table.receive v = (.outcome o, table)) :
    Inv { s.advance k (.leaving v (.took o)) with proxy := { s.proxy with table } } := by
  obtain rfl : (s.proxy.table.receive v).2 = table := by rw [ht]
  exact h.advance hc (by rw [hstage]; rfl) rfl (InFlight.sameNumbers_receive _ v)
    (fun _ hj => InFlight.mail?_receive_of_ne hj _) fun _ => .took o rfl

theorem step (h : Inv s) (hs : Step s s') : Inv s' := by
  cases hs with
  | enter r _ => exact h.enter r
  | reserve k hc _ hfree => exact h.reserve hc hfree
  | look k hc hstage => exact h.look hc hstage
  | send k hc hstage => exact h.send hc hstage
  | take k hc hstage ht => exact h.take hc hstage ht
  | giveUp k hc hstage | cutOff k hc hstage =>
    exact h.stay hc (by rw [hstage]; rfl) rfl fun hfinished =>
      .answered (h.isSome_mail? hfinished hc (.inr hstage))
  | @release c v exit k hc hstage => exact h.release hc (by rw [hstage]; rfl)
  | mark hreceiver =>
    exact
      { booked := h.booked
        marked := fun _ => rfl
        served := nofun }
  | fail hreceiver => exact h.fail hreceiver
  | find => exact { h with }
  | @post w o _ =>
    have hpost := h.retable (InFlight.sameNumbers_post s.proxy.table w.ticket o)
      fun k o' ho' => InFlight.mail?_post_of_some ho' _ _
    exact { hpost with }
  | close =>
    have htable := s.proxy.table_close s.link
    have hlost := s.proxy.lost_close s.link
    exact
      { booked := htable ▸ h.booked
        marked := fun hreceiver => hlost ▸ h.marked hreceiver
        served := fun hfinished k c v hc hv => htable ▸ h.served hfinished k c v hc hv }
  | elsewhere => exact { h with }

end Inv

theorem Reachable.inv {s : State} (h : Reachable s) : Inv s := by
  induction h with
  | start channel patience link => exact .start channel patience link
  | step _ hs ih => exact ih.step hs

/-! ## Callers that see the mark -/

/-- The caller does not come to wait: it looks for the mark yet, or saw it and fails. -/
inductive TurnedAway (v : Reservation) : Stage → Prop
  | unlooked : TurnedAway v (.reserved v)
  | leaving : TurnedAway v (.leaving v (.failed .channelClosed))
  | gone : TurnedAway v (.gone (.failed .channelClosed))

/-- The mark is set for good. -/
theorem lost_of_step {s s' : State} (hs : Step s s') (hlost : s.proxy.lost = true) :
    s'.proxy.lost = true := by
  cases hs with
  | mark => rfl
  | close => exact (s.proxy.lost_close s.link).trans hlost
  | _ => exact hlost

theorem turnedAway_advance {s : State} {j k : Nat} {c d : Call} {stage : Stage} {v : Reservation}
    (hc : s.calls[k]? = some c) (haway : TurnedAway v c.stage) (hd : s.calls[j]? = some d)
    (hstage : TurnedAway v d.stage → TurnedAway v stage) :
    ∃ x, (s.advance j stage).calls[k]? = some x ∧ TurnedAway v x.stage := by
  refine ⟨_, (getElem?_advance s j stage k).trans (congrArg _ hc), ?_⟩
  split
  · next hjk =>
    subst hjk
    obtain rfl := Option.some.inj (hc.symm.trans hd)
    exact hstage haway
  · exact haway

theorem turnedAway_step {s s' : State} (hs : Step s s') {k : Nat} {c : Call} {v : Reservation}
    (hlost : s.proxy.lost = true) (hc : s.calls[k]? = some c) (haway : TurnedAway v c.stage) :
    ∃ d, s'.calls[k]? = some d ∧ TurnedAway v d.stage := by
  cases hs with
  | enter r _ =>
    have hlt := (List.getElem?_eq_some_iff.mp hc).1
    exact ⟨c, (List.getElem?_append_left hlt).trans hc, haway⟩
  | look j hd hstage =>
    -- the mark is set, so who looks for it sees it
    refine turnedAway_advance hc haway hd fun h => ?_
    rw [hstage] at h
    cases h
    rw [hlost]
    exact .leaving
  | release j hd hstage =>
    refine turnedAway_advance hc haway hd fun h => ?_
    rw [hstage] at h
    cases h
    exact .gone
  | reserve j hd hstage | send j hd hstage | take j hd hstage | giveUp j hd hstage
  | cutOff j hd hstage =>
    -- whoever takes such a step is another caller
    refine turnedAway_advance hc haway hd fun h => ?_
    rw [hstage] at h
    cases h
  | _ => exact ⟨c, hc, haway⟩

theorem turnedAway_run {s s' : State} (hrun : Relation.ReflTransGen Step s s') {k : Nat} {c : Call}
    {v : Reservation} (hlost : s.proxy.lost = true) (hc : s.calls[k]? = some c)
    (haway : TurnedAway v c.stage) :
    s'.proxy.lost = true ∧ ∃ d, s'.calls[k]? = some d ∧ TurnedAway v d.stage := by
  induction hrun with
  | refl => exact ⟨hlost, c, hc, haway⟩
  | tail _ hs ih =>
    obtain ⟨hlost, d, hd, haway⟩ := ih
    exact ⟨lost_of_step hs hlost, turnedAway_step hs hlost hd haway⟩

/-- However callers and receiver are interleaved: once the receiver is done, who has a number has
an outcome or took it; or the mark is set and, whatever happens, the caller does not come to wait
and fails with that the channel is closed.  So nobody waits with an empty mailbox. -/
theorem nobody_left_waiting {s : State} (h : Reachable s) (hfinished : s.receiver = .finished)
    {k : Nat} {c : Call} {v : Reservation} (hc : s.calls[k]? = some c)
    (hv : c.stage.reservation? = some v) :
    ((∃ o, s.proxy.table.mail? v.ticket = some o) ∨
      (∃ o, c.stage = .leaving v (.took o)) ∨
      ∀ s', Relation.ReflTransGen Step s s' →
        s'.proxy.lost = true ∧ ∃ d, s'.calls[k]? = some d ∧ TurnedAway v d.stage) ∧
    (c.stage = .waiting v → ∃ o, (s.proxy.table.receive v).1 = .outcome o) := by
  have hinv := h.inv
  have hlost : s.proxy.lost = true := hinv.marked (by simp [hfinished])
  constructor
  · cases hinv.served hfinished k c v hc hv with
    | answered hsome => exact .inl (Option.isSome_iff_exists.mp hsome)
    | took o htook => exact .inr (.inl ⟨o, htook⟩)
    | unlooked hstage =>
      exact .inr (.inr fun s' hrun => turnedAway_run hrun hlost hc (hstage ▸ .unlooked))
    | refused hstage =>
      exact .inr (.inr fun s' hrun => turnedAway_run hrun hlost hc (hstage ▸ .leaving))
  · intro hwaiting
    obtain ⟨o, ho⟩ := Option.isSome_iff_exists.mp (hinv.isSome_mail? hfinished hc (.inr hwaiting))
    exact ⟨o, InFlight.receive_of_mail ho⟩

/-- A request waits when the channel ends; another one is given a number after all that waited were
failed.  The first caller gets an outcome, the second one does not come to wait. -/
theorem nobody_left_waiting_late :
    ∃ (s : State) (c d : Call) (u v : Reservation), Reachable s ∧ s.receiver = .finished ∧
      (s.calls[0]? = some c ∧ c.stage = .waiting u ∧
        ∃ o, (s.proxy.table.receive u).1 = .outcome o) ∧
      s.calls[1]? = some d ∧ d.stage = .reserved v ∧
      ∀ s', Relation.ReflTransGen Step s s' →
        s'.proxy.lost = true ∧ ∃ d', s'.calls[1]? = some d' ∧ TurnedAway v d'.stage := by
  have hs := Reachable.start ⟨1, "naming", 0, false⟩ ⟨1000⟩
    { lines := [(1, .ready 0)], inboxes := [{}] }
  have hs := hs.step (.enter (.lookup Name.root) rfl)
  have hs := hs.step (.reserve 0 rfl rfl rfl)
  have hs := hs.step (.enter (.list Name.root) rfl)
  have hs := hs.step (.look 0 rfl rfl)
  have hs := hs.step (.send 0 rfl rfl)
  have hs := hs.step (.mark rfl)
  have hs := hs.step (.fail rfl)
  have hs := hs.step (.reserve 1 rfl rfl rfl)
  have hwaits := nobody_left_waiting (k := 0) hs rfl rfl rfl
  have hlate := nobody_left_waiting (k := 1) hs rfl rfl rfl
  refine ⟨_, _, _, _, _, hs, rfl, ⟨rfl, rfl, hwaits.2 rfl⟩, rfl, rfl, ?_⟩
  rcases hlate.1 with ⟨o, ho⟩ | ⟨o, ho⟩ | haway
  · cases ho
  · cases ho
  · exact haway

end Wakeup

end NameDirectory
