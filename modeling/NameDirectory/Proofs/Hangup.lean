import NameDirectory.Proofs.Matching

/-!
# Responses at the end of a channel

The near end of one naming channel until after the channel ended, as a step relation (`Step`).  The
receiver takes messages off the channel and queues those that are responses; workers look up whose a
response is, read it, and put the outcome into the mailbox of its request.  When the channel ends,
the receiver sets the mark and fails all requests that wait; it does not wait for the workers.

* `Proxy.file_eq`: looking up and posting are the two halves of filing;
* `Inv.step`, `Reachable.inv`: what came first of the things that concern a request is in its
  mailbox, if it was a response;
* `filed_first`: a response that was filed before the receiver failed its request is what the caller
  gets; `received_and_failed`: it is not enough that it was received.
-/

namespace NameDirectory

namespace InFlight

variable {t : InFlight} {j k : Nat} {o : Outcome}

/-- A mailbox keeps what it holds. -/
theorem mail?_post_of_some (h : t.mail? k = some o) (j : Nat) (o' : Outcome) :
    (t.post j o').2.mail? k = some o := by
  unfold post
  split
  · exact h
  · next hempty =>
    have hne : j ≠ k := by
      rintro rfl
      exact hempty (by rw [h]; rfl)
    simpa [mail?, hne] using h

theorem mail?_post_of_ne (h : j ≠ k) (t : InFlight) (o : Outcome) :
    (t.post j o).2.mail? k = t.mail? k := by
  unfold post
  split
  · rfl
  · simp [mail?, h]

theorem mail?_post_of_none (h : t.mail? k = none) (o : Outcome) :
    (t.post k o).2.mail? k = some o := by
  rw [post, if_neg (by simp [h])]
  simp [mail?]

theorem mail?_failAll_of_some (h : t.mail? k = some o) (fault : ClientFault) :
    (t.failAll fault).mail? k = some o := by
  unfold failAll
  generalize t.waiting = ws
  induction ws generalizing t with
  | nil => exact h
  | cons w ws ih => exact ih (mail?_post_of_some h _ _)

theorem mail?_filter_of_ne (h : j ≠ k) (t : InFlight) :
    InFlight.mail? { t with mail := t.mail.filter (·.1 ≠ j) } k = t.mail? k := by
  simp only [mail?, List.find?_filter]
  congr 2; funext a; grind

theorem mail?_receive_of_ne {v : Reservation} (h : v.ticket ≠ k) (t : InFlight) :
    (t.receive v).2.mail? k = t.mail? k := by
  unfold receive
  split
  · exact mail?_filter_of_ne h t
  · rfl

end InFlight

namespace Proxy

/-- The request that a response is for, if any is. -/
def addressee? (p : Proxy) (f : Filing) : Option Waiter := p.table.waiter? f.header.number

/-- Put what a response is read as into the mailbox of the request it was found to be for. -/
def post (p : Proxy) (f : Filing) (w : Waiter) : Proxy :=
  { p with table := (p.table.post w.ticket (Outcome.decode f.operation w.captured f.body).1).2 }

theorem file_eq (p : Proxy) (f : Filing) :
    p.file f = match p.addressee? f with
      | none => p
      | some w => p.post f w := by
  unfold file addressee? post InFlight.complete
  cases p.table.waiter? f.header.number <;> rfl

@[simp] theorem table_close (p : Proxy) (c : Connection) : (p.close c).1.table = p.table := by
  unfold close
  split <;> rfl

@[simp] theorem lost_close (p : Proxy) (c : Connection) : (p.close c).1.lost = p.lost := by
  unfold close
  split <;> rfl

theorem outcome?_of_mail {p : Proxy} {v : Reservation} {o : Outcome}
    (h : p.table.mail? v.ticket = some o) : (p.outcome? v).1 = some o := by
  unfold outcome? InFlight.receive
  rw [h]

end Proxy

namespace Hangup

open Matching (Call Stage)

inductive Receiver where
  | receiving
  | ended
  /-- The mark is set. -/
  | marked
  /-- The requests that waited have been failed. -/
  | failed
  deriving DecidableEq, Repr

inductive Entry where
  /-- A response was filed for the request with this ticket. -/
  | filed (ticket : Nat) (f : Proxy.Filing)
  /-- The requests that waited were failed; so many had been made. -/
  | failed (made : Nat)
  /-- The caller of the request with this ticket got its outcome. -/
  | taken (ticket : Nat) (o : Outcome)

def Entry.concerns (k : Nat) : Entry → Bool
  | filed ticket _ | taken ticket _ => ticket = k
  | failed made => k < made

namespace Entry

variable {k : Nat}

@[simp] theorem concerns_filed {j : Nat} {f : Proxy.Filing} :
    (filed j f).concerns k = true ↔ j = k := decide_eq_true_iff

@[simp] theorem concerns_failed {n : Nat} : (failed n).concerns k = true ↔ k < n :=
  decide_eq_true_iff

@[simp] theorem concerns_taken {j : Nat} {o : Outcome} : (taken j o).concerns k = true ↔ j = k :=
  decide_eq_true_iff

end Entry

structure State where
  proxy : Proxy
  link : Connection
  receiver : Receiver := .receiving
  /-- What the receiver took off the channel, the last first. -/
  received : List Bytes := []
  /-- Responses of which it was not looked up yet whose they are. -/
  queued : List Proxy.Filing := []
  /-- Responses being read, with the requests they are for. -/
  found : List (Proxy.Filing × Waiter) := []
  /-- Every request a number was taken for, by the ticket of its mailbox. -/
  calls : List Call := []
  /-- What happened to mailboxes, in this order. -/
  log : List Entry := []

/-- What happened to a mailbox first. -/
def State.first? (s : State) (k : Nat) : Option Entry := s.log.find? (·.concerns k)

def State.advance (s : State) (k : Nat) (stage : Stage) : State :=
  { s with calls := s.calls.modify k fun c => { c with stage } }

inductive Step : State → State → Prop
  | reserve {s : State} {v : Reservation} {p : Proxy} (r : Request)
      (h : s.proxy.reserve r = (.ok v, p)) :
      Step s { s with proxy := p, calls := s.calls ++ [⟨r, v, .reserved⟩] }
  | send {s : State} {c : Call} {link : Connection} (k : Nat) (hc : s.calls[k]? = some c)
      (hstage : c.stage = .reserved)
      (h : s.proxy.send c.reservation c.request s.link = (.ok (), link)) :
      Step s { s.advance k .waiting with link }
  | receive {s : State} {m : Bytes} {f : Proxy.Filing} {link : Connection}
      (hreceiver : s.receiver = .receiving)
      (h : s.proxy.channel.take s.link = (some (.ok m), link))
      (hf : Proxy.Filing.ofMessage? m = some f) :
      Step s { s with link, received := m :: s.received, queued := s.queued ++ [f] }
  /-- What is no response is dropped. -/
  | discard {s : State} {m : Bytes} {link : Connection} (hreceiver : s.receiver = .receiving)
      (h : s.proxy.channel.take s.link = (some (.ok m), link))
      (hf : Proxy.Filing.ofMessage? m = none) :
      Step s { s with link, received := m :: s.received }
  | observe {s : State} {fault : TransportFault} {link : Connection}
      (hreceiver : s.receiver = .receiving)
      (h : s.proxy.channel.take s.link = (some (.error fault), link)) :
      Step s { s with link, receiver := .ended }
  | mark {s : State} (hreceiver : s.receiver = .ended) :
      Step s { s with receiver := .marked, proxy := s.proxy.markLost }
  | fail {s : State} (hreceiver : s.receiver = .marked) :
      Step s { s with receiver := .failed, proxy := s.proxy.failWaiting,
                      log := s.log ++ [.failed s.calls.length] }
  /-- Workers may be at several responses, so any that was queued may be next. -/
  | look {s : State} {f : Proxy.Filing} {w : Waiter} (hf : f ∈ s.queued)
      (hw : s.proxy.addressee? f = some w) :
      Step s { s with queued := s.queued.erase f, found := (f, w) :: s.found }
  | unclaimed {s : State} {f : Proxy.Filing} (hf : f ∈ s.queued)
      (hw : s.proxy.addressee? f = none) : Step s { s with queued := s.queued.erase f }
  | post {s : State} {f : Proxy.Filing} {w : Waiter} (h : (f, w) ∈ s.found) :
      Step s { s with found := s.found.erase (f, w), proxy := s.proxy.post f w,
                      log := s.log ++ [.filed w.ticket f] }
  | take {s : State} {c : Call} {o : Outcome} {p : Proxy} (k : Nat) (hc : s.calls[k]? = some c)
      (hstage : c.stage = .waiting) (h : s.proxy.outcome? c.reservation = (some o, p)) :
      Step s { s.advance k .leaving with proxy := p, log := s.log ++ [.taken k o] }
  /-- A caller waited too long, or its frame could not be sent. -/
  | giveUp {s : State} {c : Call} (k : Nat) (hc : s.calls[k]? = some c)
      (hstage : c.stage = .reserved ∨ c.stage = .waiting) : Step s (s.advance k .leaving)
  | release {s : State} {c : Call} (k : Nat) (hc : s.calls[k]? = some c)
      (hstage : c.stage = .leaving) :
      Step s { s.advance k .gone with proxy := s.proxy.release c.reservation }
  | close {s : State} :
      Step s { s with proxy := (s.proxy.close s.link).1, link := (s.proxy.close s.link).2 }
  /-- Packets arrive, other channels use the connection, or it ends. -/
  | elsewhere {s : State} (link : Connection) : Step s { s with link }

inductive Reachable : State → Prop
  | start (channel : Channel) (patience : Span) (link : Connection) :
      Reachable { proxy := { channel, patience }, link }
  | step {s s' : State} (h : Reachable s) (hs : Step s s') : Reachable s'

/-! ## Requests and responses -/

/-- The caller has neither got its outcome nor given up. -/
def IsOpen (stage : Stage) : Prop := stage = .reserved ∨ stage = .waiting

/-- What the request's response is read as. -/
def reads (c : Call) (f : Proxy.Filing) : Outcome :=
  (Outcome.decode f.operation c.request.captured? f.body).1

/-- A number was taken for a request with this ticket, made with this name. -/
def Made (calls : List Call) (k : Nat) (number : Int32) (captured : Option Name) : Prop :=
  ∃ c, calls[k]? = some c ∧ c.reservation.number = number ∧ c.request.captured? = captured

def Received (received : List Bytes) (f : Proxy.Filing) : Prop :=
  ∃ m ∈ received, Proxy.Filing.ofMessage? m = some f

theorem Received.cons {received : List Bytes} {f : Proxy.Filing} (h : Received received f)
    (m : Bytes) : Received (m :: received) f := by
  obtain ⟨m', hm', hf⟩ := h
  exact ⟨m', List.mem_cons_of_mem m hm', hf⟩

/-! ## Callers that go on -/

variable {s s' : State}

theorem getElem?_advance (s : State) (k : Nat) (stage : Stage) (j : Nat) :
    (s.advance k stage).calls[j]? =
      s.calls[j]?.map fun c => if k = j then { c with stage } else c :=
  List.getElem?_modify _ _ _ _

theorem Made.advance {j : Nat} {number : Int32} {captured : Option Name}
    (h : Made s.calls j number captured) (k : Nat) (stage : Stage) :
    Made (s.advance k stage).calls j number captured := by
  obtain ⟨c, hc, hnumber, hcaptured⟩ := h
  refine ⟨_, (getElem?_advance s k stage j).trans (congrArg _ hc), ?_, ?_⟩ <;> split
  all_goals first | exact hnumber | exact hcaptured

theorem exists_of_advance {k j : Nat} {c x : Call} {stage : Stage} (hc : s.calls[k]? = some c)
    (hstage : IsOpen stage → IsOpen c.stage) (hx : (s.advance k stage).calls[j]? = some x) :
    ∃ y, s.calls[j]? = some y ∧ x.reservation = y.reservation ∧ x.request = y.request ∧
      (IsOpen x.stage → IsOpen y.stage) := by
  rw [getElem?_advance] at hx
  obtain ⟨y, hy, rfl⟩ := Option.map_eq_some_iff.mp hx
  refine ⟨y, hy, ?_⟩
  split
  · next heq =>
    obtain rfl := heq
    obtain rfl := Option.some.inj (hc.symm.trans hy)
    exact ⟨rfl, rfl, hstage⟩
  · exact ⟨rfl, rfl, id⟩

/-- Whoever waits has another mailbox than a caller that does not. -/
theorem ne_of_advance {k j : Nat} {c x : Call} {stage : Stage} (hc : s.calls[k]? = some c)
    (hstage : ¬ IsOpen stage) (hx : (s.advance k stage).calls[j]? = some x)
    (hopen : IsOpen x.stage) : k ≠ j := by
  rintro rfl
  have hk : (s.advance k stage).calls[k]? = some { c with stage } := by
    simp [State.advance, hc]
  obtain rfl := Option.some.inj (hx.symm.trans hk)
  exact hstage hopen

/-! ## The invariant -/

/-- While its caller waits, a mailbox is empty as long as nothing happened to it, and holds what
the response is read as if that was filed first. -/
def Standing (c : Call) (mail : Option Outcome) : Option Entry → Prop
  | none => mail = none
  | some (.filed _ f) => mail = some (reads c f)
  | some _ => True

theorem Standing.of_request {c c' : Call} {mail : Option Outcome} {first : Option Entry}
    (h : Standing c mail first) (hrequest : c'.request = c.request) : Standing c' mail first := by
  unfold Standing reads at h ⊢
  rw [hrequest]
  exact h

/-- Something more happens: what was in the mailbox stays, and what comes into an empty one is what
is noted. -/
theorem Standing.note {c : Call} {mail mail' : Option Outcome} {first : Option Entry} {e : Entry}
    {k : Nat} (h : Standing c mail first) (hkept : ∀ o, mail = some o → mail' = some o)
    (hnew : mail = none → if e.concerns k then ∀ f, e = .filed k f → mail' = some (reads c f)
      else mail' = none) :
    Standing c mail' (first.or (if e.concerns k then some e else none)) := by
  cases first with
  | none =>
    have hnew := hnew h
    rw [Option.none_or]
    split at hnew
    · next hconcerns =>
      rw [if_pos hconcerns]
      cases e with
      | filed j f => exact hnew f (by rw [Entry.concerns_filed.mp hconcerns])
      | failed | taken => trivial
    · next hconcerns =>
      rw [if_neg hconcerns]
      exact hnew
  | some x =>
    rw [Option.some_or]
    cases x with
    | filed j f => exact hkept _ h
    | failed | taken => trivial

structure Inv (s : State) : Prop where
  tickets : s.proxy.table.tickets = s.calls.length
  reserved : ∀ (k : Nat) (c : Call), s.calls[k]? = some c → c.reservation.ticket = k
  waiting : ∀ w ∈ s.proxy.table.waiting, Made s.calls w.ticket w.number w.captured
  mail : ∀ a ∈ s.proxy.table.mail, a.1 < s.calls.length
  queued : ∀ f ∈ s.queued, Received s.received f
  found : ∀ a ∈ s.found,
    Received s.received a.1 ∧ Made s.calls a.2.ticket a.1.header.number a.2.captured
  known : ∀ e ∈ s.log, ∀ k, e.concerns k = true → k < s.calls.length
  filed : ∀ k f, .filed k f ∈ s.log →
    Received s.received f ∧ ∃ captured, Made s.calls k f.header.number captured
  standing : ∀ (k : Nat) (c : Call), s.calls[k]? = some c → IsOpen c.stage →
    Standing c (s.proxy.table.mail? k) (s.first? k)
  taken : ∀ k o, .taken k o ∈ s.log → ∃ c, s.calls[k]? = some c ∧ ¬ IsOpen c.stage ∧
    ∀ f, s.first? k = some (.filed k f) → o = reads c f

namespace Inv

theorem advance (h : Inv s) {k : Nat} {c : Call} {stage : Stage} (hc : s.calls[k]? = some c)
    (hstage : IsOpen stage → IsOpen c.stage) : Inv (s.advance k stage) := by
  have hlength : (s.advance k stage).calls.length = s.calls.length := List.length_modify _ _ _
  refine
    { tickets := h.tickets.trans hlength.symm
      reserved := fun j x hx => ?_
      waiting := fun w hw => (h.waiting w hw).advance k stage
      mail := fun a ha => hlength ▸ h.mail a ha
      queued := h.queued
      found := fun a ha => ⟨(h.found a ha).1, (h.found a ha).2.advance k stage⟩
      known := fun e he j hj => hlength ▸ h.known e he j hj
      filed := fun j f hf => ?_
      standing := fun j x hx hopen => ?_
      taken := fun j o ho => ?_ }
  · obtain ⟨y, hy, hreservation, -, -⟩ := exists_of_advance hc hstage hx
    exact hreservation ▸ h.reserved j y hy
  · obtain ⟨hreceived, captured, hmade⟩ := h.filed j f hf
    exact ⟨hreceived, captured, hmade.advance k stage⟩
  · obtain ⟨y, hy, -, hrequest, hopened⟩ := exists_of_advance hc hstage hx
    exact (h.standing j y hy (hopened hopen)).of_request hrequest
  · obtain ⟨y, hy, hopen, hread⟩ := h.taken j o ho
    have hx := (getElem?_advance s k stage j).trans (congrArg _ hy)
    obtain ⟨y', hy', -, hrequest, hopened⟩ := exists_of_advance hc hstage hx
    obtain rfl := Option.some.inj (hy.symm.trans hy')
    refine ⟨_, hx, fun hx => hopen (hopened hx), fun f hf => ?_⟩
    unfold reads
    rw [hrequest]
    exact hread f hf

theorem retable (h : Inv s) {p : Proxy} (htickets : p.table.tickets = s.proxy.table.tickets)
    (hwaiting : ∀ w ∈ p.table.waiting, w ∈ s.proxy.table.waiting)
    (hmail : ∀ a ∈ p.table.mail, a ∈ s.proxy.table.mail)
    (hkept : ∀ (k : Nat) (c : Call), s.calls[k]? = some c → IsOpen c.stage →
      p.table.mail? k = s.proxy.table.mail? k) : Inv { s with proxy := p } :=
  { h with
    tickets := htickets.trans h.tickets
    waiting := fun w hw => h.waiting w (hwaiting w hw)
    mail := fun a ha => h.mail a (hmail a ha)
    standing := fun k c hc hopen => (hkept k c hc hopen).symm ▸ h.standing k c hc hopen }

theorem note (h : Inv s) {p : Proxy} {e : Entry}
    (htickets : p.table.tickets = s.proxy.table.tickets)
    (hwaiting : ∀ w ∈ p.table.waiting, w ∈ s.proxy.table.waiting)
    (hmail : ∀ a ∈ p.table.mail, a.1 < s.calls.length)
    (hknown : ∀ k, e.concerns k = true → k < s.calls.length)
    (hfiled : ∀ k f, e = .filed k f →
      Received s.received f ∧ ∃ captured, Made s.calls k f.header.number captured)
    (htaken : ∀ k o, e = .taken k o → ∃ c, s.calls[k]? = some c ∧ ¬ IsOpen c.stage ∧
      ∀ f, s.first? k = some (.filed k f) → o = reads c f)
    (hkept : ∀ (k : Nat) (c : Call), s.calls[k]? = some c → IsOpen c.stage →
      ∀ o, s.proxy.table.mail? k = some o → p.table.mail? k = some o)
    (hnew : ∀ (k : Nat) (c : Call), s.calls[k]? = some c → IsOpen c.stage →
      s.proxy.table.mail? k = none →
        if e.concerns k then ∀ f, e = .filed k f → p.table.mail? k = some (reads c f)
        else p.table.mail? k = none) :
    Inv { s with proxy := p, log := s.log ++ [e] } := by
  have hfirst : ∀ k, State.first? { s with proxy := p, log := s.log ++ [e] } k =
      (s.first? k).or (if e.concerns k then some e else none) := fun k => by
    simp only [State.first?, List.find?_append, List.find?_singleton]
  refine
    { h with
      tickets := htickets.trans h.tickets
      waiting := fun w hw => h.waiting w (hwaiting w hw)
      mail := hmail
      known := fun x hx => ?_
      filed := fun k f hf => ?_
      standing := fun k c hc hopen => ?_
      taken := fun k o ho => ?_ }
  · rcases List.mem_append.mp hx with hx | hx
    · exact h.known x hx
    · obtain rfl := List.mem_singleton.mp hx
      exact hknown
  · rcases List.mem_append.mp hf with hf | hf
    · exact h.filed k f hf
    · exact hfiled k f (List.mem_singleton.mp hf).symm
  · rw [hfirst k]
    exact (h.standing k c hc hopen).note (hkept k c hc hopen) (hnew k c hc hopen)
  · rcases List.mem_append.mp ho with ho | ho
    · obtain ⟨c, hc, hopen, hread⟩ := h.taken k o ho
      refine ⟨c, hc, hopen, fun f hf => hread f ?_⟩
      have hsome : (s.first? k).isSome := by
        simp only [State.first?, List.find?_isSome]
        exact ⟨_, ho, Entry.concerns_taken.mpr rfl⟩
      rwa [hfirst k, Option.or_of_isSome hsome] at hf
    · obtain rfl := (List.mem_singleton.mp ho).symm
      obtain ⟨c, hc, hopen, hread⟩ := htaken k o rfl
      refine ⟨c, hc, hopen, fun f hf => hread f ?_⟩
      rw [hfirst k] at hf
      cases hx : s.first? k with
      | none =>
        rw [hx, Option.none_or] at hf
        split at hf <;> cases hf
      | some x => rwa [hx, Option.some_or] at hf

theorem reserve (h : Inv s) {r : Request} {v : Reservation} {p : Proxy}
    (hr : s.proxy.reserve r = (.ok v, p)) :
    Inv { s with proxy := p, calls := s.calls ++ [⟨r, v, .reserved⟩] } := by
  unfold Proxy.reserve at hr
  split at hr
  · cases hr
  obtain ⟨hv, rfl⟩ := Prod.mk.inj hr
  obtain rfl := Except.ok.inj hv
  have hmade : ∀ {k number captured}, Made s.calls k number captured →
      Made (s.calls ++ [⟨r, (s.proxy.table.reserve r.captured?).1, .reserved⟩]) k number captured :=
    fun ⟨c, hc, hrest⟩ =>
      ⟨c, (List.getElem?_append_left (List.getElem?_eq_some_iff.mp hc).1).trans hc, hrest⟩
  have hlast := List.getElem?_concat_length (l := s.calls)
    (a := ⟨r, (s.proxy.table.reserve r.captured?).1, .reserved⟩)
  refine
    { tickets := ?_
      reserved := fun k c hc => ?_
      waiting := fun w hw => ?_
      mail := fun a ha => ?_
      queued := h.queued
      found := fun a ha => ⟨(h.found a ha).1, hmade (h.found a ha).2⟩
      known := fun e he k hk => ?_
      filed := fun k f hf => ?_
      standing := fun k c hc hopen => ?_
      taken := fun k o ho => ?_ }
  · simp [Proxy.allot, InFlight.reserve, h.tickets]
  · rcases getElem?_snoc hc with hc | ⟨rfl, rfl⟩
    · exact h.reserved k c hc
    · exact h.tickets
  · rcases List.mem_cons.mp hw with rfl | hw
    · exact ⟨_, (congrArg _ h.tickets).trans hlast, rfl, rfl⟩
    · exact hmade (h.waiting w hw)
  · rw [List.length_append]
    exact Nat.lt_add_right 1 (h.mail a ha)
  · rw [List.length_append]
    exact Nat.lt_add_right 1 (h.known e he k hk)
  · obtain ⟨hreceived, captured, hf⟩ := h.filed k f hf
    exact ⟨hreceived, captured, hmade hf⟩
  · rcases getElem?_snoc hc with hc | ⟨rfl, rfl⟩
    · exact h.standing k c hc hopen
    · have hnothing : s.first? s.calls.length = none := by
        refine List.find?_eq_none.mpr fun e he hconcerns => ?_
        exact absurd (h.known e he _ hconcerns) (Nat.lt_irrefl _)
      have hempty : s.proxy.table.mail? s.calls.length = none := by
        refine Option.map_eq_none_iff.mpr (List.find?_eq_none.mpr fun a ha hticket => ?_)
        exact absurd (h.mail a ha) (Nat.not_lt.mpr (Nat.le_of_eq (of_decide_eq_true hticket).symm))
      exact hnothing.symm ▸ hempty
  · obtain ⟨c, hc, hrest⟩ := h.taken k o ho
    exact ⟨c, (List.getElem?_append_left (List.getElem?_eq_some_iff.mp hc).1).trans hc, hrest⟩

theorem post (h : Inv s) {f : Proxy.Filing} {w : Waiter} (hfound : (f, w) ∈ s.found) :
    Inv { s with found := s.found.erase (f, w), proxy := s.proxy.post f w,
                 log := s.log ++ [.filed w.ticket f] } := by
  obtain ⟨hreceived, c, hc, hnumber, hcaptured⟩ := h.found _ hfound
  have hlt : w.ticket < s.calls.length := (List.getElem?_eq_some_iff.mp hc).1
  have hsame := InFlight.sameNumbers_post s.proxy.table w.ticket
    (Outcome.decode f.operation w.captured f.body).1
  have hrest : Inv { s with found := s.found.erase (f, w) } :=
    { h with found := fun a ha => h.found a (List.mem_of_mem_erase ha) }
  refine hrest.note hsame.tickets (fun x hx => hsame.waiting ▸ hx) (fun a ha => ?_)
    (fun k hk => Entry.concerns_filed.mp hk ▸ hlt) (fun k f' hf' => ?_) nofun ?_ ?_
  · rcases InFlight.mem_mail_of_post ha with rfl | ha
    · exact hlt
    · exact h.mail a ha
  · cases hf'
    exact ⟨hreceived, w.captured, c, hc, hnumber, hcaptured⟩
  · exact fun k c' _ _ o ho => InFlight.mail?_post_of_some ho _ _
  · intro k c' hc' _ hnone
    split
    · next hk =>
      obtain rfl := Entry.concerns_filed.mp hk
      intro f' hf'
      cases hf'
      obtain rfl := Option.some.inj (hc.symm.trans hc')
      unfold reads
      rw [hcaptured]
      exact InFlight.mail?_post_of_none hnone _
    · next hk =>
      exact (InFlight.mail?_post_of_ne (by simpa using hk) _ _).trans hnone

theorem fail (h : Inv s) : Inv { s with
    receiver := .failed, proxy := s.proxy.failWaiting, log := s.log ++ [.failed s.calls.length] } := by
  obtain ⟨hsame, hmail⟩ := InFlight.failAll_spec s.proxy.table (.transport .channelClosed)
  have hfailed : Inv { s with receiver := .failed } := { h with }
  refine hfailed.note hsame.tickets (fun w hw => hsame.waiting ▸ hw) (fun a ha => ?_)
    (fun k hk => Entry.concerns_failed.mp hk) nofun nofun ?_ ?_
  · rcases hmail a ha with ha | ⟨-, w, hw, hticket⟩
    · exact h.mail a ha
    · obtain ⟨c, hc, -⟩ := h.waiting w hw
      exact hticket ▸ (List.getElem?_eq_some_iff.mp hc).1
  · exact fun k c _ _ o ho => InFlight.mail?_failAll_of_some ho _
  · intro k c hc _ _
    have hlt : k < s.calls.length := (List.getElem?_eq_some_iff.mp hc).1
    rw [if_pos (Entry.concerns_failed.mpr hlt)]
    exact nofun

theorem take (h : Inv s) {k : Nat} {c : Call} {o : Outcome} {p : Proxy}
    (hc : s.calls[k]? = some c) (hstage : c.stage = .waiting)
    (hp : s.proxy.outcome? c.reservation = (some o, p)) :
    Inv { s.advance k .leaving with proxy := p, log := s.log ++ [.taken k o] } := by
  have hleft : ¬ IsOpen .leaving := by simp [IsOpen]
  obtain ⟨htable, ho⟩ := Proxy.receive_of_outcome? hp
  have hsame := InFlight.sameNumbers_receive s.proxy.table c.reservation
  have hmail := (InFlight.mail_of_receive s.proxy.table c.reservation).1
  rw [← htable] at hsame hmail
  have hadvance := h.advance hc fun hopen => absurd hopen hleft
  have hk : (s.advance k .leaving).calls[k]? = some { c with stage := .leaving } := by
    simp [State.advance, hc]
  -- the mailboxes of all that still wait are left alone
  have hothers : ∀ (j : Nat) (x : Call), (s.advance k .leaving).calls[j]? = some x →
      IsOpen x.stage → p.table.mail? j = s.proxy.table.mail? j := fun j x hx hopen => by
    rw [htable]
    exact InFlight.mail?_receive_of_ne (h.reserved k c hc ▸ ne_of_advance hc hleft hx hopen) _
  refine hadvance.note hsame.tickets (fun w hw => hsame.waiting ▸ hw)
    (fun a ha => hadvance.mail a (hmail a ha)) (fun j hj => ?_) nofun (fun j o' ho' => ?_) ?_ ?_
  · exact Entry.concerns_taken.mp hj ▸ (List.getElem?_eq_some_iff.mp hk).1
  · cases ho'
    refine ⟨_, hk, hleft, fun f hf => ?_⟩
    have hstanding := h.standing k c hc (.inr hstage)
    have hf : s.first? k = some (.filed k f) := hf
    rw [hf] at hstanding
    have houtcome := Proxy.outcome?_of_mail ((h.reserved k c hc).symm ▸ hstanding)
    rw [hp] at houtcome
    exact Option.some.inj houtcome
  · exact fun j x hx hopen o' ho' => (hothers j x hx hopen).trans ho'
  · intro j x hx hopen hnone
    rw [if_neg (by simpa using ne_of_advance hc hleft hx hopen)]
    exact (hothers j x hx hopen).trans hnone

theorem release (h : Inv s) {k : Nat} {c : Call} (hc : s.calls[k]? = some c) :
    Inv { s.advance k .gone with proxy := s.proxy.release c.reservation } := by
  have hgone : ¬ IsOpen .gone := by simp [IsOpen]
  have hadvance := h.advance hc fun hopen => absurd hopen hgone
  refine hadvance.retable rfl (fun w hw => (List.mem_filter.mp hw).1)
    (fun a ha => (List.mem_filter.mp ha).1) fun j x hx hopen => ?_
  exact InFlight.mail?_filter_of_ne (h.reserved k c hc ▸ ne_of_advance hc hgone hx hopen) _

theorem step (h : Inv s) (hs : Step s s') : Inv s' := by
  cases hs with
  | reserve r hr => exact h.reserve hr
  | @send c link k hc hstage _ =>
    have hadvance : Inv (s.advance k .waiting) := h.advance hc fun _ => .inl hstage
    exact { hadvance with }
  | @receive m f link _ _ hf =>
    refine { h with
      queued := fun f' hf' => ?_
      found := fun a ha => ⟨(h.found a ha).1.cons m, (h.found a ha).2⟩
      filed := fun k f' hf' => ⟨(h.filed k f' hf').1.cons m, (h.filed k f' hf').2⟩ }
    rcases List.mem_append.mp hf' with hf' | hf'
    · exact (h.queued f' hf').cons m
    · obtain rfl := List.mem_singleton.mp hf'
      exact ⟨m, List.mem_cons_self, hf⟩
  | @discard m link _ _ _ =>
    exact { h with
      queued := fun f hf => (h.queued f hf).cons m
      found := fun a ha => ⟨(h.found a ha).1.cons m, (h.found a ha).2⟩
      filed := fun k f hf => ⟨(h.filed k f hf).1.cons m, (h.filed k f hf).2⟩ }
  | observe => exact { h with }
  | mark => exact { h with }
  | fail => exact h.fail
  | @look f w hf hw =>
    refine { h with
      queued := fun f' hf' => h.queued f' (List.mem_of_mem_erase hf')
      found := fun a ha => ?_ }
    rcases List.mem_cons.mp ha with rfl | ha
    · have hnumber : w.number = f.header.number := by simpa using List.find?_some hw
      exact ⟨h.queued f hf, hnumber ▸ h.waiting w (List.mem_of_find?_eq_some hw)⟩
    · exact h.found a ha
  | unclaimed => exact { h with queued := fun f hf => h.queued f (List.mem_of_mem_erase hf) }
  | post hfound => exact h.post hfound
  | take k hc hstage hp => exact h.take hc hstage hp
  | giveUp k hc _ => exact h.advance hc fun hopen => absurd hopen (by simp [IsOpen])
  | release k hc _ => exact h.release hc
  | close =>
    have htable := s.proxy.table_close s.link
    have hclosed : Inv { s with proxy := (s.proxy.close s.link).1 } :=
      h.retable (htable ▸ rfl) (fun w hw => htable ▸ hw) (fun a ha => htable ▸ ha)
        fun _ _ _ _ => htable ▸ rfl
    exact { hclosed with }
  | elsewhere => exact { h with }

end Inv

theorem Inv.start (channel : Channel) (patience : Span) (link : Connection) :
    Inv { proxy := { channel, patience }, link } where
  tickets := rfl
  reserved _ _ h := nomatch h
  waiting _ h := nomatch h
  mail _ h := nomatch h
  queued _ h := nomatch h
  found _ h := nomatch h
  known _ h := nomatch h
  filed _ _ h := nomatch h
  standing _ _ h := nomatch h
  taken _ _ h := nomatch h

theorem Reachable.inv {s : State} (h : Reachable s) : Inv s := by
  induction h with
  | start channel patience link => exact .start channel patience link
  | step _ hs ih => exact ih.step hs

/-- However receiver, workers and callers are interleaved: where the first thing to happen to a
mailbox was that a response was filed there, and so the receiver had not failed the request yet,
that response was taken off the channel and has the number of the request, whatever the caller got
was read from it, and as long as the caller waits it can get that. -/
theorem filed_first {s : State} (h : Reachable s) {k : Nat} {c : Call} {f : Proxy.Filing}
    (hc : s.calls[k]? = some c) (hfirst : s.first? k = some (.filed k f)) :
    (∃ m ∈ s.received, Proxy.Filing.ofMessage? m = some f) ∧
    f.header.number = c.reservation.number ∧
    (∀ o, .taken k o ∈ s.log → o = reads c f) ∧
    (c.stage = .waiting → (s.proxy.outcome? c.reservation).1 = some (reads c f)) := by
  have hinv := h.inv
  obtain ⟨hreceived, _, c', hc', hnumber, -⟩ := hinv.filed k f (List.mem_of_find?_eq_some hfirst)
  obtain rfl := Option.some.inj (hc.symm.trans hc')
  refine ⟨hreceived, hnumber.symm, fun o ho => ?_, fun hstage => ?_⟩
  · obtain ⟨c', hc', -, hread⟩ := hinv.taken k o ho
    obtain rfl := Option.some.inj (hc.symm.trans hc')
    exact hread f hfirst
  · have hstanding := hinv.standing k c hc (.inr hstage)
    rw [hfirst] at hstanding
    exact Proxy.outcome?_of_mail ((hinv.reserved k c hc).symm ▸ hstanding)

/-- A directory's answer to the request with number 1 to look up its root. -/
def answer : Bytes := ((Tree.empty.dispatch ((Request.lookup Name.root).encode 1)).1).getD []

def answerFiling : Proxy.Filing := ⟨⟨Operation.lookup.code, 1⟩, .lookup, answer.drop 5⟩

/-- The root is looked up by the first request on a channel. -/
def asked : State where
  proxy :=
    { channel := ⟨1, "naming", 0, false⟩
      patience := ⟨1000⟩
      table := { next := 2, tickets := 1, waiting := [⟨1, 0, some Name.root⟩] } }
  link :=
    { lines := [(1, .ready 0)], inboxes := [{}]
      sent := [.message 1 ((Request.lookup Name.root).encode 1)] }
  calls := [⟨.lookup Name.root, ⟨1, 0⟩, .waiting⟩]

theorem reachable_asked : Reachable asked := by
  have hs := Reachable.start ⟨1, "naming", 0, false⟩ ⟨1000⟩
    { lines := [(1, .ready 0)], inboxes := [{}] }
  have hs := hs.step (.reserve (.lookup Name.root) rfl)
  exact hs.step (.send 0 rfl rfl rfl)

/-- The answer was taken off the channel. -/
def answered : State := { asked with received := [answer], queued := [answerFiling] }

theorem reachable_answered : Reachable answered := by
  have hs := reachable_asked
  have hs := hs.step (.elsewhere (asked.link.arrive (.message 1 answer)))
  exact hs.step (.receive rfl rfl rfl)

/-- The answer is filed, then the channel ends and all requests that wait are failed; after that the
caller takes its outcome. -/
theorem filed_first_then_failed :
    ∃ (s : State) (c : Call), Reachable s ∧ s.calls[0]? = some c ∧ s.receiver = .failed ∧
      s.first? 0 = some (.filed 0 answerFiling) ∧
      (∃ m ∈ s.received, Proxy.Filing.ofMessage? m = some answerFiling) ∧
      answerFiling.header.number = c.reservation.number ∧
      .taken 0 (.ok (.entry (.context Name.root))) ∈ s.log ∧
      ∀ o, .taken 0 o ∈ s.log → o = reads c answerFiling := by
  have hs := reachable_answered
  have hs := hs.step (.look List.mem_cons_self rfl)
  have hs := hs.step (.post List.mem_cons_self)
  have hs := hs.step (.elsewhere answered.link.shutdown)
  have hs := hs.step (.observe rfl rfl)
  have hs := hs.step (.mark rfl)
  have hs := hs.step (.fail rfl)
  have hs := hs.step (.take 0 rfl rfl rfl)
  obtain ⟨hreceived, hnumber, htaken, -⟩ := filed_first (k := 0) hs rfl rfl
  exact ⟨_, _, hs, rfl, rfl, rfl, hreceived, hnumber, List.mem_concat_self, htaken⟩

/-- The receiver took the answer off the channel, then saw the channel end and failed all requests
that waited, before a worker looked whose the answer is. The caller waits all the time, and gets
that the channel was closed. -/
theorem received_and_failed :
    ∃ (s : State) (c : Call), Reachable s ∧ s.calls[0]? = some c ∧
      (answer ∈ s.received ∧ Proxy.Filing.ofMessage? answer = some answerFiling ∧
        answerFiling.header.number = c.reservation.number ∧
        reads c answerFiling = .ok (.entry (.context Name.root))) ∧
      .taken 0 (.error (.transport .channelClosed)) ∈ s.log := by
  have hs := reachable_answered
  have hs := hs.step (.elsewhere answered.link.shutdown)
  have hs := hs.step (.observe rfl rfl)
  have hs := hs.step (.mark rfl)
  have hs := hs.step (.fail rfl)
  have hs := hs.step (.look List.mem_cons_self rfl)
  have hs := hs.step (.post List.mem_cons_self)
  have hs := hs.step (.take 0 rfl rfl rfl)
  exact ⟨_, _, hs, rfl, ⟨List.mem_cons_self, rfl, rfl, rfl⟩, List.mem_concat_self⟩

end Hangup

end NameDirectory
