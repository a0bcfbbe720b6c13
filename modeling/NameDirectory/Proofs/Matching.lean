import NameDirectory.Proofs.Ledger
import NameDirectory.Proofs.Mailboxes
import NameDirectory.Proofs.Remote
import NameDirectory.Proxy
import NameDirectory.Service

/-!
# Responses find their requests

One naming channel, with any number of callers at its near end and the workers of a
directory at its far end, as a step relation (`Step`): numbers are taken, frames are
sent, executed in any order and answered, responses are filed in any order, callers
give up or take an outcome and free their number, and the channel may end.

* `Inv.step`, `Reachable.inv`: the invariant, as long as numbers have not wrapped around;
* `responses_match`: what a caller takes was read from the response to its own frame;
  no frame is executed twice, no two responses go by one number, and a number that was
  freed belongs to nobody.
-/

namespace NameDirectory

/-! ## Frames on their way -/

/-- The number in the header of a frame. -/
def Frame.number? (frame : Bytes) : Option Int32 :=
  match Reader.header.on frame with
  | (.ok h, _) => some h.number
  | (.error _, _) => none

theorem Frame.number?_writeHeader (h : Header) (rest : Bytes) :
    Frame.number? (Frame.writeHeader h ++ rest) = some h.number := by
  unfold number?
  rw [(Frame.Reader.yields_header h).on]

theorem Request.number?_encode (r : Request) (n : Int32) :
    Frame.number? (r.encode n) = some n := Frame.number?_writeHeader _ _

theorem Proxy.ofMessage?_writeHeader (op : Operation) (n : Int32) (rest : Bytes) :
    Filing.ofMessage? (Frame.writeHeader ⟨op.code, n⟩ ++ rest) = some ⟨⟨op.code, n⟩, op, rest⟩ := by
  unfold Filing.ofMessage?
  rw [(Frame.Reader.yields_header _).on]
  simp [Operation.ofCode?_code]

/-- The response to a request repeats its header. -/
theorem Tree.exists_of_dispatch_encode {t : Tree} {r : Request} {n : Int32} {response : Bytes}
    (h : (t.dispatch (r.encode n)).1 = some response) :
    ∃ outcome, response = Frame.writeHeader ⟨r.operation.code, n⟩ ++ outcome := by
  have hfailed : ∀ fault, failed ⟨r.operation.code, n⟩ fault = some response →
      ∃ outcome, response = Frame.writeHeader ⟨r.operation.code, n⟩ ++ outcome := by
    intro fault hf
    unfold failed at hf
    split at hf
    · simp at hf
    · exact ⟨_, (Option.some.inj hf).symm⟩
  unfold dispatch Request.encode at h
  rw [(Frame.Reader.yields_header _).on] at h
  simp only [Operation.ofCode?_code, serveBody] at h
  split at h
  · exact hfailed _ h
  · split at h
    · exact ⟨_, (Option.some.inj h).symm⟩
    · exact hfailed _ h

theorem Connection.sent_of_send {c c' : Connection} {p : Packet} {r : Except TransportFault Unit}
    (h : c.send p = (r, c')) :
    r = .ok () ∧ c'.sent = c.sent ++ [p] ∨ c' = c := by
  unfold send at h
  split at h
  · cases h; exact .inr rfl
  · split at h <;> cases h
    · exact .inr rfl
    · exact .inr rfl
    · exact .inl ⟨rfl, rfl⟩

/-- What is sent is the frame of the request, under the number that was taken for it. -/
theorem Proxy.frame_of_send {p : Proxy} {v : Reservation} {r : Request} {c c' : Connection}
    {frame : Bytes} (h : p.send v r c = (.ok (), c'))
    (hsent : c'.sent = c.sent ++ [.message p.channel.id frame]) : frame = r.encode v.number := by
  unfold send transmit Channel.send at h
  split at h
  · cases h
  · split at h
    · cases h
    · rcases Connection.sent_of_send h with ⟨-, hframe⟩ | rfl
      · rw [hsent] at hframe
        simpa using hframe
      · simp at hsent

/-- A caller finds an outcome in its mailbox, or can expect none any more. -/
theorem Proxy.receive_of_outcome? {p p' : Proxy} {v : Reservation} {o : Outcome}
    (h : p.outcome? v = (some o, p')) :
    p'.table = (p.table.receive v).2 ∧
      ((p.table.receive v).1 = .outcome o ∨ o = .error (.transport .channelClosed)) := by
  unfold outcome? at h
  split at h
  · next hr =>
    cases h
    rw [hr]
    exact ⟨rfl, .inl rfl⟩
  · next hr =>
    cases h
    rw [hr]
    exact ⟨rfl, .inr rfl⟩
  · cases h

/-- A response is taken apart as it is filed. -/
theorem Response.decode_outcome (op : Operation) (n : Int32) (body : Bytes)
    (captured : Option Name) :
    Response.decode (Frame.writeHeader ⟨op.code, n⟩ ++ body) captured =
      .ok (.reply ⟨op.code, n⟩ (Outcome.decode op captured body).1
        (Outcome.decode op captured body).2) := by
  unfold decode
  rw [(Frame.Reader.yields_header _).on]
  simp only [Operation.ofCode?_code]

/-- A worker leaves the tree as dispatching does, and sends the response if it sends anything. -/
theorem Service.dispatch_of_work {ch : Channel} {m : Bytes} {t t' : Tree} {c c' : Connection}
    {answers : List Bytes} (h : Service.naming.work ch m t c = (t', c'))
    (hsent : c'.sent = c.sent ++ answers.map (.message ch.id)) :
    t' = (t.dispatch m).2 ∧
      (answers = [] ∨ ∃ f, answers = [f] ∧ (t.dispatch m).1 = some f) := by
  have hnone : c' = c → answers = [] := by
    rintro rfl
    simpa using hsent
  simp only [work] at h
  split at h
  · next response u hd =>
    obtain ⟨rfl, rfl⟩ := Prod.mk.inj h
    rw [hd]
    refine ⟨rfl, ?_⟩
    unfold Channel.send at hsent hnone
    split at hsent
    · next hclosed => exact .inl (hnone (by rw [if_pos hclosed]))
    · next hopen =>
      rw [if_neg hopen] at hnone
      have hsend : c.send (.message ch.id response) =
        ((c.send (.message ch.id response)).1, (c.send (.message ch.id response)).2) := rfl
      rcases Connection.sent_of_send hsend with ⟨-, hframe⟩ | hsame
      · rw [hframe, List.append_cancel_left_eq] at hsent
        obtain ⟨f, rfl, hf⟩ := List.map_eq_singleton_iff.mp hsent.symm
        cases hf
        exact .inr ⟨_, rfl, rfl⟩
      · exact .inl (hnone hsame)
  · next u hd =>
    obtain ⟨rfl, rfl⟩ := Prod.mk.inj h
    exact ⟨by rw [hd], .inl (hnone rfl)⟩

namespace Matching

/-! ## The channel as a whole -/

/-- How far the caller of a request is. -/
inductive Stage where
  | reserved
  | waiting
  /-- The caller has its outcome or gave up; the number is not free yet. -/
  | leaving
  | gone
  deriving DecidableEq, Repr

/-- A request, what was reserved for it, and how far it is. -/
structure Call where
  request : Request
  reservation : Reservation
  stage : Stage

/-- A message that was executed, and the tree it was executed on. -/
structure Execution where
  message : Bytes
  tree : Tree

structure State where
  proxy : Proxy
  tree : Tree
  /-- Every request a number was taken for, by the ticket of its mailbox. -/
  calls : List Call := []
  /-- Request frames that were sent and not executed yet. -/
  requests : List Bytes := []
  executions : List Execution := []
  /-- Response frames that were sent and not filed yet. -/
  responses : List Bytes := []
  /-- Response frames that were filed. -/
  filed : List Bytes := []
  /-- What callers took out of their mailboxes, by ticket. -/
  taken : List (Nat × Outcome) := []

def State.start (channel : Channel) (patience : Span) (t : Tree) : State :=
  { proxy := { channel, patience }, tree := t }

def State.advance (s : State) (k : Nat) (stage : Stage) : State :=
  { s with calls := s.calls.modify k fun c => { c with stage } }

inductive Step : State → State → Prop
  | reserve {s : State} {v : Reservation} {p : Proxy} (r : Request)
      (h : s.proxy.reserve r = (.ok v, p)) :
      Step s { s with proxy := p, calls := s.calls ++ [⟨r, v, .reserved⟩] }
  | send {s : State} {c : Call} {link' : Connection} {frame : Bytes} (k : Nat) (link : Connection)
      (hc : s.calls[k]? = some c) (hstage : c.stage = .reserved)
      (h : s.proxy.send c.reservation c.request link = (.ok (), link'))
      (hsent : link'.sent = link.sent ++ [.message s.proxy.channel.id frame]) :
      Step s { s.advance k .waiting with requests := frame :: s.requests }
  /-- A worker takes any message that arrived; its response may be lost. -/
  | execute {s : State} {m : Bytes} {link' : Connection} {t : Tree} (ch : Channel)
      (link : Connection) (answers : List Bytes) (hm : m ∈ s.requests)
      (h : Service.naming.work ch m s.tree link = (t, link'))
      (hsent : link'.sent = link.sent ++ answers.map (.message ch.id)) :
      Step s { s with tree := t, requests := s.requests.erase m,
                      executions := ⟨m, s.tree⟩ :: s.executions,
                      responses := answers ++ s.responses }
  /-- Other channels change the directory. -/
  | elsewhere {s : State} (t : Tree) : Step s { s with tree := t }
  | file {s : State} {f : Bytes} {filing : Proxy.Filing} (hf : f ∈ s.responses)
      (h : Proxy.Filing.ofMessage? f = some filing) :
      Step s { s with proxy := s.proxy.file filing, responses := s.responses.erase f,
                      filed := f :: s.filed }
  | take {s : State} {c : Call} {o : Outcome} {p : Proxy} (k : Nat)
      (hc : s.calls[k]? = some c) (hstage : c.stage = .waiting)
      (h : s.proxy.outcome? c.reservation = (some o, p)) :
      Step s { s.advance k .leaving with proxy := p, taken := (k, o) :: s.taken }
  /-- A caller waited too long, or its frame could not be sent. -/
  | giveUp {s : State} {c : Call} (k : Nat) (hc : s.calls[k]? = some c)
      (hstage : c.stage = .reserved ∨ c.stage = .waiting) : Step s (s.advance k .leaving)
  | release {s : State} {c : Call} (k : Nat) (hc : s.calls[k]? = some c)
      (hstage : c.stage = .leaving) :
      Step s { s.advance k .gone with proxy := s.proxy.release c.reservation }
  /-- The channel ended, -/
  | lose {s : State} : Step s { s with proxy := s.proxy.markLost }
  /-- and all who wait are told so. -/
  | fail {s : State} : Step s { s with proxy := s.proxy.failWaiting }

inductive Reachable : State → Prop
  | start (channel : Channel) (patience : Span) (t : Tree) :
      Reachable (State.start channel patience t)
  | step {s s' : State} (h : Reachable s) (hs : Step s s') : Reachable s'

/-! ## Numbers that did not wrap around -/

/-- The number that goes with a ticket. -/
def number (k : Nat) : Int32 := Int32.ofNat (k + 1)

theorem toInt_number {k : Nat} (h : k < 2147483647) : (number k).toInt = k + 1 := by
  unfold number
  rw [Int32.toInt_ofNat_of_lt (by omega)]
  omega

theorem number_inj {j k : Nat} (hj : j < 2147483647) (hk : k < 2147483647)
    (h : number j = number k) : j = k := by
  have hint := congrArg Int32.toInt h
  rw [toInt_number hj, toInt_number hk] at hint
  omega

theorem number_succ (k : Nat) : number (k + 1) = number k + 1 := Int32.ofNat_add (k + 1) 1

theorem one_le_number {k : Nat} (h : k < 2147483647) : 1 ≤ number k := by
  rw [Int32.le_iff_toInt_le, toInt_number h]
  have hone : (1 : Int32).toInt = 1 := by decide
  omega

/-! ## The invariant -/

/-- `o` was read from the response to the frame of `r` with number `n`. -/
def Answers (log : List Execution) (r : Request) (n : Int32) (o : Outcome) : Prop :=
  ∃ e ∈ log, e.message = r.encode n ∧ ∃ response rest,
    (e.tree.dispatch e.message).1 = some response ∧
    Response.decode response r.captured? = .ok (.reply ⟨r.operation.code, n⟩ o rest)

/-- `o` is for the call with ticket `k`: the answer to its request, unless the channel ended. -/
def Sound (calls : List Call) (log : List Execution) (k : Nat) (o : Outcome) : Prop :=
  ∃ c, calls[k]? = some c ∧
    (o = .error (.transport .channelClosed) ∨ Answers log c.request (number k) o)

/-- `m` is the frame of the call with ticket `k`, which was sent. -/
def Sent (calls : List Call) (m : Bytes) (k : Nat) : Prop :=
  ∃ c, calls[k]? = some c ∧ c.stage ≠ .reserved ∧ m = c.request.encode (number k)

structure Inv (s : State) : Prop where
  next : s.proxy.table.next = number s.calls.length
  tickets : s.proxy.table.tickets = s.calls.length
  reserved : ∀ k (c : Call), s.calls[k]? = some c → c.reservation = ⟨number k, k⟩
  waiting : ∀ w ∈ s.proxy.table.waiting, w.number = number w.ticket ∧
    ∃ c, s.calls[w.ticket]? = some c ∧ w.captured = c.request.captured? ∧ c.stage ≠ .gone
  mail : ∀ a ∈ s.proxy.table.mail, Sound s.calls s.executions a.1 a.2
  mailOnce : s.proxy.table.OneEach
  taken : ∀ a ∈ s.taken, Sound s.calls s.executions a.1 a.2
  left : ∀ a ∈ s.taken, ∃ c, s.calls[a.1]? = some c ∧ (c.stage = .leaving ∨ c.stage = .gone)
  takenOnce : (s.taken.map (·.1)).Nodup
  sent : ∀ m ∈ s.requests ++ s.executions.map (·.message), ∃ k, Sent s.calls m k
  sentOnce : (s.requests ++ s.executions.map (·.message)).Nodup
  answered : ∀ f ∈ s.responses ++ s.filed,
    ∃ e ∈ s.executions, (e.tree.dispatch e.message).1 = some f
  answeredOnce : ((s.responses ++ s.filed).map Frame.number?).Nodup

/-- Calls stay what they are, and go on. -/
def Grows (calls calls' : List Call) : Prop :=
  ∀ (k : Nat) (c : Call), calls[k]? = some c → ∃ c' : Call, calls'[k]? = some c' ∧
    c'.request = c.request ∧ (c.stage ≠ .reserved → c'.stage ≠ .reserved)

theorem Sent.grow {calls calls' : List Call} {m : Bytes} {k : Nat} (hg : Grows calls calls')
    (h : Sent calls m k) : Sent calls' m k := by
  obtain ⟨c, hc, hstage, rfl⟩ := h
  obtain ⟨c', hc', hrequest, hstage'⟩ := hg k c hc
  exact ⟨c', hc', hstage' hstage, by rw [hrequest]⟩

theorem Answers.grow {log log' : List Execution} {r : Request} {n : Int32} {o : Outcome}
    (hlog : ∀ e ∈ log, e ∈ log') (h : Answers log r n o) : Answers log' r n o := by
  obtain ⟨e, he, hrest⟩ := h
  exact ⟨e, hlog e he, hrest⟩

theorem Sound.grow {calls calls' : List Call} {log log' : List Execution} {k : Nat} {o : Outcome}
    (hg : Grows calls calls') (hlog : ∀ e ∈ log, e ∈ log') (h : Sound calls log k o) :
    Sound calls' log' k o := by
  obtain ⟨c, hc, ho⟩ := h
  obtain ⟨c', hc', hrequest, -⟩ := hg k c hc
  refine ⟨c', hc', ho.imp_right fun ha => ?_⟩
  rw [hrequest]
  exact ha.grow hlog

theorem Grows.append (calls : List Call) (c : Call) : Grows calls (calls ++ [c]) := by
  intro k x hx
  have hlt : k < calls.length := (List.getElem?_eq_some_iff.mp hx).1
  exact ⟨x, by rw [List.getElem?_append_left hlt, hx], rfl, id⟩

theorem getElem?_advance (s : State) (k : Nat) (stage : Stage) (j : Nat) :
    (s.advance k stage).calls[j]? =
      s.calls[j]?.map fun c => if k = j then { c with stage } else c :=
  List.getElem?_modify _ _ _ _

theorem Grows.advance (s : State) (k : Nat) {stage : Stage} (h : stage ≠ .reserved) :
    Grows s.calls (s.advance k stage).calls := by
  intro j c hc
  rw [getElem?_advance, hc]
  refine ⟨_, rfl, ?_, fun hstage => ?_⟩ <;> split
  · rfl
  · rfl
  · exact h
  · exact hstage

/-! ## Every step keeps the invariant -/

namespace Inv

theorem start (channel : Channel) (patience : Span) (t : Tree) :
    Inv (State.start channel patience t) := by
  constructor <;> simp [State.start, number, InFlight.OneEach]

theorem lt_of_waiting {s : State} (h : Inv s) {w : Waiter} (hw : w ∈ s.proxy.table.waiting) :
    w.ticket < s.calls.length := by
  obtain ⟨-, c, hc, -⟩ := h.waiting w hw
  exact (List.getElem?_eq_some_iff.mp hc).1

/-- Nobody who waits has the number of a ticket that nobody who waits has. -/
theorem number_ne {s : State} (h : Inv s) {k : Nat} (hk : k < 2147483647)
    (hfew : s.calls.length < 2147483647) {w : Waiter} (hw : w ∈ s.proxy.table.waiting)
    (hne : w.ticket ≠ k) : w.number ≠ number k := by
  intro hn
  have hlt := h.lt_of_waiting hw
  rw [(h.waiting w hw).1] at hn
  exact hne (number_inj (by omega) hk hn)

/-- Another table, in which nobody waits who did not and every outcome is sound. -/
theorem retable {s : State} (h : Inv s) {p : Proxy}
    (hnext : p.table.next = s.proxy.table.next) (htickets : p.table.tickets = s.proxy.table.tickets)
    (hwaiting : ∀ w ∈ p.table.waiting, w ∈ s.proxy.table.waiting)
    (hmail : ∀ a ∈ p.table.mail, Sound s.calls s.executions a.1 a.2) (honce : p.table.OneEach) :
    Inv { s with proxy := p } :=
  { h with
    next := hnext.trans h.next
    tickets := htickets.trans h.tickets
    waiting := fun w hw => h.waiting w (hwaiting w hw)
    mail := hmail
    mailOnce := honce }

theorem advance {s : State} (h : Inv s) (k : Nat) {stage : Stage} (hstage : stage ≠ .reserved)
    (hleft : stage = .waiting → ∀ a ∈ s.taken, a.1 ≠ k)
    (hgone : stage = .gone → ∀ w ∈ s.proxy.table.waiting, w.ticket ≠ k) :
    Inv (s.advance k stage) := by
  have hg : Grows s.calls (s.advance k stage).calls := Grows.advance s k hstage
  have hlength : (s.advance k stage).calls.length = s.calls.length := List.length_modify _ _ _
  refine
    { h with
      next := hlength ▸ h.next
      tickets := hlength ▸ h.tickets
      reserved := ?_
      waiting := ?_
      left := ?_
      mail := fun a ha => (h.mail a ha).grow hg fun _ he => he
      taken := fun a ha => (h.taken a ha).grow hg fun _ he => he
      sent := fun m hm => (h.sent m hm).imp fun j hj => hj.grow hg }
  · intro j c hc
    rw [getElem?_advance] at hc
    obtain ⟨x, hx, rfl⟩ := Option.map_eq_some_iff.mp hc
    have hreserved := h.reserved j x hx
    split <;> exact hreserved
  · intro w hw
    obtain ⟨hnumber, c, hc, hcaptured, hnot⟩ := h.waiting w hw
    refine ⟨hnumber, _, by rw [getElem?_advance, hc]; rfl, ?_, ?_⟩ <;> split
    · exact hcaptured
    · exact hcaptured
    · next hk => exact fun hst => hgone hst w hw hk.symm
    · exact hnot
  · intro a ha
    obtain ⟨c, hc, hst⟩ := h.left a ha
    refine ⟨_, by rw [getElem?_advance, hc]; rfl, ?_⟩
    split
    · next hk =>
      cases stage with
      | reserved => exact absurd rfl hstage
      | waiting => exact absurd hk.symm (hleft rfl a ha)
      | leaving => exact .inl rfl
      | gone => exact .inr rfl
    · exact hst

theorem reserve {s : State} (h : Inv s) (hfew : s.calls.length + 1 < 2147483647) {r : Request}
    {v : Reservation} {p : Proxy} (hr : s.proxy.reserve r = (.ok v, p)) :
    Inv { s with proxy := p, calls := s.calls ++ [⟨r, v, .reserved⟩] } := by
  have hfree : ∀ w ∈ s.proxy.table.waiting, w.number ≠ s.proxy.table.next := by
    intro w hw
    have hlt := h.lt_of_waiting hw
    rw [h.next]
    exact h.number_ne (by omega) (by omega) hw (by omega)
  have hnext : 1 ≤ s.proxy.table.next := h.next ▸ one_le_number (by omega)
  unfold Proxy.reserve Proxy.allot at hr
  split at hr
  · cases hr
  rw [InFlight.reserve_of_free hnext hfree] at hr
  cases hr
  let c : Call := ⟨r, ⟨s.proxy.table.next, s.proxy.table.tickets⟩, .reserved⟩
  have hg := Grows.append s.calls c
  refine
    { h with
      next := ?_
      tickets := ?_
      mail := fun a ha => (h.mail a ha).grow hg fun _ he => he
      taken := fun a ha => (h.taken a ha).grow hg fun _ he => he
      sent := fun m hm => (h.sent m hm).imp fun j hj => hj.grow hg
      reserved := ?_
      waiting := ?_
      left := ?_ }
  · simp [h.next, number_succ]
  · simp [h.tickets]
  · intro k x hx
    rcases getElem?_snoc hx with hx | ⟨rfl, rfl⟩
    · exact h.reserved k x hx
    · rw [h.next, h.tickets]
  · intro w hw
    rcases List.mem_cons.mp hw with rfl | hw
    · have hlast : (s.calls ++ [c])[s.proxy.table.tickets]? = some c := by
        rw [h.tickets]
        exact List.getElem?_concat_length
      exact ⟨by rw [h.next, h.tickets], c, hlast, rfl, by simp [c]⟩
    · obtain ⟨hnumber, x, hx, hcaptured, hnot⟩ := h.waiting w hw
      refine ⟨hnumber, x, ?_, hcaptured, hnot⟩
      rw [List.getElem?_append_left (h.lt_of_waiting hw), hx]
  · intro a ha
    obtain ⟨x, hx, hstage⟩ := h.left a ha
    have hlt : a.1 < s.calls.length := (List.getElem?_eq_some_iff.mp hx).1
    exact ⟨x, by rw [List.getElem?_append_left hlt, hx], hstage⟩

theorem send {s : State} (h : Inv s) (hfew : s.calls.length < 2147483647) {k : Nat} {c : Call}
    {frame : Bytes} (hc : s.calls[k]? = some c) (hstage : c.stage = .reserved)
    (hframe : frame = c.request.encode c.reservation.number) :
    Inv { s.advance k .waiting with requests := frame :: s.requests } := by
  have hlt : k < s.calls.length := (List.getElem?_eq_some_iff.mp hc).1
  rw [h.reserved k c hc] at hframe
  have hadvance : Inv (s.advance k .waiting) := by
    refine h.advance k (by decide) (fun _ a ha => ?_) (fun hst => by cases hst)
    rintro rfl
    obtain ⟨x, hx, hleft⟩ := h.left a ha
    obtain rfl := Option.some.inj (hc.symm.trans hx)
    simp [hstage] at hleft
  -- a frame that was sent belongs to another call, so it has another number
  have hnew : frame ∉ s.requests ++ s.executions.map (·.message) := by
    intro hm
    obtain ⟨j, x, hx, hsent, hj⟩ := h.sent frame hm
    have hjlt : j < s.calls.length := (List.getElem?_eq_some_iff.mp hx).1
    have hnumbers := congrArg Frame.number? (hframe.symm.trans hj)
    rw [Request.number?_encode, Request.number?_encode, Option.some.injEq] at hnumbers
    obtain rfl := number_inj (by omega) (by omega) hnumbers
    obtain rfl := Option.some.inj (hc.symm.trans hx)
    exact hsent hstage
  refine { hadvance with sent := ?_, sentOnce := List.nodup_cons.mpr ⟨hnew, h.sentOnce⟩ }
  intro m hm
  rcases List.mem_cons.mp hm with rfl | hm
  · refine ⟨k, { c with stage := .waiting }, ?_, by simp, hframe⟩
    simp [getElem?_advance, hc]
  · exact hadvance.sent m hm

theorem message_eq {s : State} (h : Inv s) (hfew : s.calls.length < 2147483647) {m m' : Bytes}
    (hm : m ∈ s.requests ++ s.executions.map (·.message))
    (hm' : m' ∈ s.requests ++ s.executions.map (·.message))
    (hn : Frame.number? m = Frame.number? m') : m = m' := by
  obtain ⟨j, x, hx, -, rfl⟩ := h.sent m hm
  obtain ⟨k, y, hy, -, rfl⟩ := h.sent m' hm'
  have hj : j < s.calls.length := (List.getElem?_eq_some_iff.mp hx).1
  have hk : k < s.calls.length := (List.getElem?_eq_some_iff.mp hy).1
  rw [Request.number?_encode, Request.number?_encode, Option.some.injEq] at hn
  obtain rfl := number_inj (by omega) (by omega) hn
  rw [Option.some.inj (hx.symm.trans hy)]

theorem number?_response {s : State} (h : Inv s) {m f : Bytes} {t : Tree}
    (hm : m ∈ s.requests ++ s.executions.map (·.message)) (hf : (t.dispatch m).1 = some f) :
    Frame.number? f = Frame.number? m := by
  obtain ⟨k, c, -, -, rfl⟩ := h.sent m hm
  obtain ⟨outcome, rfl⟩ := Tree.exists_of_dispatch_encode hf
  rw [Frame.number?_writeHeader, Request.number?_encode]

theorem execute {s : State} (h : Inv s) (hfew : s.calls.length < 2147483647) {m : Bytes}
    (hm : m ∈ s.requests) {answers : List Bytes} (t : Tree)
    (hanswers : answers = [] ∨ ∃ f, answers = [f] ∧ (s.tree.dispatch m).1 = some f) :
    Inv { s with tree := t, requests := s.requests.erase m,
                 executions := ⟨m, s.tree⟩ :: s.executions,
                 responses := answers ++ s.responses } := by
  have hperm : (s.requests ++ s.executions.map (·.message)).Perm
      (s.requests.erase m ++ m :: s.executions.map (·.message)) :=
    ((List.perm_cons_erase hm).append_right _).trans List.perm_middle.symm
  have hlog : ∀ e ∈ s.executions, e ∈ (⟨m, s.tree⟩ : Execution) :: s.executions :=
    fun e he => List.mem_cons_of_mem _ he
  have hg : Grows s.calls s.calls := fun k c hc => ⟨c, hc, rfl, id⟩
  have hall : m ∈ s.requests ++ s.executions.map (·.message) := List.mem_append_left _ hm
  refine
    { h with
      mail := fun a ha => (h.mail a ha).grow hg hlog
      taken := fun a ha => (h.taken a ha).grow hg hlog
      sent := fun x hx => h.sent x (hperm.mem_iff.mpr hx)
      sentOnce := hperm.nodup_iff.mp h.sentOnce
      answered := ?_
      answeredOnce := ?_ }
  · intro f hf
    rcases hanswers with rfl | ⟨g, rfl, hg⟩
    · obtain ⟨e, he, hd⟩ := h.answered f hf
      exact ⟨e, hlog e he, hd⟩
    · rcases List.mem_cons.mp hf with rfl | hf
      · exact ⟨⟨m, s.tree⟩, List.mem_cons_self, hg⟩
      · obtain ⟨e, he, hd⟩ := h.answered f hf
        exact ⟨e, hlog e he, hd⟩
  · rcases hanswers with rfl | ⟨g, rfl, hg⟩
    · exact h.answeredOnce
    · refine List.nodup_cons.mpr ⟨fun hmem => ?_, h.answeredOnce⟩
      -- the response with this number would answer a frame that was executed before
      obtain ⟨f, hf, hn⟩ := List.mem_map.mp hmem
      obtain ⟨e, he, hd⟩ := h.answered f hf
      have hmessage : e.message ∈ s.executions.map (·.message) := List.mem_map_of_mem he
      have hemem : e.message ∈ s.requests ++ s.executions.map (·.message) :=
        List.mem_append_right _ hmessage
      rw [h.number?_response hemem hd, h.number?_response hall hg] at hn
      rw [h.message_eq hfew hemem hall hn] at hmessage
      exact (List.nodup_append.mp h.sentOnce).2.2 m hm m hmessage rfl

theorem file {s : State} (h : Inv s) (hfew : s.calls.length < 2147483647) {f : Bytes}
    {filing : Proxy.Filing} (hf : f ∈ s.responses)
    (hfiling : Proxy.Filing.ofMessage? f = some filing) :
    Inv { s with proxy := s.proxy.file filing, responses := s.responses.erase f,
                 filed := f :: s.filed } := by
  have hperm : (s.responses ++ s.filed).Perm (s.responses.erase f ++ f :: s.filed) :=
    ((List.perm_cons_erase hf).append_right _).trans List.perm_middle.symm
  have hsame := InFlight.sameNumbers_complete s.proxy.table filing.header.number
    fun captured => (Outcome.decode filing.operation captured filing.body).1
  have hfile : Inv { s with proxy := s.proxy.file filing } := by
    refine h.retable hsame.next hsame.tickets (fun w hw => hsame.waiting ▸ hw) (fun a ha => ?_)
      (h.mailOnce.complete _ _)
    rcases InFlight.mem_mail_of_complete ha with ha | ⟨w, hw, hn, rfl⟩
    · exact h.mail a ha
    · obtain ⟨hnumber, c, hc, hcaptured, -⟩ := h.waiting w hw
      obtain ⟨e, he, hd⟩ := h.answered f (List.mem_append_left _ hf)
      obtain ⟨k, x, hx, -, hmessage⟩ :=
        h.sent e.message (List.mem_append_right _ (List.mem_map_of_mem he))
      have hk : k < s.calls.length := (List.getElem?_eq_some_iff.mp hx).1
      have hw' := h.lt_of_waiting hw
      rw [hmessage] at hd
      obtain ⟨outcome, rfl⟩ := Tree.exists_of_dispatch_encode hd
      rw [Proxy.ofMessage?_writeHeader] at hfiling
      obtain rfl := Option.some.inj hfiling
      -- the waiter has the number of the request that was executed, so it is its caller
      obtain rfl := number_inj (by omega) (by omega) (hnumber.symm.trans hn)
      obtain rfl := Option.some.inj (hc.symm.trans hx)
      have hdecode := Response.decode_outcome c.request.operation (number w.ticket) outcome
        w.captured
      rw [← hmessage] at hd
      rw [hcaptured] at hdecode ⊢
      exact ⟨c, hc, .inr ⟨e, he, hmessage, _, _, hd, hdecode⟩⟩
  exact
    { hfile with
      answered := fun x hx => h.answered x (hperm.mem_iff.mpr hx)
      answeredOnce := (hperm.map _).nodup_iff.mp h.answeredOnce }

theorem take {s : State} (h : Inv s) {k : Nat} {c : Call} {o : Outcome} {p : Proxy}
    (hc : s.calls[k]? = some c) (hstage : c.stage = .waiting)
    (hp : s.proxy.outcome? c.reservation = (some o, p)) :
    Inv { s.advance k .leaving with proxy := p, taken := (k, o) :: s.taken } := by
  have hsame := InFlight.sameNumbers_receive s.proxy.table c.reservation
  have hmail := InFlight.mail_of_receive s.proxy.table c.reservation
  obtain ⟨htable, ho⟩ := Proxy.receive_of_outcome? hp
  have hsound : Sound s.calls s.executions k o := by
    rcases ho with ho | rfl
    · have hmem := hmail.2 o ho
      rw [h.reserved k c hc] at hmem
      exact h.mail _ hmem
    · exact ⟨c, hc, .inl rfl⟩
  have hp : Inv { s with proxy := p } := by
    refine h.retable ?_ ?_ (fun w hw => ?_) (fun a ha => h.mail a (hmail.1 a (htable ▸ ha)))
      (htable ▸ h.mailOnce.receive _)
    · rw [htable, hsame.next]
    · rw [htable, hsame.tickets]
    · rwa [htable, hsame.waiting] at hw
  have hadvance : Inv ({ s with proxy := p }.advance k .leaving) :=
    hp.advance k (by decide) (by simp) (by simp)
  have hnew : ∀ a ∈ s.taken, a.1 ≠ k := by
    rintro a ha rfl
    obtain ⟨x, hx, hleft⟩ := h.left a ha
    obtain rfl := Option.some.inj (hc.symm.trans hx)
    simp [hstage] at hleft
  refine { hadvance with taken := ?_, left := ?_, takenOnce := ?_ }
  · intro a ha
    rcases List.mem_cons.mp ha with rfl | ha
    · exact hsound.grow (Grows.advance s k (by decide)) fun _ he => he
    · exact hadvance.taken a ha
  · intro a ha
    rcases List.mem_cons.mp ha with rfl | ha
    · exact ⟨{ c with stage := .leaving }, by simp [State.advance, hc], .inl rfl⟩
    · exact hadvance.left a ha
  · refine List.nodup_cons.mpr ⟨fun hmem => ?_, h.takenOnce⟩
    obtain ⟨a, ha, hk⟩ := List.mem_map.mp hmem
    exact hnew a ha hk

theorem release {s : State} (h : Inv s) {k : Nat} {c : Call} (hc : s.calls[k]? = some c) :
    Inv { s.advance k .gone with proxy := s.proxy.release c.reservation } := by
  have hwaiting : ∀ w ∈ (s.proxy.release c.reservation).table.waiting,
      w ∈ s.proxy.table.waiting ∧ w.number ≠ number k := by
    intro w hw
    obtain ⟨hw, hn⟩ := List.mem_filter.mp hw
    rw [h.reserved k c hc] at hn
    exact ⟨hw, by simpa using hn⟩
  have hrelease : Inv { s with proxy := s.proxy.release c.reservation } :=
    h.retable rfl rfl (fun w hw => (hwaiting w hw).1)
      (fun a ha => h.mail a (List.mem_filter.mp ha).1) (h.mailOnce.filter _)
  refine hrelease.advance k (by decide) (by simp) (fun _ w hw hk => ?_)
  exact (hwaiting w hw).2 (hk ▸ (h.waiting w (hwaiting w hw).1).1)

theorem fail {s : State} (h : Inv s) : Inv { s with proxy := s.proxy.failWaiting } := by
  obtain ⟨hsame, hmail⟩ := InFlight.failAll_spec s.proxy.table (.transport .channelClosed)
  refine h.retable hsame.next hsame.tickets (fun w hw => hsame.waiting ▸ hw) (fun a ha => ?_)
    (h.mailOnce.failAll _)
  rcases hmail a ha with ha | ⟨hfault, w, hw, hticket⟩
  · exact h.mail a ha
  · obtain ⟨-, c, hc, -⟩ := h.waiting w hw
    exact ⟨c, hticket ▸ hc, .inl hfault⟩

theorem step {s s' : State} (h : Inv s) (hs : Step s s') (hfew : s'.calls.length < 2147483647) :
    Inv s' := by
  cases hs with
  | reserve r hr => exact h.reserve (by simpa using hfew) hr
  | send k link hc hstage hsend hsent =>
    have hlength : (s.advance k .waiting).calls.length = s.calls.length := List.length_modify _ _ _
    exact h.send (hlength ▸ hfew) hc hstage (Proxy.frame_of_send hsend hsent)
  | execute ch link answers hm hwork hsent =>
    obtain ⟨-, hanswers⟩ := Service.dispatch_of_work hwork hsent
    exact h.execute hfew hm _ hanswers
  | elsewhere t => exact { h with }
  | file hf hfiling => exact h.file hfew hf hfiling
  | take k hc hstage hp => exact h.take hc hstage hp
  | giveUp k hc hstage => exact h.advance k (by decide) (by simp) (by simp)
  | release k hc hstage => exact h.release hc
  | lose => exact h.retable rfl rfl (fun w hw => hw) h.mail h.mailOnce
  | fail => exact h.fail

end Inv

theorem Step.length_le {s s' : State} (h : Step s s') : s.calls.length ≤ s'.calls.length := by
  cases h <;> simp [State.advance]

theorem Reachable.inv {s : State} (h : Reachable s) (hfew : s.calls.length < 2147483647) :
    Inv s := by
  induction h with
  | start channel patience t => exact Inv.start channel patience t
  | step h hs ih => exact (ih (by have := hs.length_le; omega)).step hs hfew

/-- However the steps are interleaved, an outcome that was taken is read from the response to
the frame of its own request, with its own name, unless the channel ended; no frame is executed
twice; a caller takes one outcome at most, of a mailbox that never holds two, and no two
responses go by one number; a response with a number that was freed changes nothing. -/
theorem responses_match {s : State} (h : Reachable s) (hfew : s.calls.length < 2147483647) :
    (∀ a ∈ s.taken, ∃ c, s.calls[a.1]? = some c ∧
      (a.2 = .error (.transport .channelClosed) ∨
        Answers s.executions c.request c.reservation.number a.2)) ∧
    (s.executions.map (·.message)).Nodup ∧
    ((s.taken.map (·.1)).Nodup ∧ s.proxy.table.OneEach ∧ (s.filed.map Frame.number?).Nodup) ∧
    ∀ c ∈ s.calls, c.stage = .gone →
      ∀ f, s.proxy.table.complete c.reservation.number f = (false, s.proxy.table) := by
  have hinv := h.inv hfew
  refine ⟨fun a ha => ?_, (List.nodup_append.mp hinv.sentOnce).2.1,
    ⟨hinv.takenOnce, hinv.mailOnce, ?_⟩, fun c hc hgone f => ?_⟩
  · obtain ⟨c, hc, ho⟩ := hinv.taken a ha
    exact ⟨c, hc, by rwa [hinv.reserved a.1 c hc]⟩
  · have hanswered := hinv.answeredOnce
    rw [List.map_append] at hanswered
    exact (List.nodup_append.mp hanswered).2.1
  · obtain ⟨k, hk⟩ := List.mem_iff_getElem?.mp hc
    have hlt : k < s.calls.length := (List.getElem?_eq_some_iff.mp hk).1
    refine InFlight.complete_of_free (fun w hw => ?_) f
    rw [hinv.reserved k c hk]
    refine hinv.number_ne (by omega) hfew hw ?_
    rintro rfl
    obtain ⟨-, x, hx, -, hwaits⟩ := hinv.waiting w hw
    obtain rfl := Option.some.inj (hk.symm.trans hx)
    exact hwaits hgone

/-- Two requests whose responses overtake each other. -/
theorem responses_match_crossed : ∃ s : State, Reachable s ∧ s.calls.length < 2147483647 ∧
    s.taken = [(1, .ok (.pairs [])), (0, .ok (.entry (.context Name.root)))] ∧
    (∃ c, s.calls[0]? = some c ∧
      Answers s.executions c.request c.reservation.number (.ok (.entry (.context Name.root)))) ∧
    (s.executions.map (·.message)).Nodup ∧
    ∀ f, s.proxy.table.complete 2 f = (false, s.proxy.table) := by
  have hs := Reachable.start ⟨1, "naming", 0, false⟩ ⟨1000⟩ []
  have hs := hs.step (.reserve (.lookup Name.root) rfl)
  have hs := hs.step (.reserve (.list Name.root) rfl)
  have hs := hs.step (.send 0 {} rfl rfl rfl rfl)
  have hs := hs.step (.send 1 {} rfl rfl rfl rfl)
  have hs := hs.step (.execute ⟨1, "naming", 0, false⟩ {} [_] List.mem_cons_self rfl rfl)
  have hs := hs.step (.execute ⟨1, "naming", 0, false⟩ {} [_] List.mem_cons_self rfl rfl)
  have hs := hs.step (.file List.mem_cons_self rfl)
  have hs := hs.step (.file List.mem_cons_self rfl)
  have hs := hs.step (.take 0 rfl rfl rfl)
  have hs := hs.step (.take 1 rfl rfl rfl)
  have hs := hs.step (.release 1 rfl rfl)
  obtain ⟨s, hs, hcalls, htaken, hfreed⟩ : ∃ s : State, Reachable s ∧ s.calls.length = 2 ∧
      s.taken = [(1, .ok (.pairs [])), (0, .ok (.entry (.context Name.root)))] ∧
      s.calls[1]? = some ⟨.list Name.root, ⟨2, 1⟩, .gone⟩ := ⟨_, hs, rfl, rfl, rfl⟩
  have hfew : s.calls.length < 2147483647 := by omega
  obtain ⟨hanswers, hexecuted, -, hnobody⟩ := responses_match hs hfew
  refine ⟨s, hs, hfew, htaken, ?_, hexecuted, hnobody _ (List.mem_of_getElem? hfreed) rfl⟩
  obtain ⟨c, hc, ho | ho⟩ := hanswers (0, .ok (.entry (.context Name.root))) (by simp [htaken])
  · cases ho
  · exact ⟨c, hc, ho⟩

end Matching

end NameDirectory
