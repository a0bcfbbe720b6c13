import NameDirectory.Network
import NameDirectory.Proofs.Custody
import NameDirectory.Proofs.Matching

/-!
# Asking a directory from afar

A client's store over a directory, with nothing between the two but the frames: a request gets a
number, is dispatched, and the response is filed under that number.  On top of it, a group of
servers that all serve the one directory, and contexts on the group.

* `Proxy.ask` is one request of a store; `Proxy.Idle.ask_eq`: it gives what the directory gives;
* `Proxy.Idle.exists_of_lookup`: a context that was found goes by the name it was looked up by;
* `Client` is the group with its stores, whichever attempts to reach a server fail;
* `Client.Sound.request_eq`, `Client.Sound.exists_of_lookup`: the same two of what is asked of a
  context.
-/

namespace NameDirectory

/-! ## A proxy over a directory -/

namespace Proxy

/-- A proxy that is open and at which nobody waits. -/
structure Idle (p : Proxy) : Prop where
  opened : p.closed = false
  waiting : p.table.waiting = []
  mail : p.table.mail = []

/-- File what a message is a response to. -/
def fileMessage (p : Proxy) (message : Option Bytes) : Proxy :=
  match message.bind Filing.ofMessage? with
  | none => p
  | some f => p.file f

/-- One request from its number to its outcome, where nothing but its frame and the response
to it is on the channel. -/
def ask (p : Proxy) (r : Request) (t : Tree) : Outcome × Proxy × Tree :=
  match p.reserve r with
  | (.error fault, p) => (.error fault, p, t)
  | (.ok v, p) =>
    let (response, t) := t.dispatch (r.encode v.number)
    let (outcome, p) := Network.conclude r.operation v (p.fileMessage response)
    (outcome, p, t)

variable {p : Proxy} {r : Request}

/-- The number that an idle proxy gives. -/
def number (p : Proxy) : Int32 := InFlight.firstFrom p.table.next

theorem Idle.reserve (h : p.Idle) (r : Request) : ∃ p' : Proxy,
    p.reserve r = (.ok ⟨p.number, p.table.tickets⟩, p') ∧ p'.closed = false ∧
      p'.table.waiting = [⟨p.number, p.table.tickets, r.captured?⟩] ∧ p'.table.mail = [] := by
  simp [Proxy.reserve, allot, InFlight.reserve, InFlight.allocate, h.opened, h.waiting, h.mail, number]

theorem fileMessage_spec (p : Proxy) (message : Option Bytes) :
    (p.fileMessage message).closed = p.closed ∧
      p.table.SameNumbers (p.fileMessage message).table ∧
      ∀ a ∈ (p.fileMessage message).table.mail,
        a ∈ p.table.mail ∨ ∃ w ∈ p.table.waiting, a.1 = w.ticket := by
  unfold fileMessage
  split
  · exact ⟨rfl, ⟨rfl, rfl, rfl⟩, fun a ha => .inl ha⟩
  · refine ⟨rfl, InFlight.sameNumbers_complete _ _ _, fun a ha => ?_⟩
    rcases InFlight.mem_mail_of_complete ha with ha | ⟨w, hw, -, rfl⟩
    · exact .inl ha
    · exact .inr ⟨w, hw, rfl⟩

theorem outcome?_snd (p : Proxy) (v : Reservation) :
    (p.outcome? v).2 = { p with table := (p.table.receive v).2 } := by
  unfold outcome?
  split <;> next h => rw [h]

/-- Where only one request waits, nobody does once it is concluded. -/
theorem idle_conclude {v : Reservation} (op : Operation) (hopen : p.closed = false)
    (hwaiting : ∀ w ∈ p.table.waiting, w.number = v.number)
    (hmail : ∀ a ∈ p.table.mail, a.1 = v.ticket) : (Network.conclude op v p).2.Idle := by
  have hsame := InFlight.sameNumbers_receive p.table v
  have hreceived := (InFlight.mail_of_receive p.table v).1
  have hconclude : (Network.conclude op v p).2 =
      { p with table := (p.table.receive v).2.drop v } := by
    change ((p.outcome? v).2).release v = _
    rw [outcome?_snd]
    rfl
  rw [hconclude]
  refine ⟨hopen, ?_, ?_⟩
  · refine List.filter_eq_nil_iff.mpr fun w hw => ?_
    rw [hsame.waiting] at hw
    simpa using hwaiting w hw
  · refine List.filter_eq_nil_iff.mpr fun a ha => ?_
    simpa using hmail a (hreceived a ha)

theorem Idle.ask (h : p.Idle) (r : Request) (t : Tree) : (p.ask r t).2.1.Idle := by
  obtain ⟨p', hreserve, hopen, hwaiting, hmail⟩ := h.reserve r
  simp only [Proxy.ask, hreserve]
  obtain ⟨hclosed, hsame, hfiled⟩ := p'.fileMessage_spec (t.dispatch (r.encode p.number)).1
  refine idle_conclude _ (hclosed.trans hopen) (fun w hw => ?_) (fun a ha => ?_)
  · rw [hsame.waiting, hwaiting] at hw
    rw [List.mem_singleton.mp hw]
  · rcases hfiled a ha with ha | ⟨w, hw, ha⟩
    · rw [hmail] at ha
      cases ha
    · rw [hwaiting] at hw
      rw [ha, List.mem_singleton.mp hw]

theorem Idle.tree_ask (h : p.Idle) (r : Request) (t : Tree) :
    (p.ask r t).2.2 = (t.dispatch (r.encode p.number)).2 := by
  obtain ⟨p', hreserve, -⟩ := h.reserve r
  simp only [Proxy.ask, hreserve]

/-- The outcome is what stands in the response, read with the name that was kept. -/
theorem Idle.outcome_ask (h : p.Idle) {r : Request} {t : Tree} {body : Bytes}
    (hresponse : (t.dispatch (r.encode p.number)).1 =
      some (Frame.writeHeader ⟨r.operation.code, p.number⟩ ++ body)) :
    (p.ask r t).1 = r.operation.conclude (Outcome.decode r.operation r.captured? body).1 := by
  obtain ⟨p', hreserve, -, hwaiting, hmail⟩ := h.reserve r
  simp only [Proxy.ask, hreserve, hresponse]
  have hfiling := ofMessage?_writeHeader r.operation p.number body
  have htable : (p'.fileMessage (some (Frame.writeHeader ⟨r.operation.code, p.number⟩ ++ body))).table.mail =
      [(p.table.tickets, (Outcome.decode r.operation r.captured? body).1)] := by
    simp [fileMessage, hfiling, file, InFlight.complete, InFlight.waiter?, hwaiting, InFlight.post,
      InFlight.mail?, hmail]
  simp [Network.conclude, outcome?, InFlight.receive, InFlight.mail?, htable]

end Proxy

/-! ## What a client makes of an answer -/

theorem Request.expects_known {r : Request} {reply : Reply} (h : r.Admits reply) :
    r.operation.expects (r.known reply) = true := by
  cases r <;> cases reply <;> try exact h.elim
  case lookup.entry n e => cases e <;> rfl
  case createSubcontext.entry n e =>
    obtain rfl : e = .context n := h
    rfl
  all_goals rfl

/-- A directory gives replies of the kind that was asked for. -/
theorem Operation.conclude_seen (t : Tree) (r : Request) :
    r.operation.conclude (r.seen (t.serve r).1) = r.seen (t.serve r).1 := by
  rw [Tree.serve_eq_answer]
  cases ha : t.answer r with
  | error fault => rfl
  | ok answer =>
    obtain ⟨reply, t'⟩ := answer
    have hexpects := Request.expects_known (Tree.admits_of_answer ha)
    simp only [Request.seen, conclude, hexpects, if_true]

/-- Asking at a distance: what the directory gives, and the tree that it leaves. -/
theorem Proxy.Idle.ask_eq {p : Proxy} (h : p.Idle) {r : Request} {t : Tree} (hr : r.Travels)
    (ho : Outcome.Travels (t.serve r).1) :
    (p.ask r t).1 = r.seen (t.serve r).1 ∧ (p.ask r t).2.2 = (t.serve r).2 := by
  obtain ⟨body, hwrite, hread⟩ := Request.yields_seen ho
  have hdispatch := t.dispatch_encode hr p.number hwrite
  have hdecode : Outcome.decode r.operation r.captured? body = (r.seen (t.serve r).1, []) := by
    have hread := hread []
    rwa [List.append_nil] at hread
  constructor
  · rw [h.outcome_ask (by rw [hdispatch]), hdecode, Operation.conclude_seen]
  · rw [h.tree_ask, hdispatch]

/-! ### Contexts that are found -/

namespace Outcome.Reader

/-- A failure is not read as a success, whatever fault it carries. -/
theorem outcome_of_failure {bytes rest : Bytes} {u : Unit}
    (h : (ExceptT.run outcome).run (Frame.failure :: Tag.exception.code :: bytes) = (.ok u, rest)) :
    False := by
  have hbyte := yields_ofFrame (Frame.Reader.yields_byte Frame.failure) (Tag.exception.code :: bytes)
  have htag := yields_ofFrame (Frame.Reader.yields_tag .exception) bytes
  obtain ⟨b, rest₁, hb, h⟩ := exists_of_run_bind h
  cases hbyte.symm.trans hb
  obtain ⟨tag, rest₂, ht, h⟩ := exists_of_run_bind h
  cases htag.symm.trans ht
  obtain ⟨fault, rest₃, -, h⟩ := exists_of_run_bind h
  cases h

theorem exists_of_entry {x : Except NamingFault Reply} {bytes rest : Bytes} {a b : Name}
    (hx : ∀ reply, x = .ok reply → ∃ e, reply = .entry e)
    (hwrite : writeOutcome .lookup x = .ok bytes)
    (h : (ExceptT.run (entry .object (some a))).run bytes = (.ok (.entry (.context b)), rest)) :
    b = a ∧ ∃ m, x = .ok (.entry (.context m)) := by
  cases x with
  | error fault =>
    cases hwrite
    obtain ⟨u, rest₁, hu, -⟩ := exists_of_run_bind h
    exact (outcome_of_failure hu).elim
  | ok reply =>
    obtain ⟨e, rfl⟩ := hx reply rfl
    obtain ⟨u, rest₁, hu, h⟩ := exists_of_run_bind h
    cases e with
    | object o =>
      cases hwrite
      cases (yields_outcome _).symm.trans hu
      obtain ⟨tag, rest₂, ht, h⟩ := exists_of_run_bind h
      cases (yields_ofFrame (Frame.Reader.yields_tag .object) _).symm.trans ht
      obtain ⟨o', rest₃, -, h⟩ := exists_of_run_bind h
      cases h
    | context m =>
      cases hwrite
      cases (yields_outcome _).symm.trans hu
      obtain ⟨tag, rest₂, ht, h⟩ := exists_of_run_bind h
      cases (yields_ofFrame (Frame.Reader.yields_tag .context) []).symm.trans ht
      cases h
      exact ⟨rfl, m, rfl⟩

end Outcome.Reader

theorem Operation.eq_of_conclude {op : Operation} {o : Outcome} {reply : Reply}
    (h : op.conclude o = .ok reply) : o = .ok reply := by
  cases o with
  | error fault => cases h
  | ok reply' =>
    simp only [conclude] at h
    split at h
    · exact h
    · cases h

namespace Tree

/-- A request that is refused changes nothing. -/
theorem eq_of_refused {t : Tree} {r : Request} {fault : NamingFault}
    (h : (t.serve r).1 = .error fault) : (t.serve r).2 = t := by
  rw [serve_eq_answer] at h ⊢
  cases ha : t.answer r with
  | error fault' => rfl
  | ok answer =>
    rw [ha] at h
    cases h

theorem serve_lookup (t : Tree) (n : Name) :
    t.serve (.lookup n) = ((t.lookup n).map Reply.entry, t) := by
  rw [serve_eq_answer]
  cases h : t.lookup n <;> simp [answer, h, Bind.bind, Except.bind, Pure.pure, Except.pure, Except.map]

theorem dispatch_lookup (t : Tree) {n : Name} (h : (Request.lookup n).Travels) (number : Int32) :
    ∃ body, writeOutcome .lookup ((t.lookup n).map Reply.entry) = .ok body ∧
      t.dispatch ((Request.lookup n).encode number) =
        (some (Frame.writeHeader ⟨Operation.lookup.code, number⟩ ++ body), t) := by
  have hwrite : ∃ body, writeOutcome .lookup ((t.lookup n).map Reply.entry) = .ok body := by
    cases t.lookup n with
    | error fault => exact ⟨_, rfl⟩
    | ok e => cases e <;> exact ⟨_, rfl⟩
  obtain ⟨body, hwrite⟩ := hwrite
  have hserve := t.serve_lookup n
  have hwritten : writeOutcome .lookup (t.serve (.lookup n)).1 = .ok body := by
    rw [hserve]
    exact hwrite
  have hdispatch := t.dispatch_encode h number hwritten
  rw [hserve] at hdispatch
  exact ⟨body, hwrite, hdispatch⟩

end Tree

/-- A context that a lookup found goes by the name it was looked up by, and the directory found
one too. -/
theorem Proxy.Idle.exists_of_lookup {p : Proxy} (h : p.Idle) {t : Tree} {n b : Name}
    (hn : (Request.lookup n).Travels)
    (hfound : (p.ask (.lookup n) t).1 = .ok (.entry (.context b))) :
    b = n ∧ ∃ m, t.lookup n = .ok (.context m) := by
  obtain ⟨body, hwrite, hdispatch⟩ := t.dispatch_lookup hn p.number
  have houtcome := h.outcome_ask (r := .lookup n) (congrArg Prod.fst hdispatch)
  rw [hfound] at houtcome
  have hdecode := Operation.eq_of_conclude houtcome.symm
  have hentry : ∀ reply, (t.lookup n).map Reply.entry = .ok reply → ∃ e, reply = .entry e := by
    intro reply hreply
    cases he : t.lookup n <;> rw [he] at hreply <;> cases hreply
    exact ⟨_, rfl⟩
  obtain ⟨hb, m, hm⟩ := Outcome.Reader.exists_of_entry hentry hwrite (Prod.ext hdecode rfl)
  refine ⟨hb, m, ?_⟩
  cases he : t.lookup n <;> rw [he] at hm <;> cases hm
  rfl

/-! ## Clients -/

/-- A client of servers that all serve one directory. -/
structure Client where
  group : Failover.Group Nat
  /-- The stores that were opened, by number. -/
  proxies : List Proxy := []
  tree : Tree
  patience : Span
  /-- What the next attempts to reach a server fail with, or not; those after them do not. -/
  attempts : List (Option TransportFault) := []

namespace Client

def connect (w : Client) : Except TransportFault Nat × Client :=
  match w.attempts.head?.join with
  | some fault => (.error fault, { w with attempts := w.attempts.tail })
  | none =>
    let p : Proxy := { channel := ⟨1, Greeting.service, 0, false⟩, patience := w.patience }
    (.ok w.proxies.length, { w with attempts := w.attempts.tail, proxies := w.proxies ++ [p] })

def closeStore (s : Nat) (w : Client) : Client :=
  { w with proxies := w.proxies.modify s fun p => { p with closed := true } }

def environment : Failover.Environment Client Nat where
  connect _ := connect
  connected _ _ w := w
  closeSession := closeStore
  closeConnector w := w

def place : Failover.Place Client Nat := ⟨Client.group, fun group w => { w with group }⟩

def ask (r : Request) (s : Nat) (w : Client) : Outcome × Client :=
  match w.proxies[s]? with
  | none => (.error .closed, w)
  | some p =>
    let (outcome, p, tree) := p.ask r w.tree
    (outcome, { w with proxies := w.proxies.set s p, tree })

/-- What contexts are on: the group of servers. -/
def stores : Script.Stores Client Unit where
  serve _ r w := Failover.run environment place (ask r) w
  close _ w := (.ok (), Failover.close environment place w)
  home := id

def request (w : Client) (c : Context Unit) (r : Request) : Outcome × Client :=
  stores.serve c.store (c.absolute r) w

/-- Ask contexts for one thing after the other. -/
def after (w : Client) (asked : List (Context Unit × Request)) : Client :=
  asked.foldl (fun w (c, r) => (w.request c r).2) w

def start (servers : List String) (tree : Tree) (attempts : List (Option TransportFault)) : Client :=
  { group := { servers }, tree, patience := Span.ofSeconds 10, attempts }

/-! ### The store in use is idle -/

/-- The store that is held is open and nobody waits at it; the directory is as it should be. -/
def Account (P : Tree → Prop) (held : Option Nat) (w : Client) : Prop :=
  P w.tree ∧ ∀ s, held = some s → ∃ p, w.proxies[s]? = some p ∧ p.Idle

variable {P : Tree → Prop} {w : Client} {c : Context Unit} {r : Request}

theorem accounts (P : Tree → Prop) : environment.Accounts (Account P) where
  opened := by
    intro index w s w' hw hconnect
    simp only [environment, connect] at hconnect
    split at hconnect <;> cases hconnect
    refine ⟨hw.1, fun s hs => ?_⟩
    cases hs
    exact ⟨_, List.getElem?_concat_length, rfl, rfl, rfl⟩
  failed := by
    intro index w fault w' hw hconnect
    simp only [environment, connect] at hconnect
    split at hconnect <;> cases hconnect
    exact ⟨hw.1, fun s hs => nomatch hs⟩
  connected := id
  closeSession hw := ⟨hw.1, fun s hs => nomatch hs⟩

theorem beside (P : Tree → Prop) : place.Beside (Account P) := ⟨fun _ => rfl, id⟩

theorem admits (hP : ∀ t number, P t → P (t.dispatch (r.encode number)).2) :
    place.Admits (Account P) (ask r) := by
  intro s w hw
  obtain ⟨p, hp, hidle⟩ := hw.2 s rfl
  obtain ⟨hs, -⟩ := List.getElem?_eq_some_iff.mp hp
  simp only [ask, hp]
  refine ⟨⟨?_, fun s' hs' => ?_⟩, rfl⟩
  · have htree := hidle.tree_ask r w.tree
    simp only [htree]
    exact hP _ _ hw.1
  · cases hs'
    exact ⟨_, List.getElem?_set_self hs, hidle.ask r w.tree⟩

/-- The client's store is as it should be. -/
def Sound (w : Client) : Prop := place.Accounted (Account fun _ => True) w

theorem sound_start (servers : List String) (tree : Tree) (attempts : List (Option TransportFault)) :
    (start servers tree attempts).Sound :=
  ⟨⟨trivial, fun _ hs => nomatch hs⟩, fun h => nomatch h⟩

theorem Sound.request (h : w.Sound) (c : Context Unit) (r : Request) : (w.request c r).2.Sound :=
  (Failover.run_accounts (accounts _) (beside _) (admits fun _ _ _ => trivial) h).accounted

theorem Sound.after (h : w.Sound) (asked : List (Context Unit × Request)) :
    (w.after asked).Sound := by
  induction asked generalizing w with
  | nil => exact h
  | cons a asked ih => exact ih (h.request a.1 a.2)

theorem session?_of_current {current : Failover.Current Nat} (hc : w.group.current = some current) :
    (place.get w).session? = some current.session := congrArg (Option.map _) hc

/-! ### What is served -/

/-- The store in use gives what the directory gives. -/
theorem Sound.request_eq (h : w.Sound) (hused : w.group.current.isSome)
    (hr : (c.absolute r).Travels) (ho : Outcome.Travels (w.tree.serve (c.absolute r)).1) :
    (w.request c r).1 = (c.absolute r).seen (w.tree.serve (c.absolute r)).1 ∧
      (w.request c r).2.tree = (w.tree.serve (c.absolute r)).2 := by
  obtain ⟨current, hc⟩ := Option.isSome_iff_exists.mp hused
  have hopen : w.group.closed = false := by
    cases hclosed : w.group.closed with
    | false => rfl
    | true => cases hc.symm.trans (h.closed hclosed)
  obtain ⟨p, hp, hidle⟩ := h.account.2 current.session (session?_of_current hc)
  have hask : (ask (c.absolute r) current.session w).1 =
        (c.absolute r).seen (w.tree.serve (c.absolute r)).1 ∧
      (ask (c.absolute r) current.session w).2.tree = (w.tree.serve (c.absolute r)).2 := by
    simp only [ask, hp]
    exact hidle.ask_eq hr ho
  have hrun : w.request c r = ask (c.absolute r) current.session w := by
    refine Failover.run_of_current hopen hc rfl ?_
    rw [hask.1]
    cases (w.tree.serve (c.absolute r)).1 <;> rfl
  rw [hrun]
  exact hask

/-- A context that the client finds goes by the name that was asked for, and the directory finds
one there too. -/
theorem Sound.exists_of_lookup (h : w.Sound) {n b : Name} (hn : (c.absolute (.lookup n)).Travels)
    (hfound : (w.request c (.lookup n)).1 = .ok (.entry (.context b))) :
    b = c.base.join n ∧ (w.request c (.lookup n)).2.tree = w.tree ∧
      ∃ m, w.tree.lookup (c.base.join n) = .ok (.context m) := by
  have hkeeps : ∀ t number, t = w.tree →
      (t.dispatch ((c.absolute (.lookup n)).encode number)).2 = w.tree := by
    rintro t number rfl
    obtain ⟨body, -, hdispatch⟩ := w.tree.dispatch_lookup hn number
    exact congrArg Prod.snd hdispatch
  have hran := Failover.run_accounts (accounts (· = w.tree)) (beside _) (admits hkeeps)
    ⟨⟨rfl, h.account.2⟩, h.closed⟩
  obtain ⟨current, w₀, haccounted, hc, hasked⟩ := hran.answered _ hfound
  have htree : w₀.tree = w.tree := haccounted.account.1
  obtain ⟨p, hp, hidle⟩ := haccounted.account.2 current.session (session?_of_current hc)
  simp only [ask, hp] at hasked
  obtain ⟨hb, m, hm⟩ := hidle.exists_of_lookup hn (congrArg Prod.fst hasked)
  exact ⟨hb, hran.accounted.account.1, m, htree ▸ hm⟩

end Client

end NameDirectory
