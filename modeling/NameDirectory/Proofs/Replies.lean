import NameDirectory.Proofs.Asking
import NameDirectory.Proofs.Atomicity
import NameDirectory.Proofs.Hangup

/-!
# What a response counts for

A response is read as its own header says, and given to the request with its number.  Only then the
caller looks at the kind of the reply, if its operation has a result at all.

* `Request.Accepts`: the operations whose responses can count for a request, and
  `Request.accepts_iff`: that these can, and no others;
* `Hangup.Traced`: what is in mailboxes, and what callers got, was read from responses that were
  received under the number of the request;
* `Hangup.accepted_of_success`: what it takes for an operation to succeed.
-/

namespace NameDirectory

/-! ## Kinds of replies -/

/-- What a reply tells. -/
inductive Reply.Kind where
  | void | entry | pairs | bindings
  deriving DecidableEq, Repr

def Reply.kind : Reply → Kind
  | void => .void
  | entry _ => .entry
  | pairs _ => .pairs
  | bindings _ => .bindings

namespace Operation

/-- What an operation results in. -/
def kind : Operation → Reply.Kind
  | lookup | lookupLink | createSubcontext => .entry
  | list => .pairs
  | listBindings => .bindings
  | bind | rebind | unbind | rename | destroySubcontext => .void

variable {op : Operation} {o : Outcome} {reply : Reply}

theorem kind_of_expects (h : op.expects reply = true) : op.kind = .void ∨ reply.kind = op.kind := by
  cases op <;> cases reply <;> simp_all [expects, kind, Reply.kind]

theorem expects_of_conclude (h : op.conclude o = .ok reply) : op.expects reply = true := by
  obtain rfl := eq_of_conclude h
  simp only [conclude] at h
  split at h
  · assumption
  · cases h

theorem conclude_of_kind (h : op.kind = .void ∨ reply.kind = op.kind)
    (hcontext : op = .createSubcontext → ∃ n, reply = .entry (.context n)) :
    op.conclude (.ok reply) = .ok reply := by
  have hexpects : op.expects reply = true := by
    cases op with
    | createSubcontext =>
      obtain ⟨n, rfl⟩ := hcontext rfl
      rfl
    | lookup | bind | rebind | list | listBindings | unbind | rename | destroySubcontext
    | lookupLink => cases reply <;> simp_all [kind, Reply.kind, expects]
  exact if_pos hexpects

end Operation

namespace Outcome

variable {op : Operation} {captured : Option Name} {reply : Reply} {bytes rest : Bytes} {n : Name}

theorem Reader.eq_of_requested (h : (ExceptT.run (requested captured)).run bytes = (.ok n, rest)) :
    captured = some n := by
  cases captured <;> cases h
  rfl

theorem Reader.kind_of_entry {tag : Tag}
    (h : (ExceptT.run (entry tag captured)).run bytes = (.ok reply, rest)) :
    reply.kind = .entry := by
  obtain ⟨u, rest₁, -, htag⟩ := exists_of_run_bind h
  obtain ⟨tag', rest₂, -, hvalue⟩ := exists_of_run_bind htag
  split at hvalue
  · obtain ⟨o, rest₃, -, hend⟩ := exists_of_run_bind hvalue
    cases hend
    rfl
  split at hvalue
  · obtain ⟨n, rest₃, -, hend⟩ := exists_of_run_bind hvalue
    cases hend
    rfl
  · cases hvalue

theorem Reader.eq_of_void (h : (ExceptT.run void).run bytes = (.ok reply, rest)) :
    reply = .void := by
  obtain ⟨u, rest₁, -, hrest⟩ := exists_of_run_bind h
  obtain ⟨left, rest₂, -, hend⟩ := exists_of_run_bind hrest
  dsimp only at hend
  split at hend
  · obtain ⟨tag, rest₃, -, hend⟩ := exists_of_run_bind hend
    cases hend
    rfl
  · cases hend
    rfl

/-- A reply is of the kind that its operation results in, and a context that was made is known only
where its name was kept. -/
theorem kind_of_decode (h : (decode op captured bytes).1 = .ok reply) :
    reply.kind = op.kind ∧ (op = .createSubcontext → captured.isSome) := by
  have hread : (ExceptT.run (read op captured)).run bytes =
    (.ok reply, (decode op captured bytes).2) := Prod.ext h rfl
  cases op with
  | lookup | lookupLink => exact ⟨Reader.kind_of_entry hread, nofun⟩
  | createSubcontext =>
    obtain ⟨u, rest₁, -, htag⟩ := exists_of_run_bind hread
    obtain ⟨tag, rest₂, -, hvalue⟩ := exists_of_run_bind htag
    split at hvalue
    · obtain ⟨n, rest₃, hname, hend⟩ := exists_of_run_bind hvalue
      cases hend
      exact ⟨rfl, fun _ => by rw [Reader.eq_of_requested hname, Option.isSome_some]⟩
    · cases hvalue
  | list | listBindings =>
    obtain ⟨u, rest₁, -, hlist⟩ := exists_of_run_bind hread
    obtain ⟨items, rest₂, -, hend⟩ := exists_of_run_bind hlist
    cases hend
    exact ⟨rfl, nofun⟩
  | bind | rebind | unbind | rename | destroySubcontext =>
    obtain rfl := Reader.eq_of_void hread
    exact ⟨rfl, nofun⟩

theorem decode_of_yields {result : Except ClientFault Reply}
    (h : Yields (read op captured) bytes result) : (decode op captured bytes).1 = result := by
  have hread := h []
  rw [List.append_nil] at hread
  exact congrArg Prod.fst hread

/-- Every operation has a response that is read as a success, and where a name was kept, one that is
read as a context if it may be one at all. -/
theorem exists_decode (op : Operation) (captured : Option Name)
    (h : op = .createSubcontext → captured.isSome) :
    ∃ body reply, (decode op captured body).1 = .ok reply ∧ reply.kind = op.kind ∧
      (op.kind = .entry → captured.isSome → ∃ n, reply = .entry (.context n)) := by
  have hnull : (Wire.Value.object .null).Fits := by decide
  cases op with
  | bind | rebind | unbind | rename | destroySubcontext =>
    exact ⟨[Frame.success], .void, rfl, rfl, nofun⟩
  | list => exact ⟨Frame.success :: Tag.list.code :: Frame.writeCount 0, .pairs [], rfl, rfl, nofun⟩
  | listBindings =>
    exact ⟨Frame.success :: Tag.list.code :: Frame.writeCount 0, .bindings [], rfl, rfl, nofun⟩
  | createSubcontext =>
    obtain ⟨n, rfl⟩ := Option.isSome_iff_exists.mp (h rfl)
    exact ⟨[Frame.success, Tag.context.code], _, rfl, rfl, fun _ _ => ⟨n, rfl⟩⟩
  | lookup =>
    cases captured with
    | some n => exact ⟨[Frame.success, Tag.context.code], _, rfl, rfl, fun _ _ => ⟨n, rfl⟩⟩
    | none =>
      exact ⟨_, .entry (.object .null), decode_of_yields (Reader.yields_entry hnull .object none),
        rfl, nofun⟩
  | lookupLink =>
    cases captured with
    | some n => exact ⟨[Frame.success, Tag.context.code], _, rfl, rfl, fun _ _ => ⟨n, rfl⟩⟩
    | none =>
      exact ⟨_, .entry (.object .null), decode_of_yields (Reader.yields_entry hnull .binding none),
        rfl, nofun⟩

end Outcome

/-! ## What counts for a request -/

namespace Request

/-- The operations whose responses can count for a request: those with results of the same kind, and
all if the request has none.  A response that tells of a new context needs a name that was kept. -/
def Accepts (r : Request) (op : Operation) : Prop :=
  (r.operation.kind = .void ∨ op.kind = r.operation.kind) ∧
    (op = .createSubcontext → r.captured?.isSome)

instance (r : Request) (op : Operation) : Decidable (r.Accepts op) :=
  inferInstanceAs (Decidable (_ ∧ _))

variable {r : Request} {op : Operation} {body : Bytes} {reply : Reply}

theorem accepts_of_conclude
    (h : r.operation.conclude (Outcome.decode op r.captured? body).1 = .ok reply) :
    r.Accepts op := by
  obtain ⟨hkind, hcaptured⟩ := Outcome.kind_of_decode (Operation.eq_of_conclude h)
  have hexpects := Operation.kind_of_expects (Operation.expects_of_conclude h)
  exact ⟨by rwa [hkind] at hexpects, hcaptured⟩

/-- The responses that can count for a request are those it accepts, and each of them can. -/
theorem accepts_iff :
    r.Accepts op ↔
      ∃ body reply, r.operation.conclude (Outcome.decode op r.captured? body).1 = .ok reply := by
  refine ⟨fun ⟨hkind, hcaptured⟩ => ?_, fun ⟨body, reply, h⟩ => accepts_of_conclude h⟩
  obtain ⟨body, reply, hdecode, hreply, hcontext⟩ := Outcome.exists_decode op r.captured? hcaptured
  refine ⟨body, reply, ?_⟩
  rw [hdecode]
  refine Operation.conclude_of_kind (by rwa [hreply]) fun hcreate => hcontext ?_ ?_
  · rw [hcreate] at hkind
    exact hkind.resolve_left (by decide)
  · cases r <;> first | rfl | cases hcreate

end Request

/-! ## Where outcomes come from -/

/-- A response has the code of the operation that it is read as one of. -/
theorem Proxy.eq_of_filing {m : Bytes} {f : Filing} (h : Filing.ofMessage? m = some f) :
    m = Frame.writeHeader ⟨f.operation.code, f.header.number⟩ ++ f.body := by
  unfold Filing.ofMessage? at h
  split at h
  · cases h
  next header body hheader =>
  obtain ⟨op, hop, rfl⟩ := Option.map_eq_some_iff.mp h
  rw [Operation.code_of_ofCode? hop]
  exact Frame.Reader.eq_of_header hheader

namespace Hangup

open Matching (Call)

/-- The outcome of a request is that the channel was closed, or what a response with its number is
read as. -/
def Sourced (received : List Bytes) (c : Call) (o : Outcome) : Prop :=
  o = .error (.transport .channelClosed) ∨
    ∃ f, Received received f ∧ f.header.number = c.reservation.number ∧ o = reads c f

/-- The outcome is one of the request with this ticket. -/
def Told (s : State) (k : Nat) (o : Outcome) : Prop :=
  ∃ c, s.calls[k]? = some c ∧ Sourced s.received c o

variable {s s' : State} {k : Nat} {o : Outcome}

theorem Told.advance (h : Told s k o) (j : Nat) (stage : Matching.Stage) :
    Told (s.advance j stage) k o := by
  obtain ⟨c, hc, hsource⟩ := h
  refine ⟨_, (getElem?_advance s j stage k).trans (congrArg _ hc), ?_⟩
  split <;> exact hsource

theorem Told.receive (h : Told s k o) (m : Bytes) :
    Told { s with received := m :: s.received } k o := by
  obtain ⟨c, hc, hclosed | ⟨f, hf, hrest⟩⟩ := h
  · exact ⟨c, hc, .inl hclosed⟩
  · exact ⟨c, hc, .inr ⟨f, hf.cons m, hrest⟩⟩

/-- What was an outcome of a request stays one. -/
theorem Told.step (h : Told s k o) (hs : Step s s') : Told s' k o := by
  cases hs with
  | reserve r hr =>
    obtain ⟨c, hc, hsource⟩ := h
    exact ⟨c, (List.getElem?_append_left (List.getElem?_eq_some_iff.mp hc).1).trans hc, hsource⟩
  | send j | take j | giveUp j | release j => exact h.advance j _
  | receive | discard => exact h.receive _
  | observe | mark | fail | look | unclaimed | post | close | elsewhere => exact h

/-- What comes into a mailbox is an outcome of its request. -/
theorem Inv.mail_of_step (h : Inv s) (hs : Step s s') {a : Nat × Outcome}
    (ha : a ∈ s'.proxy.table.mail) : a ∈ s.proxy.table.mail ∨ Told s a.1 a.2 := by
  cases hs with
  | reserve r hr =>
    unfold Proxy.reserve at hr
    split at hr <;> cases hr
    exact .inl ha
  | fail =>
    obtain ⟨-, hmail⟩ := InFlight.failAll_spec s.proxy.table (.transport .channelClosed)
    rcases hmail a ha with ha | ⟨hfault, w, hw, hticket⟩
    · exact .inl ha
    · obtain ⟨c, hc, -⟩ := h.waiting w hw
      exact .inr ⟨c, hticket ▸ hc, .inl hfault⟩
  | @post f w hfound =>
    rcases InFlight.mem_mail_of_post ha with rfl | ha
    · obtain ⟨hreceived, c, hc, hnumber, hcaptured⟩ := h.found _ hfound
      refine .inr ⟨c, hc, .inr ⟨f, hreceived, hnumber.symm, ?_⟩⟩
      rw [reads, hcaptured]
    · exact .inl ha
  | @take c o p k _ _ hp =>
    obtain ⟨htable, -⟩ := Proxy.receive_of_outcome? hp
    rw [htable] at ha
    exact .inl ((InFlight.mail_of_receive s.proxy.table c.reservation).1 a ha)
  | release => exact .inl (List.mem_filter.mp ha).1
  | close => exact .inl (s.proxy.table_close s.link ▸ ha)
  | send | receive | discard | observe | mark | look | unclaimed | giveUp | elsewhere =>
    exact .inl ha

/-- Whatever is in a mailbox or was taken from one is an outcome of its request. -/
structure Traced (s : State) : Prop where
  mail : ∀ a ∈ s.proxy.table.mail, Told s a.1 a.2
  taken : ∀ k o, .taken k o ∈ s.log → Told s k o

namespace Traced

/-- What a caller takes was in its mailbox. -/
theorem taken_of_step (h : Traced s) (hinv : Inv s) (hs : Step s s') (ho : .taken k o ∈ s'.log) :
    Told s k o := by
  cases hs with
  | @take c o' p j hc hstage hp =>
    rcases List.mem_append.mp ho with ho | ho
    · exact h.taken k o ho
    · cases List.mem_singleton.mp ho
      obtain ⟨-, hmail | rfl⟩ := Proxy.receive_of_outcome? hp
      · have hmem := (InFlight.mail_of_receive s.proxy.table c.reservation).2 o hmail
        exact hinv.reserved k c hc ▸ h.mail _ hmem
      · exact ⟨c, hc, .inl rfl⟩
  | fail | post =>
    rcases List.mem_append.mp ho with ho | ho
    · exact h.taken k o ho
    · cases List.mem_singleton.mp ho
  | reserve | send | receive | discard | observe | mark | look | unclaimed | giveUp | release | close
  | elsewhere => exact h.taken k o ho

theorem step (h : Traced s) (hinv : Inv s) (hs : Step s s') : Traced s' where
  mail a ha := ((hinv.mail_of_step hs ha).elim (h.mail a) id).step hs
  taken _ _ ho := (h.taken_of_step hinv hs ho).step hs

end Traced

theorem Reachable.traced (h : Reachable s) : Traced s := by
  induction h with
  | start => exact ⟨fun _ ha => (nomatch ha), fun _ _ ho => (nomatch ho)⟩
  | step h hs ih => exact ih.step h.inv hs

/-! ## What it takes to succeed -/

/-- An operation succeeds only with what was read from a response that was received with the number
of its request, as one to an operation that the request accepts; and the operations it accepts are
those of which some response makes it succeed. -/
theorem accepted_of_success (h : Reachable s) {c : Call} {reply : Reply}
    (hc : s.calls[k]? = some c) (ho : .taken k o ∈ s.log)
    (hok : c.request.operation.conclude o = .ok reply) :
    (∃ m ∈ s.received, ∃ op body,
      m = Frame.writeHeader ⟨op.code, c.reservation.number⟩ ++ body ∧
      (Outcome.decode op c.request.captured? body).1 = .ok reply ∧ c.request.Accepts op) ∧
    ∀ op, c.request.Accepts op ↔ ∃ body reply,
      c.request.operation.conclude (Outcome.decode op c.request.captured? body).1 = .ok reply := by
  refine ⟨?_, fun op => Request.accepts_iff⟩
  obtain ⟨c', hc', hsource⟩ := h.traced.taken k o ho
  obtain rfl := Option.some.inj (hc.symm.trans hc')
  rcases hsource with rfl | ⟨f, ⟨m, hm, hf⟩, hnumber, rfl⟩
  · cases hok
  · refine ⟨m, hm, f.operation, f.body, ?_, Operation.eq_of_conclude hok,
      Request.accepts_of_conclude hok⟩
    rw [← hnumber]
    exact Proxy.eq_of_filing hf

/-- The root is looked up, and found. -/
theorem accepted_of_success_root :
    ∃ (s : State) (c : Call) (o : Outcome) (reply : Reply), Reachable s ∧ s.calls[0]? = some c ∧
      .taken 0 o ∈ s.log ∧ c.request.operation.conclude o = .ok reply ∧
      ∃ m ∈ s.received, ∃ op body,
        m = Frame.writeHeader ⟨op.code, c.reservation.number⟩ ++ body ∧
        (Outcome.decode op c.request.captured? body).1 = .ok reply ∧ c.request.Accepts op := by
  have hs := reachable_answered
  have hs := hs.step (.look List.mem_cons_self rfl)
  have hs := hs.step (.post List.mem_cons_self)
  have hs := hs.step (.take 0 rfl rfl rfl)
  have hsuccess := accepted_of_success (k := 0) (o := .ok (.entry (.context Name.root))) hs rfl
    List.mem_concat_self rfl
  exact ⟨_, _, _, _, hs, rfl, List.mem_concat_self, rfl, hsuccess.1⟩

/-- A binding is asked for, and the response to a lookup, with its number, makes it succeed. -/
theorem lookup_counts_for_bind :
    ∃ (s : State) (c : Call) (m : Bytes) (o : Outcome), Reachable s ∧ s.calls[0]? = some c ∧
      c.request = .bind ⟨["a"]⟩ .null ∧ s.received = [m] ∧
      m = Frame.writeHeader ⟨Operation.lookup.code, c.reservation.number⟩ ++
        Frame.success :: Frame.writeObject .null ∧
      m.head? ≠ some c.request.operation.code ∧ .taken 0 o ∈ s.log ∧
      c.request.operation.conclude o = .ok (.entry (.object .null)) := by
  let m := Frame.writeHeader ⟨Operation.lookup.code, 1⟩ ++ Frame.success :: Frame.writeObject .null
  let r : Request := .bind ⟨["a"]⟩ .null
  let link : Connection := { lines := [(1, .ready 0)], inboxes := [{}] }
  have hs := Reachable.start ⟨1, "naming", 0, false⟩ ⟨1000⟩ link
  have hs := hs.step (.reserve r rfl)
  have hs := hs.step (.send 0 rfl rfl rfl)
  have hs := hs.step (.elsewhere
    ({ link with sent := [.message 1 (r.encode 1)] }.arrive (.message 1 m)))
  have hs := hs.step (.receive rfl rfl rfl)
  have hs := hs.step (.look List.mem_cons_self rfl)
  have hs := hs.step (.post List.mem_cons_self)
  have hs := hs.step (.take 0 rfl rfl rfl)
  have hnull : (Wire.Value.object .null).Fits := by decide
  have hread : (Outcome.decode .lookup none (Frame.success :: Frame.writeObject .null)).1 =
      .ok (.entry (.object .null)) :=
    Outcome.decode_of_yields (Outcome.Reader.yields_entry hnull .object none)
  refine ⟨_, _, m, _, hs, rfl, rfl, rfl, rfl, by decide, List.mem_concat_self, ?_⟩
  exact congrArg (Operation.conclude .bind) hread

end Hangup

end NameDirectory
