import NameDirectory.Proofs.Generations
import NameDirectory.Proofs.Ledger
import NameDirectory.Proofs.Provenance

/-!
# Every reference has a holder

The registry over an arbitrary carrier, but with every connection numbered and every closing of one
noted (`Carrier.recorded`).  Whatever path an operation takes, what it asked for and did not give
up is in the hands of somebody.

* `Pool.Counts.endLease_set`, `Pool.Offers`: leases that were given may end in any order, and what
  is not given up then stays in the pool;
* `Registry.Books`: connections and endpoints are counted so, endpoints that are open are in their
  pool, and a connection that was not closed belongs to an open endpoint;
* `Books.openSession`, `Books.closeSession`, `Books.leaseEndpoint`, `Books.endEndpointLease`: what
  groups do keeps the books.
-/

namespace NameDirectory

/-! ## Pools and the leases on them -/

namespace Pool

variable {σ ε K R : Type} [DecidableEq K] {p : Pool K R} {held : List (Lease K R)} {k : K}

namespace Counts

theorem slots_eq_nil (h : p.Counts held) (hnone : ∀ l ∈ held, l.released = true) :
    p.slots = [] := by
  refine List.eq_nil_iff_forall_not_mem.mpr fun a ha => ?_
  obtain ⟨hcount, hpos⟩ := h.counted a.1 a.2 (h.distinct.slot?_of_mem ha)
  have hzero : held.countP (·.holds a.1 a.2.generation) = 0 := by
    refine List.countP_eq_zero.mpr fun l hl hholds => ?_
    simp [Lease.holds, hnone l hl] at hholds
  omega

theorem endLease {l : Lease K R} (h : p.Counts (l :: held)) (hl : l.released = false) :
    (p.endLease l).2.2.Counts held := h.ended hl (ended_endLease p hl)

theorem endLease_set {leases : List (Lease K R)} (h : p.Counts leases) {i : Nat} {l : Lease K R}
    (hl : leases[i]? = some l) :
    (p.endLease l).2.2.Counts (leases.set i { l with released := true }) := by
  cases hreleased : l.released with
  | false => exact h.ended_set hl hreleased (ended_endLease p hreleased)
  | true =>
    obtain ⟨hi, rfl⟩ := List.getElem?_eq_some_iff.mp hl
    have hagain : { leases[i] with released := true } = leases[i] := by rw [← hreleased]
    rw [endLease_of_released hreleased, hagain, List.set_getElem_self]
    exact h

end Counts

/-- What asking for a lease gives: one on what is there, one on what was built, or none. -/
theorem get_cases (p : Pool K R) (k : K) (valid : R → Bool) (build : σ → Except ε R × σ) (w : σ) :
    (∃ s, p.slot? k = some s ∧
      p.get k valid build w = (.ok (p.lend k s).1, (p.lend k s).2, w)) ∨
    (∃ r, (p.slot? k).filter (valid ·.resource) = none ∧ (build w).1 = .ok r ∧
      p.get k valid build w = (.ok (p.install k r).1, (p.install k r).2, (build w).2)) ∨
    ∃ fault, (build w).1 = .error fault ∧ p.get k valid build w = (.error fault, p, (build w).2) := by
  unfold get
  cases hfound : (p.slot? k).filter (valid ·.resource) with
  | some s => exact .inl ⟨s, (Option.filter_eq_some_iff.mp hfound).1, rfl⟩
  | none =>
    rcases hb : build w with ⟨fault | r, w'⟩
    · exact .inr (.inr ⟨fault, rfl, rfl⟩)
    · exact .inr (.inl ⟨r, rfl, rfl, rfl⟩)

/-- Somebody who asks is lent this resource. -/
def Offers (p : Pool K R) (r : R) : Prop := ∃ k s, p.slot? k = some s ∧ s.resource = r

namespace Offers

variable {r : R}

theorem lend (h : p.Offers r) {s : Slot R} (hs : p.slot? k = some s) : (p.lend k s).2.Offers r := by
  obtain ⟨k', s', hs', rfl⟩ := h
  by_cases hk : k' = k
  · subst hk
    obtain rfl := Option.some.inj (hs.symm.trans hs')
    exact ⟨k', _, slot?_put_self .., rfl⟩
  · exact ⟨k', s', (slot?_put_of_ne hk ..).trans hs', rfl⟩

theorem install (h : p.Offers r) (hk : p.slot? k = none) (built : R) :
    (p.install k built).2.Offers r := by
  obtain ⟨k', s', hs', rfl⟩ := h
  have hne : k' ≠ k := by
    rintro rfl
    cases hk.symm.trans hs'
  exact ⟨k', s', (slot?_put_of_ne hne ..).trans hs', rfl⟩

theorem installed (p : Pool K R) (k : K) (r : R) : (p.install k r).2.Offers r :=
  ⟨k, _, slot?_put_self .., rfl⟩

/-- What the end of a lease takes away is given up. -/
theorem endLease (h : p.Offers r) (l : Lease K R) :
    (p.endLease l).1 = some r ∨ (p.endLease l).2.2.Offers r := by
  cases hl : l.released with
  | true =>
    rw [endLease_of_released hl]
    exact .inr h
  | false =>
  obtain ⟨k, s, hs, rfl⟩ := h
  have hended := ended_endLease p hl
  generalize (p.endLease l).2.2 = p' at hended
  generalize (p.endLease l).1 = given at hended
  cases hended with
  | orphan => exact .inr ⟨k, s, hs, rfl⟩
  | @shared x hx =>
    by_cases hk : k = l.key
    · subst hk
      obtain rfl := Option.some.inj (hx.symm.trans hs)
      exact .inr ⟨_, _, slot?_put_self .., rfl⟩
    · exact .inr ⟨k, s, (slot?_put_of_ne hk ..).trans hs, rfl⟩
  | @last x hx =>
    by_cases hk : k = l.key
    · subst hk
      obtain rfl := Option.some.inj (hx.symm.trans hs)
      exact .inl rfl
    · exact .inr ⟨k, s, (slot?_remove_of_ne hk p).trans hs, rfl⟩

end Offers

end Pool

/-! ## Numbered connections -/

open Failover (Recorded)

/-- The carrier with every connection numbered, and the closings of connections noted. -/
def Carrier.recorded {σ C S : Type} (env : Carrier σ C S) : Carrier (Recorded σ) (Numbered C) S where
  connect d w :=
    let (r, world) := env.connect d w.world
    let (r, ledger) := w.ledger.opening r
    (r, ⟨world, ledger⟩)
  isClosed c w := env.isClosed c.value w.world
  close c w := ⟨env.close c.value w.world, w.ledger.close [c.number]⟩
  openStore c d patience w :=
    let (r, world) := env.openStore c.value d patience w.world
    (r, { w with world })
  serve s r w :=
    let (reply, world) := env.serve s r w.world
    (reply, { w with world })
  closeStore s w := { w with world := env.closeStore s w.world }

namespace Registry

variable {σ C S : Type}

/-! ## The books of a registry -/

/-- A connection was closed, or it belongs to an endpoint that is open. -/
def Settled (w : Registry (Recorded σ) (Numbered C) S) (n : Nat) : Prop :=
  n ∈ w.world.ledger.closings ∨
    ∃ (i : Nat) (e : Endpoint (Numbered C)), w.endpointList[i]? = some e ∧ e.closed = false ∧
      n ∈ e.connections.map (·.number)

/-- The groups and the leases on them. -/
def groups (w : Registry σ C S) : List (Team C S) × Pool StoreKey Nat × List (Lease StoreKey Nat) :=
  (w.teams, w.stores, w.leases)

/-- The pool of groups and the leases on them. -/
def shared (w : Registry σ C S) : Pool StoreKey Nat × List (Lease StoreKey Nat) :=
  (w.stores, w.leases)

/-- Connections and endpoints are accounted for, where `held` are the leases held on connections
and `used` those held on endpoints. -/
structure Books (groups : List (Team (Numbered C) S) × Pool StoreKey Nat × List (Lease StoreKey Nat))
    (held : List (Lease ConnectionKey (Numbered C))) (used : List (Lease EndpointKey Nat))
    (w : Registry (Recorded σ) (Numbered C) S) : Prop where
  groups : w.groups = groups
  connections : w.connections.Counts held
  endpoints : w.endpoints.Counts used
  /-- What is held was not ended yet. -/
  unended : (∀ l ∈ held, l.released = false) ∧ ∀ l ∈ used, l.released = false
  pooled : ∀ i e, w.endpointList[i]? = some e → e.closed = false → w.endpoints.Offers i
  settled : ∀ n < w.world.ledger.opened, w.Settled n

namespace Books

variable {env : Carrier σ C S} {w : Registry (Recorded σ) (Numbered C) S}
  {G : List (Team (Numbered C) S) × Pool StoreKey Nat × List (Lease StoreKey Nat)}
  {held : List (Lease ConnectionKey (Numbered C))} {used : List (Lease EndpointKey Nat)}

theorem perm (h : w.Books G held used) {held' : List (Lease ConnectionKey (Numbered C))}
    {used' : List (Lease EndpointKey Nat)} (hheld : held'.Perm held) (hused : used'.Perm used) :
    w.Books G held' used' where
  groups := h.groups
  connections := h.connections.perm hheld
  endpoints := h.endpoints.perm hused
  unended := ⟨fun l hl => h.unended.1 l (hheld.mem_iff.mp hl),
    fun l hl => h.unended.2 l (hused.mem_iff.mp hl)⟩
  pooled := h.pooled
  settled := h.settled

/-- What becomes of the world is of no account, but for what was opened and closed. -/
theorem withWorld (h : w.Books G held used) (world : σ) :
    ({ w with world := { w.world with world } } : Registry (Recorded σ) (Numbered C) S).Books
      G held used := ⟨h.groups, h.connections, h.endpoints, h.unended, h.pooled, h.settled⟩

theorem withConnections (h : w.Books G held used) {connections : Pool ConnectionKey (Numbered C)}
    {held' : List (Lease ConnectionKey (Numbered C))} (hcounts : connections.Counts held')
    (hunended : ∀ l ∈ held', l.released = false) :
    ({ w with connections } : Registry (Recorded σ) (Numbered C) S).Books G held' used :=
  ⟨h.groups, hcounts, h.endpoints, ⟨hunended, h.unended.2⟩, h.pooled, h.settled⟩

theorem withGroups (h : w.Books G held used) (teams : List (Team (Numbered C) S))
    (stores : Pool StoreKey Nat) (leases : List (Lease StoreKey Nat)) :
    ({ w with teams, stores, leases } : Registry (Recorded σ) (Numbered C) S).Books
      (teams, stores, leases) held used :=
  ⟨rfl, h.connections, h.endpoints, h.unended, h.pooled, h.settled⟩

/-! ### Connections -/

theorem closeConnection (h : w.Books G held used) (c : Numbered C) :
    (w.closeConnection env.recorded c).Books G held used where
  groups := h.groups
  connections := h.connections
  endpoints := h.endpoints
  unended := h.unended
  pooled := h.pooled
  settled n hn := (h.settled n hn).imp_left (List.mem_cons_of_mem _)

/-- A connection that is made belongs to an endpoint that is open. -/
theorem connect (env : Carrier σ C S) (h : w.Books G held used) (endpoint : Nat) (d : Descriptor) :
    (w.connect env.recorded endpoint d).2.Books G held used := by
  unfold Registry.connect
  split
  · exact h
  next hopen =>
  obtain ⟨e, he, hopen⟩ : ∃ e, w.endpointList[endpoint]? = some e ∧ e.closed = false := by
    cases he : w.endpointList[endpoint]? with
    | none => simp [he] at hopen
    | some e => exact ⟨e, rfl, by simpa [he] using hopen⟩
  rcases hconnect : env.connect d w.world.world with ⟨fault | c, world⟩
  · simp only [Carrier.recorded, hconnect, Ledger.opening]
    exact h.withWorld world
  simp only [Carrier.recorded, hconnect, Ledger.opening]
  refine ⟨h.groups, h.connections, h.endpoints, h.unended, fun j x hx hclosed => ?_, fun n hn => ?_⟩
  · rw [List.getElem?_modify] at hx
    obtain ⟨y, hy, rfl⟩ := Option.map_eq_some_iff.mp hx
    refine h.pooled j y hy ?_
    split at hclosed <;> exact hclosed
  · rcases Nat.lt_succ_iff_lt_or_eq.mp hn with hold | rfl
    · refine (h.settled n hold).imp_right ?_
      rintro ⟨j, x, hx, hopen', hmem⟩
      refine ⟨j, _, by rw [List.getElem?_modify, hx]; rfl, ?_, ?_⟩
      · split <;> exact hopen'
      · split
        · exact List.map_append ▸ List.mem_append_left _ hmem
        · exact hmem
    · refine .inr ⟨endpoint, { e with connections := e.connections ++ [⟨w.world.ledger.opened, c⟩] },
        by rw [List.getElem?_modify_eq, he]; rfl, hopen, ?_⟩
      simp

theorem leaseConnection (env : Carrier σ C S) (h : w.Books G held used)
    (endpoint : Lease EndpointKey Nat) (d : Descriptor) :
    match w.leaseConnection env.recorded endpoint d with
    | (.ok l, w') => w'.Books G (l :: held) used
    | (.error _, w') => w'.Books G held used := by
  have hbuilt := h.connect env endpoint.resource d
  unfold Registry.leaseConnection
  rcases Pool.get_cases w.connections (ConnectionKey.of endpoint.key d)
    (fun c => !env.recorded.isClosed c w.world) (Registry.connect env.recorded endpoint.resource d) w
    with ⟨s, hs, hget⟩ | ⟨c, -, -, hget⟩ | ⟨fault, -, hget⟩
  · rw [hget]
    exact h.withConnections (h.connections.lend hs) (List.forall_mem_cons.mpr ⟨rfl, h.unended.1⟩)
  · rw [hget]
    exact hbuilt.withConnections (h.connections.install _ c)
      (List.forall_mem_cons.mpr ⟨rfl, h.unended.1⟩)
  · rw [hget]
    exact hbuilt.withConnections h.connections h.unended.1

theorem endConnectionLease {l : Lease ConnectionKey (Numbered C)} (h : w.Books G (l :: held) used) :
    (w.endConnectionLease env.recorded l).Books G held used := by
  obtain ⟨hl, hothers⟩ := List.forall_mem_cons.mp h.unended.1
  have hended := h.withConnections (h.connections.endLease hl) hothers
  unfold Registry.endConnectionLease
  dsimp only
  split
  · next c _ => exact hended.closeConnection c
  · exact hended

/-! ### Sessions -/

theorem openSession (env : Carrier σ C S) (h : w.Books G held used) (t : Team (Numbered C) S)
    (d : Descriptor) :
    match w.openSession env.recorded t d with
    | (.ok s, w') => w'.Books G (s.lease :: held) used
    | (.error _, w') => w'.Books G held used := by
  have hleased := h.leaseConnection env t.endpoint d
  unfold Registry.openSession
  split at hleased
  · next l w' hl =>
    rw [hl]
    rcases hstore : env.openStore l.resource.value d t.requestTimeout w'.world.world
      with ⟨fault | store, world⟩
    · simp only [Carrier.recorded, hstore]
      exact (hleased.withWorld world).endConnectionLease
    · simp only [Carrier.recorded, hstore]
      exact hleased.withWorld world
  · next fault w' hl =>
    rw [hl]
    exact hleased

theorem closeSession {s : Session (Numbered C) S} (h : w.Books G (s.lease :: held) used) :
    (w.closeSession env.recorded s).Books G held used :=
  (h.withWorld _).endConnectionLease

/-! ### Endpoints -/

theorem leaseEndpoint (h : w.Books G held used) (k : EndpointKey) :
    (w.leaseEndpoint k).2.Books G held ((w.leaseEndpoint k).1 :: used) := by
  unfold Registry.leaseEndpoint
  split
  · next s hs =>
    exact ⟨h.groups, h.connections, h.endpoints.lend hs,
      ⟨h.unended.1, List.forall_mem_cons.mpr ⟨rfl, h.unended.2⟩⟩,
      fun i e he hopen => (h.pooled i e he hopen).lend hs, h.settled⟩
  · next hk =>
    refine ⟨h.groups, h.connections, h.endpoints.install k _,
      ⟨h.unended.1, List.forall_mem_cons.mpr ⟨rfl, h.unended.2⟩⟩, fun i e he hopen => ?_,
      fun n hn => ?_⟩
    · rcases Nat.lt_or_ge i w.endpointList.length with hi | hi
      · rw [List.getElem?_append_left hi] at he
        exact (h.pooled i e he hopen).install hk _
      · obtain ⟨hlt, -⟩ := List.getElem?_eq_some_iff.mp he
        obtain rfl : i = w.endpointList.length := by
          rw [List.length_append, List.length_singleton] at hlt
          omega
        exact .installed ..
    · refine (h.settled n hn).imp_right ?_
      rintro ⟨i, e, he, hopen, hmem⟩
      obtain ⟨hi, -⟩ := List.getElem?_eq_some_iff.mp he
      exact ⟨i, e, (List.getElem?_append_left hi).trans he, hopen, hmem⟩

end Books

/-! ## Closing endpoints -/

/-- Connections that are closed one after another are noted, and nothing else changes. -/
theorem exists_foldl_closeConnection (env : Carrier σ C S) (cs : List (Numbered C))
    (w : Registry (Recorded σ) (Numbered C) S) :
    ∃ world, cs.foldl (fun w c => w.closeConnection env.recorded c) w = { w with world } ∧
      world.ledger = w.world.ledger.close (cs.map (·.number)).reverse := by
  induction cs generalizing w with
  | nil => exact ⟨w.world, rfl, rfl⟩
  | cons c cs ih =>
    obtain ⟨world, hfold, hledger⟩ := ih (w.closeConnection env.recorded c)
    refine ⟨world, hfold, hledger.trans ?_⟩
    simp [Ledger.close, Registry.closeConnection, Carrier.recorded]

/-- An endpoint that is closed leaves the others as they were, and every connection settled. -/
theorem closeEndpoint_spec (env : Carrier σ C S) (i : Nat)
    (w : Registry (Recorded σ) (Numbered C) S) :
    ∃ world endpointList, w.closeEndpoint env.recorded i = { w with world, endpointList } ∧
      world.ledger.opened = w.world.ledger.opened ∧
      (∀ n, w.Settled n → (w.closeEndpoint env.recorded i).Settled n) ∧
      ∀ j e, endpointList[j]? = some e → e.closed = false →
        j ≠ i ∧ w.endpointList[j]? = some e := by
  unfold closeEndpoint
  split
  · next hi =>
    refine ⟨w.world, w.endpointList, rfl, rfl, fun n hn => hn, fun j e he hopen => ⟨?_, he⟩⟩
    rintro rfl
    cases hi.symm.trans he
  next e hi =>
  split
  · next hclosed =>
    refine ⟨w.world, w.endpointList, rfl, rfl, fun n hn => hn, fun j x hx hopen => ⟨?_, hx⟩⟩
    rintro rfl
    obtain rfl := Option.some.inj (hi.symm.trans hx)
    cases hclosed.symm.trans hopen
  · obtain ⟨world, hfold, hledger⟩ := exists_foldl_closeConnection env e.connections
      { w with endpointList := w.endpointList.set i ⟨[], true⟩ }
    refine ⟨world, w.endpointList.set i ⟨[], true⟩, hfold, by rw [hledger]; rfl, fun n hn => ?_,
      fun j x hx hopen => ?_⟩
    · rw [hfold]
      -- either noted before, or noted now, or another endpoint's
      rcases hn with hn | ⟨j, x, hx, hopen, hmem⟩
      · refine .inl ?_
        rw [hledger]
        exact List.mem_append_right _ hn
      · by_cases hj : i = j
        · subst hj
          obtain rfl := Option.some.inj (hi.symm.trans hx)
          refine .inl ?_
          rw [hledger]
          exact List.mem_append_left _ (List.mem_reverse.mpr hmem)
        · exact .inr ⟨j, x, (List.getElem?_set_ne hj).trans hx, hopen, hmem⟩
    · rcases getElem?_set_cases hx with ⟨-, rfl⟩ | hx
      · cases hopen
      · exact hx

theorem Books.endEndpointLease (env : Carrier σ C S) {w : Registry (Recorded σ) (Numbered C) S}
    {G : List (Team (Numbered C) S) × Pool StoreKey Nat × List (Lease StoreKey Nat)}
    {held : List (Lease ConnectionKey (Numbered C))} {used : List (Lease EndpointKey Nat)}
    {l : Lease EndpointKey Nat} (h : w.Books G held (l :: used)) :
    (w.endEndpointLease env.recorded l).Books G held used := by
  obtain ⟨hl, hothers⟩ := List.forall_mem_cons.mp h.unended.2
  have hcounts := h.endpoints.endLease hl
  have hoffers := fun i e he hopen => (h.pooled i e he hopen).endLease l
  unfold Registry.endEndpointLease
  generalize w.endpoints.endLease l = ended at hcounts hoffers
  obtain ⟨_ | i, l', endpoints⟩ := ended
  · exact ⟨h.groups, h.connections, hcounts, ⟨h.unended.1, hothers⟩,
      fun i e he hopen => (hoffers i e he hopen).resolve_left (by simp), h.settled⟩
  · obtain ⟨world, endpointList, hclose, hopened, hsettled, hlist⟩ :=
      closeEndpoint_spec env i { w with endpoints }
    dsimp only
    rw [hclose] at hsettled ⊢
    refine ⟨h.groups, h.connections, hcounts, ⟨h.unended.1, hothers⟩, fun j e he hopen => ?_,
      fun n hn => hsettled n (h.settled n (hopened ▸ hn))⟩
    obtain ⟨hj, he⟩ := hlist j e he hopen
    exact (hoffers j e he hopen).resolve_left fun hgiven => hj (Option.some.inj hgiven).symm

end Registry

end NameDirectory
