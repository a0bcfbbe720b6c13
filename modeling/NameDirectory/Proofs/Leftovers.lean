import NameDirectory.Proofs.Holdings

/-!
# Nothing is left behind

Contexts are made from any configurations, ask through one registry for whatever they like and are
closed, while connections are lost and servers come and go (`State.run`).

* `Account`: one group's session, among what the other groups hold; environments of groups keep
  this account, so by `Failover.run_accounts` do whole operations, whatever comes of them;
* `Balanced`: what is held is what groups hold; requests and the end of a group keep it so
  (`Balanced.serve`, `Balanced.closeGroup`);
* `Kept`: the leases on groups are counted too, and groups that are open are in their pool;
* `Inv.step`, `Inv.run`: every lease on a group is that of a context which was not closed;
* `nothing_left_behind`: references of connections are the groups that use them, and with the last
  context everything is closed.
-/

namespace NameDirectory

open Failover (Recorded)

namespace Registry

variable {σ C S : Type}

/-! ## What groups hold -/

/-- The lease of the session in use. -/
def Team.lease? (t : Team C S) : Option (Lease ConnectionKey C) := t.group.session?.map (·.lease)

/-- The lease on an endpoint that a group holds until it is closed. -/
def Team.endpoint? (t : Team C S) : Option (Lease EndpointKey Nat) :=
  if t.group.closed then none else some t.endpoint

/-- An open group uses generation `g` of the connection under `k`. -/
def Team.uses (k : ConnectionKey) (g : Nat) (t : Team C S) : Bool :=
  !t.group.closed &&
    t.group.session?.any fun s => decide (s.lease.key = k ∧ s.lease.generation = g)

/-- What is held is what groups hold, and a closed group has no session. -/
structure Balanced (w : Registry (Recorded σ) (Numbered C) S) : Prop where
  books : w.Books w.groups (w.teams.filterMap Team.lease?) (w.teams.filterMap Team.endpoint?)
  idle : ∀ t ∈ w.teams, t.group.closed = true → t.group.current = none

def shut (w : Registry σ C S) : List Bool := w.teams.map (·.group.closed)

theorem perm_filterMap {α β : Type} (f : α → Option β) {l rest : List α} {a : α}
    (h : l.Perm (a :: rest)) : (l.filterMap f).Perm ((f a).toList ++ rest.filterMap f) := by
  have hmapped := h.filterMap f
  rw [List.filterMap_cons] at hmapped
  cases ha : f a with
  | none => simpa [ha] using hmapped
  | some b => simpa [ha] using hmapped

theorem set_eq_self {α : Type} {l : List α} {i : Nat} {a : α} (h : l[i]? = some a) :
    l.set i a = l := by
  obtain ⟨hi, rfl⟩ := List.getElem?_eq_some_iff.mp h
  exact List.set_getElem_self hi

theorem shut_eq {w : Registry σ C S} {i : Nat} {t : Team C S} (ht : w.teams[i]? = some t) :
    w.shut[i]? = some t.group.closed := by
  rw [shut, List.getElem?_map, ht]
  rfl

theorem shut_of_groups {w : Registry σ C S} {teams : List (Team C S)} {i : Nat} {t : Team C S}
    {shared : Pool StoreKey Nat × List (Lease StoreKey Nat)}
    (h : w.groups = (teams.set i t, shared)) :
    w.shut = (teams.map (·.group.closed)).set i t.group.closed := by
  have hteams : w.teams = teams.set i t := congrArg Prod.fst h
  rw [shut, hteams, List.map_set]

theorem exists_open {w : Registry σ C S} {i : Nat} (h : ((place i).get w).closed = false) :
    ∃ t, w.teams[i]? = some t ∧ t.group.closed = false := by
  cases ht : w.teams[i]? with
  | some t =>
    have hgroup : (place i).get w = t.group := group_eq ht
    exact ⟨t, rfl, hgroup ▸ h⟩
  | none => simp [place, group, ht] at h

theorem shut_set_of_closed {w : Registry σ C S} {i : Nat} (h : ((place i).get w).closed = true) :
    w.shut.set i true = w.shut := by
  cases ht : w.teams[i]? with
  | none =>
    refine List.set_eq_of_length_le ?_
    rw [shut, List.length_map]
    exact List.getElem?_eq_none_iff.mp ht
  | some t =>
    have hgroup : (place i).get w = t.group := group_eq ht
    exact set_eq_self ((shut_eq ht).trans (congrArg some (hgroup ▸ h)))

/-! ## One group among others -/

/-- The account of the session of a group, number `i` of `teams`: what the session uses and the
group's endpoint are held, on top of what the other groups hold. -/
def Account (teams : List (Team (Numbered C) S)) (i : Nat) (t : Team (Numbered C) S)
    (shared : Pool StoreKey Nat × List (Lease StoreKey Nat))
    (s : Option (Session (Numbered C) S)) (w : Registry (Recorded σ) (Numbered C) S) : Prop :=
  ∃ group, w.Books (teams.set i { t with group }, shared)
    ((s.map (·.lease)).toList ++ (teams.eraseIdx i).filterMap Team.lease?)
    (t.endpoint :: (teams.eraseIdx i).filterMap Team.endpoint?)

variable {env : Carrier σ C S} {w : Registry (Recorded σ) (Numbered C) S}
  {teams : List (Team (Numbered C) S)} {i : Nat} {t : Team (Numbered C) S}
  {shared : Pool StoreKey Nat × List (Lease StoreKey Nat)} {s : Option (Session (Numbered C) S)}

namespace Account

theorem get_eq (hi : i < teams.length) {group : Failover.Group (Session (Numbered C) S)}
    (h : w.groups = (teams.set i { t with group }, shared)) : (place i).get w = group := by
  have hteams : w.teams = teams.set i { t with group } := congrArg Prod.fst h
  have hfound : w.teams[i]? = some { t with group } := by rw [hteams, List.getElem?_set_self hi]
  exact group_eq hfound

/-- The books of the group and the others, by what the group is now. -/
theorem books (hi : i < teams.length) (h : Account teams i t shared ((place i).get w).session? w) :
    w.Books (teams.set i { t with group := (place i).get w }, shared)
      ((Team.lease? { t with group := (place i).get w }).toList ++
        (teams.eraseIdx i).filterMap Team.lease?)
      (t.endpoint :: (teams.eraseIdx i).filterMap Team.endpoint?) := by
  obtain ⟨group, hbooks⟩ := h
  obtain rfl := get_eq hi hbooks.groups
  exact hbooks

/-- A group that gets a session holds the lease of it, on top of what it held. -/
theorem connect_books (env : Carrier σ C S) (i index : Nat)
    {G : List (Team (Numbered C) S) × Pool StoreKey Nat × List (Lease StoreKey Nat)}
    {held : List (Lease ConnectionKey (Numbered C))} {used : List (Lease EndpointKey Nat)}
    (h : w.Books G held used) :
    match (environment env.recorded i).connect index w with
    | (.ok s, w') => w'.Books G (s.lease :: held) used
    | (.error _, w') => w'.Books G held used := by
  simp only [environment]
  cases w.teams[i]? with
  | none => exact h
  | some t =>
    dsimp only
    cases t.descriptors[index]? with
    | none => exact h
    | some d => exact h.openSession env t d

theorem accounts (env : Carrier σ C S) :
    (environment env.recorded i).Accounts (Account (σ := σ) teams i t shared) where
  opened := by
    rintro index w s w' ⟨group, hbooks⟩ hconnect
    have hopened := connect_books env i index hbooks
    rw [hconnect] at hopened
    exact ⟨group, hopened⟩
  failed := by
    rintro index w fault w' ⟨group, hbooks⟩ hconnect
    have hopened := connect_books env i index hbooks
    rw [hconnect] at hopened
    exact ⟨group, hopened⟩
  connected := fun ⟨group, h⟩ =>
    ⟨group, h.groups, h.connections, h.endpoints, h.unended, h.pooled, h.settled⟩
  closeSession := fun ⟨group, h⟩ => ⟨group, h.closeSession⟩

theorem set_books {group g : Failover.Group (Session (Numbered C) S)}
    {held : List (Lease ConnectionKey (Numbered C))} {used : List (Lease EndpointKey Nat)}
    (h : w.Books (teams.set i { t with group }, shared) held used) :
    ((place i).set g w).Books (teams.set i { t with group := g }, shared) held used := by
  have hteams : w.teams = teams.set i { t with group } := congrArg Prod.fst h.groups
  have hmodify : w.teams.modify i (fun t => { t with group := g }) =
      teams.set i { t with group := g } := by
    rw [hteams, List.set_eq_modify, List.modify_modify_eq, List.set_eq_modify]
    rfl
  have hset : ((place i).set g w).Books (w.teams.modify i fun t => { t with group := g },
      w.stores, w.leases) held used := h.withGroups _ _ _
  have hshared : (w.stores, w.leases) = shared := congrArg Prod.snd h.groups
  rwa [hshared, hmodify] at hset

theorem beside (hi : i < teams.length) :
    (place i).Beside (Account (σ := σ) teams i t shared) where
  get_set := fun ⟨_, h⟩ => get_eq hi (set_books h).groups
  set := fun ⟨_, h⟩ => ⟨_, set_books h⟩

theorem admits (env : Carrier σ C S) (request : Request) :
    (place i).Admits (Account (σ := σ) teams i t shared) (ask env.recorded request) :=
  fun ⟨group, h⟩ => ⟨⟨group, h.withWorld _⟩, rfl⟩

end Account

namespace Balanced

/-- Books of all are books of one group and the others. -/
theorem books_of (h : w.Balanced) (ht : w.teams[i]? = some t) :
    w.Books (w.teams.set i t, w.shared)
      (t.lease?.toList ++ (w.teams.eraseIdx i).filterMap Team.lease?)
      (t.endpoint?.toList ++ (w.teams.eraseIdx i).filterMap Team.endpoint?) := by
  obtain ⟨hi, rfl⟩ := List.getElem?_eq_some_iff.mp ht
  have hperm : w.teams.Perm (w.teams[i] :: w.teams.eraseIdx i) :=
    (List.getElem_cons_eraseIdx_perm hi).symm
  rw [List.set_getElem_self]
  exact h.books.perm (perm_filterMap Team.lease? hperm).symm
    (perm_filterMap Team.endpoint? hperm).symm

theorem accounted (h : w.Balanced) (ht : w.teams[i]? = some t) (hopen : t.group.closed = false) :
    (place i).Accounted (Account w.teams i t w.shared) w := by
  have hgroup : (place i).get w = t.group := group_eq ht
  have hbooks := h.books_of ht
  rw [Team.endpoint?, hopen] at hbooks
  refine ⟨⟨t.group, ?_⟩, fun hclosed => ?_⟩
  · rw [hgroup]
    exact hbooks
  · rw [hgroup] at hclosed
    exact absurd (hopen.symm.trans hclosed) (by decide)

/-- Books of one group and the others are books of all. -/
theorem of_books (hi : i < teams.length)
    (hidle : ∀ x ∈ teams, x.group.closed = true → x.group.current = none)
    (ht : t.group.closed = true → t.group.current = none)
    (h : w.Books (teams.set i t, shared)
      (t.lease?.toList ++ (teams.eraseIdx i).filterMap Team.lease?)
      (t.endpoint?.toList ++ (teams.eraseIdx i).filterMap Team.endpoint?)) : w.Balanced := by
  have hteams : w.teams = teams.set i t := congrArg Prod.fst h.groups
  have hperm : w.teams.Perm (t :: teams.eraseIdx i) := by
    rw [hteams]
    exact List.set_perm_cons_eraseIdx hi t
  refine ⟨?_, fun x hx => ?_⟩
  · have hbooks := h.perm (perm_filterMap Team.lease? hperm) (perm_filterMap Team.endpoint? hperm)
    rwa [← h.groups] at hbooks
  · rw [hteams] at hx
    rcases List.mem_or_eq_of_mem_set hx with hx | rfl
    · exact hidle x hx
    · exact ht

/-- Whatever comes of a request, what is held is what groups hold. -/
theorem serve (env : Carrier σ C S) (h : w.Balanced) (r : Route) (request : Request) :
    (w.serve env.recorded r request).2.Balanced ∧
      (w.serve env.recorded r request).2.shut = w.shut ∧
      (w.serve env.recorded r request).2.shared = w.shared := by
  unfold Registry.serve
  cases hclosed : ((place r.team).get w).closed with
  | true =>
    rw [Failover.run_of_closed hclosed]
    exact ⟨h, rfl, rfl⟩
  | false =>
    obtain ⟨t, ht, hopen⟩ := exists_open hclosed
    obtain ⟨hi, -⟩ := List.getElem?_eq_some_iff.mp ht
    obtain ⟨haccounted, hkept, -⟩ := Failover.run_accounts (Account.accounts env)
      (Account.beside hi) (Account.admits env request) (h.accounted ht hopen)
    generalize (Failover.run (environment env.recorded r.team) (place r.team)
      (ask env.recorded request) w).2 = w' at haccounted hkept
    have hbooks := haccounted.account.books hi
    have hstill : ((place r.team).get w').closed = false := hkept.trans hclosed
    refine ⟨of_books (t := { t with group := (place r.team).get w' }) hi h.idle haccounted.closed
      (?_ : w'.Books (_, w.shared) _ _), ?_, congrArg Prod.snd hbooks.groups⟩
    · rw [Team.endpoint?, hstill]
      exact hbooks
    · rw [shut_of_groups hbooks.groups]
      exact set_eq_self ((shut_eq ht).trans (congrArg some (hopen.trans hstill.symm)))

/-- A group that is closed holds nothing. -/
theorem closeGroup (env : Carrier σ C S) (h : w.Balanced) (i : Nat) :
    (w.closeGroup env.recorded i).Balanced ∧
      (w.closeGroup env.recorded i).shut = w.shut.set i true ∧
      (w.closeGroup env.recorded i).shared = w.shared := by
  unfold Registry.closeGroup
  cases hclosed : ((place i).get w).closed with
  | true =>
    have hclose : Failover.close (environment env.recorded i) (place i) w = w := by
      simp only [Failover.close, hclosed, if_true]
    rw [hclose]
    exact ⟨h, (shut_set_of_closed hclosed).symm, rfl⟩
  | false =>
    obtain ⟨t, ht, hopen⟩ := exists_open hclosed
    obtain ⟨hi, -⟩ := List.getElem?_eq_some_iff.mp ht
    obtain ⟨w', hclose, hnone, hnow, hidle⟩ := Failover.close_accounts (Account.accounts env)
      (Account.beside hi) (h.accounted ht hopen) hclosed
    have haccount : Account w.teams i t w.shared ((place i).get w').session? w' := by
      rw [Failover.Group.session?, hidle]
      exact hnone
    -- with the session its lease has ended; the endpoint's ends after it
    have hbooks := haccount.books hi
    have hended := hbooks.endEndpointLease env
    have hconnector : (environment env.recorded i).closeConnector w' =
        w'.endEndpointLease env.recorded t.endpoint := by
      have hteams : w'.teams = w.teams.set i { t with group := (place i).get w' } :=
        congrArg Prod.fst hbooks.groups
      simp only [environment, hteams, List.getElem?_set_self hi]
    rw [hclose, hconnector]
    refine ⟨of_books (t := { t with group := (place i).get w' }) hi h.idle (fun _ => hidle)
      (?_ : Books (_, w.shared) _ _ _), ?_, congrArg Prod.snd hended.groups⟩
    · rw [Team.endpoint?, hnow]
      exact hended
    · rw [shut_of_groups hended.groups, hnow]
      rfl

theorem turn (h : w.Balanced) (i cursor : Nat) :
    ((place i).set { (place i).get w with cursor } w).Balanced ∧
      ((place i).set { (place i).get w with cursor } w).shut = w.shut ∧
      ((place i).set { (place i).get w with cursor } w).shared = w.shared := by
  cases ht : w.teams[i]? with
  | none =>
    have hset : (place i).set { (place i).get w with cursor } w = w := by
      simp only [place, List.modify_eq_self (List.getElem?_eq_none_iff.mp ht)]
    rw [hset]
    exact ⟨h, rfl, rfl⟩
  | some t =>
    obtain ⟨hi, -⟩ := List.getElem?_eq_some_iff.mp ht
    have hgroup : (place i).get w = t.group := group_eq ht
    have hbooks := Account.set_books (g := { t.group with cursor }) (h.books_of ht)
    rw [hgroup]
    refine ⟨of_books (t := { t with group := { t.group with cursor } }) hi h.idle
      (h.idle t (List.mem_of_getElem? ht)) hbooks, ?_, congrArg Prod.snd hbooks.groups⟩
    rw [shut_of_groups hbooks.groups]
    exact set_eq_self (a := t.group.closed) (shut_eq ht)

theorem withWorld (h : w.Balanced) (world : σ) :
    ({ w with world := { w.world with world } } : Registry (Recorded σ) (Numbered C) S).Balanced :=
  ⟨h.books.withWorld world, h.idle⟩

theorem withShared (h : w.Balanced) (stores : Pool StoreKey Nat)
    (leases : List (Lease StoreKey Nat)) :
    ({ w with stores, leases } : Registry (Recorded σ) (Numbered C) S).Balanced :=
  ⟨h.books.withGroups w.teams stores leases, h.idle⟩

theorem makeTeam (h : w.Balanced) (c : Configuration) (servers : List Descriptor) :
    match w.makeTeam c servers with
    | (.ok i, w') => w'.Balanced ∧ i = w.shut.length ∧ w'.shut = w.shut ++ [false] ∧
        w'.shared = w.shared
    | (.error _, w') => w' = w := by
  unfold Registry.makeTeam Failover.Group.ofServers
  cases (servers.map (·.destination.text)).isEmpty with
  | true => rfl
  | false =>
    have hleased := h.books.leaseEndpoint c.endpointKey
    generalize w.leaseEndpoint c.endpointKey = leased at hleased
    obtain ⟨l, v⟩ := leased
    obtain ⟨hteams, hshared⟩ := Prod.mk.inj hleased.groups
    have hidle : ∀ x ∈ w.teams, x.group.closed = true → x.group.current = none := h.idle
    dsimp only at hleased hteams ⊢
    rw [← hteams] at hleased hidle
    refine ⟨⟨?_, fun x hx hclosed => ?_⟩, ?_, ?_, hshared⟩
    · exact (hleased.withGroups _ v.stores v.leases).perm
        (perm_filterMap Team.lease? (List.perm_append_singleton _ v.teams))
        (perm_filterMap Team.endpoint? (List.perm_append_singleton _ v.teams))
    · rcases List.mem_append.mp hx with hx | hx
      · exact hidle x hx hclosed
      · obtain rfl := List.mem_singleton.mp hx
        rfl
    · rw [shut, List.length_map, hteams]
    · rw [shut, shut, List.map_append, hteams]
      rfl

end Balanced

/-! ## Groups and the leases on them -/

/-- All that is shared is accounted for: what groups hold, the leases on groups, and every group
that is open is in the pool. -/
structure Kept (w : Registry (Recorded σ) (Numbered C) S) : Prop where
  balanced : w.Balanced
  leased : w.stores.Counts w.leases
  offered : ∀ i, w.shut[i]? = some false → w.stores.Offers i

namespace Kept

theorem start (world : σ) :
    Kept ({ world := { world } } : Registry (Recorded σ) (Numbered C) S) where
  balanced := by
    refine ⟨⟨rfl, .empty, .empty, ⟨?_, ?_⟩, ?_, ?_⟩, ?_⟩
    · exact fun l hl => nomatch hl
    · exact fun l hl => nomatch hl
    · exact fun i e he => nomatch he
    · exact fun n hn => nomatch hn
    · exact fun t ht => nomatch ht
  leased := .empty
  offered _ h := nomatch h

theorem of_balanced (h : w.Kept) {w' : Registry (Recorded σ) (Numbered C) S}
    (hw' : w'.Balanced ∧ w'.shut = w.shut ∧ w'.shared = w.shared) : w'.Kept := by
  obtain ⟨hbalanced, hshut, hshared⟩ := hw'
  have hstores : w'.stores = w.stores := congrArg Prod.fst hshared
  have hleases : w'.leases = w.leases := congrArg Prod.snd hshared
  refine ⟨hbalanced, ?_, fun i hi => ?_⟩
  · rw [hstores, hleases]
    exact h.leased
  · rw [hstores]
    exact h.offered i (hshut ▸ hi)

/-- The end of a lease on a group, which is closed with the last one. -/
theorem endLease (env : Carrier σ C S) (h : w.Kept) (i : Nat) :
    (w.endLease env.recorded i).Kept ∧
      ∀ k l, (w.endLease env.recorded i).leases[k]? = some l → l.released = false →
        k ≠ i ∧ w.leases[k]? = some l := by
  unfold Registry.endLease
  split
  · next hi =>
    refine ⟨h, fun k l hl _ => ⟨?_, hl⟩⟩
    rintro rfl
    cases hi.symm.trans hl
  next l hi =>
  have hcounts := h.leased.endLease_set hi
  have hoffers := fun i hi => (h.offered i hi).endLease l
  have hreleased := Pool.released_endLease w.stores l
  have hothers : ∀ k x, (w.leases.set i { l with released := true })[k]? = some x →
      x.released = false → k ≠ i ∧ w.leases[k]? = some x := by
    intro k x hx hheld
    rcases getElem?_set_cases hx with ⟨-, rfl⟩ | hx
    · cases hheld
    · exact hx
  generalize w.stores.endLease l = ended at hcounts hoffers hreleased
  obtain ⟨given, l', stores⟩ := ended
  obtain rfl : l' = { l with released := true } := hreleased
  have hbalanced := h.balanced.withShared stores (w.leases.set i { l with released := true })
  cases given with
  | some team =>
    obtain ⟨hclosed, hshut, hshared⟩ := hbalanced.closeGroup env team
    dsimp only
    generalize Registry.closeGroup env.recorded team _ = w' at hclosed hshut hshared ⊢
    have hstores : w'.stores = stores := congrArg Prod.fst hshared
    have hleases : w'.leases = _ := congrArg Prod.snd hshared
    refine ⟨⟨hclosed, ?_, fun j hj => ?_⟩, ?_⟩
    · rw [hstores, hleases]
      exact hcounts
    · rw [hshut] at hj
      have hne : team ≠ j := by
        rintro rfl
        rw [List.getElem?_set] at hj
        simp at hj
      rw [List.getElem?_set_ne hne] at hj
      rw [hstores]
      exact (hoffers j hj).resolve_left fun hgiven => hne (Option.some.inj hgiven)
    · rw [hleases]
      exact hothers
  | none =>
    exact ⟨⟨hbalanced, hcounts, fun j hj => (hoffers j hj).resolve_left (by simp)⟩, hothers⟩

/-- Whoever asks for a group gets one that is in the pool, on a lease of its own. -/
theorem lease (h : w.Kept) (c : Configuration) :
    match w.lease c with
    | (.ok r, w') => w'.Kept ∧
        ∃ l, w'.leases = w.leases ++ [l] ∧ r = .lease w.leases.length l.resource
    | (.error _, w') => w' = w := by
  unfold Registry.lease
  cases c.descriptors with
  | error fault => rfl
  | ok servers =>
    have hmade := h.balanced.makeTeam c servers
    rcases Pool.get_cases w.stores (storeKey c servers) (fun _ => true) (makeTeam c servers) w
      with ⟨s, hs, hget⟩ | ⟨team, hnone, hteam, hget⟩ | ⟨fault, hteam, hget⟩
    · simp only [hget]
      refine ⟨⟨h.balanced.withShared _ _, ?_, fun i hi => (h.offered i hi).lend hs⟩, _, rfl, rfl⟩
      exact (h.leased.lend hs).perm (List.perm_append_singleton _ _)
    · simp only [hget]
      have hslot : w.stores.slot? (storeKey c servers) = none := by
        cases hs : w.stores.slot? (storeKey c servers) with
        | none => rfl
        | some s => simp [hs] at hnone
      generalize Registry.makeTeam c servers w = made at hmade hteam
      obtain ⟨r, v⟩ := made
      obtain rfl : r = .ok team := hteam
      obtain ⟨hbalanced, rfl, hshut, hshared⟩ := hmade
      have hleases : v.leases = w.leases := congrArg Prod.snd hshared
      rw [← hleases]
      refine ⟨⟨hbalanced.withShared _ _, ?_, fun i hi => ?_⟩, _, rfl, rfl⟩
      · rw [hleases]
        exact (h.leased.install _ _).perm (List.perm_append_singleton _ _)
      · have hi : (w.shut ++ [false])[i]? = some false := hshut ▸ hi
        rcases Nat.lt_or_ge i w.shut.length with hlt | hge
        · rw [List.getElem?_append_left hlt] at hi
          exact (h.offered i hi).install hslot _
        · obtain ⟨hlt, -⟩ := List.getElem?_eq_some_iff.mp hi
          rw [List.length_append, List.length_singleton] at hlt
          obtain rfl : i = w.shut.length := by omega
          exact .installed ..
    · simp only [hget]
      generalize Registry.makeTeam c servers w = made at hmade hteam
      obtain ⟨r, v⟩ := made
      obtain rfl : r = .error fault := hteam
      obtain rfl : v = w := hmade
      rfl

/-- The references of a connection are the groups that use it. -/
theorem references_eq (h : w.Kept) :
    ∀ a ∈ w.connections.slots, a.2.references = w.teams.countP (·.uses a.1 a.2.generation) := by
  intro a ha
  have hbooks := h.balanced.books
  have hslot := hbooks.connections.distinct.slot?_of_mem ha
  rw [(hbooks.connections.counted a.1 a.2 hslot).1, List.countP_filterMap]
  refine List.countP_congr fun t ht => ?_
  cases hlease : t.lease? with
  | none =>
    obtain hsession : t.group.session? = none := Option.map_eq_none_iff.mp hlease
    simp [Team.uses, hsession]
  | some l =>
    obtain ⟨s, hsession, rfl⟩ := Option.map_eq_some_iff.mp hlease
    have hheld : s.lease.released = false :=
      hbooks.unended.1 _ (List.mem_filterMap.mpr ⟨t, ht, hlease⟩)
    have hopen : t.group.closed = false := by
      refine Bool.eq_false_iff.mpr fun hclosed => ?_
      rw [Failover.Group.session?, h.balanced.idle t ht hclosed] at hsession
      cases hsession
    simp [Team.uses, hsession, hopen, Lease.holds, hheld]

/-- Once every lease on a group has ended, nothing is left. -/
theorem nothing_left (h : w.Kept) (hreleased : ∀ l ∈ w.leases, l.released = true) :
    w.counts = [0, 0, 0] ∧ ∀ n < w.world.ledger.opened, n ∈ w.world.ledger.closings := by
  have hbooks := h.balanced.books
  have hstores : w.stores.slots = [] := h.leased.slots_eq_nil hreleased
  have hclosed : ∀ t ∈ w.teams, t.group.closed = true := by
    intro t ht
    refine Bool.not_eq_false _ |>.mp fun hopen => ?_
    obtain ⟨i, hi⟩ := List.mem_iff_getElem?.mp ht
    obtain ⟨k, s, hs, -⟩ := h.offered i ((shut_eq hi).trans (congrArg some hopen))
    simp [Pool.slot?, hstores] at hs
  have hheld : w.teams.filterMap Team.lease? = [] := by
    refine List.filterMap_eq_nil_iff.mpr fun t ht => ?_
    simp [Team.lease?, Failover.Group.session?, h.balanced.idle t ht (hclosed t ht)]
  have hused : w.teams.filterMap Team.endpoint? = [] := by
    refine List.filterMap_eq_nil_iff.mpr fun t ht => ?_
    simp [Team.endpoint?, hclosed t ht]
  rw [hheld, hused] at hbooks
  have hconnections := hbooks.connections.slots_eq_nil (List.forall_mem_nil _)
  have hendpoints := hbooks.endpoints.slots_eq_nil (List.forall_mem_nil _)
  refine ⟨by simp [counts, Pool.size, hstores, hconnections, hendpoints], fun n hn => ?_⟩
  refine (hbooks.settled n hn).resolve_right ?_
  rintro ⟨i, e, he, hopen, -⟩
  obtain ⟨k, s, hs, -⟩ := hbooks.pooled i e he hopen
  simp [Pool.slot?, hendpoints] at hs

end Kept

end Registry

namespace Leftovers

open Registry (Route)

variable {σ C S : Type}

/-! ## Runs -/

structure Handle where
  context : Context Route
  closed : Bool := false

/-- A registry, and every context that was made or found through it, the first first. -/
structure State (σ C S : Type) where
  registry : Registry (Recorded σ) (Numbered C) S
  handles : List Handle := []

def State.start (world : σ) : State σ C S := { registry := { world := { world } } }

inductive Act (σ : Type) where
  | create (c : Configuration)
  | request (i : Nat) (r : Request)
  | close (i : Nat)
  /-- Another server of a group is to be tried next. -/
  | turn (team cursor : Nat)
  /-- Connections are lost, servers come and go. -/
  | elapse (change : σ → σ)

/-- The context that was answered, on the store it was found through. -/
def found (home : Route) : Except ClientFault Reply → List Handle
  | .ok (.entry (.context n)) => [{ context := .found n home }]
  | _ => []

def State.step (env : Carrier σ C S) (s : State σ C S) : Act σ → State σ C S
  | .create c =>
    match s.registry.context c with
    | (.error _, registry) => { s with registry }
    | (.ok context, registry) => ⟨registry, s.handles ++ [{ context }]⟩
  | .request i r =>
    match s.handles[i]? with
    | none => s
    | some h =>
      let stores := Registry.contexts env.recorded
      let (result, registry) := stores.serve h.context.store (h.context.absolute r) s.registry
      ⟨registry, s.handles ++ found (stores.home h.context.store) result⟩
  | .close i =>
    match s.handles[i]? with
    | none => s
    | some h =>
      let stores := Registry.contexts env.recorded
      let registry := if h.context.owner then (stores.close h.context.store s.registry).2
        else s.registry
      ⟨registry, s.handles.set i { h with closed := true }⟩
  | .turn team cursor =>
    let place := Registry.place team
    { s with registry := place.set { place.get s.registry with cursor } s.registry }
  | .elapse change =>
    let world := s.registry.world
    { s with registry := { s.registry with world := { world with world := change world.world } } }

def State.run (env : Carrier σ C S) (s : State σ C S) (acts : List (Act σ)) : State σ C S :=
  acts.foldl (step env) s

/-! ## The invariant -/

/-- The context holds the lease with number `i` on its group. -/
def Handle.Holds (h : Handle) (i : Nat) : Prop :=
  h.context.owner = true ∧ ∃ team, h.context.store = .lease i team

/-- All is accounted for, and every lease on a group that was not ended is held by a context that
was not closed. -/
structure Inv (s : State σ C S) : Prop where
  kept : s.registry.Kept
  owners : ∀ h ∈ s.handles, h.context.owner = true → ∃ i, h.Holds i
  held : ∀ i l, s.registry.leases[i]? = some l → l.released = false →
    ∃ h ∈ s.handles, h.Holds i ∧ h.closed = false

namespace Inv

variable {env : Carrier σ C S} {s : State σ C S}

theorem start (world : σ) : Inv (State.start world : State σ C S) where
  kept := .start world
  owners _ hh := nomatch hh
  held _ _ hl := nomatch hl

/-- More contexts may be found. -/
theorem addFound (h : Inv s) (home : Route) (result : Except ClientFault Reply) :
    Inv { s with handles := s.handles ++ found home result } where
  kept := h.kept
  owners x hx howner := by
    rcases List.mem_append.mp hx with hx | hx
    · exact h.owners x hx howner
    · unfold found at hx
      split at hx
      · obtain rfl := List.mem_singleton.mp hx
        cases howner
      · cases hx
  held i l hl hheld := by
    obtain ⟨x, hx, hopen⟩ := h.held i l hl hheld
    exact ⟨x, List.mem_append_left _ hx, hopen⟩

theorem withBalanced (h : Inv s) {registry : Registry (Recorded σ) (Numbered C) S}
    (hregistry : registry.Balanced ∧ registry.shut = s.registry.shut ∧
      registry.shared = s.registry.shared) : Inv { s with registry } where
  kept := h.kept.of_balanced hregistry
  owners := h.owners
  held := by
    have hleases : registry.leases = s.registry.leases := congrArg Prod.snd hregistry.2.2
    rw [hleases]
    exact h.held

theorem create (h : Inv s) (c : Configuration) : Inv (s.step env (.create c)) := by
  have hlease := h.kept.lease c
  simp only [State.step, Registry.context]
  rcases hr : s.registry.lease c with ⟨fault | route, registry⟩
  · rw [hr] at hlease
    obtain rfl : registry = s.registry := hlease
    exact h
  · rw [hr] at hlease
    obtain ⟨hkept, l, hleases, rfl⟩ := hlease
    refine ⟨hkept, fun x hx howner => ?_, fun i a ha hheld => ?_⟩
    · rcases List.mem_append.mp hx with hx | hx
      · exact h.owners x hx howner
      · obtain rfl := List.mem_singleton.mp hx
        exact ⟨_, rfl, _, rfl⟩
    · have ha : (s.registry.leases ++ [l])[i]? = some a := hleases ▸ ha
      rcases Nat.lt_or_ge i s.registry.leases.length with hlt | hge
      · rw [List.getElem?_append_left hlt] at ha
        obtain ⟨x, hx, hopen⟩ := h.held i a ha hheld
        exact ⟨x, List.mem_append_left _ hx, hopen⟩
      · obtain ⟨hlt, -⟩ := List.getElem?_eq_some_iff.mp ha
        rw [List.length_append, List.length_singleton] at hlt
        obtain rfl : i = s.registry.leases.length := by omega
        exact ⟨_, List.mem_append_right _ (List.mem_singleton_self _), ⟨rfl, _, rfl⟩, rfl⟩

/-- Of a context that is closed, only the lease it held may have ended. -/
theorem setClosed (h : Inv s) {i : Nat} {x : Handle} (hx : s.handles[i]? = some x)
    {registry : Registry (Recorded σ) (Numbered C) S} (hkept : registry.Kept)
    (hleases : ∀ j l, registry.leases[j]? = some l → l.released = false →
      ¬ x.Holds j ∧ s.registry.leases[j]? = some l) :
    Inv ⟨registry, s.handles.set i { x with closed := true }⟩ := by
  refine ⟨hkept, fun y hy howner => ?_, fun j l hl hheld => ?_⟩
  · rcases List.mem_or_eq_of_mem_set hy with hy | rfl
    · exact h.owners y hy howner
    · exact h.owners x (List.mem_of_getElem? hx) howner
  · obtain ⟨hnot, hl⟩ := hleases j l hl hheld
    obtain ⟨y, hy, hholds, hopen⟩ := h.held j l hl hheld
    obtain ⟨k, hk⟩ := List.mem_iff_getElem?.mp hy
    have hne : i ≠ k := by
      rintro rfl
      obtain rfl := Option.some.inj (hx.symm.trans hk)
      exact hnot hholds
    exact ⟨y, List.mem_of_getElem? ((List.getElem?_set_ne hne).trans hk), hholds, hopen⟩

theorem close (h : Inv s) (i : Nat) : Inv (s.step env (.close i)) := by
  simp only [State.step]
  split
  · exact h
  next x hx =>
  cases howner : x.context.owner with
  | false =>
    refine h.setClosed hx h.kept fun j l hl _ => ⟨fun hholds => ?_, hl⟩
    exact absurd (howner.symm.trans hholds.1) (by decide)
  | true =>
    obtain ⟨k, -, team, hstore⟩ := h.owners x (List.mem_of_getElem? hx) howner
    obtain ⟨hkept, hothers⟩ := h.kept.endLease env k
    simp only [if_true, hstore]
    refine h.setClosed hx hkept fun j l hl hheld => ?_
    obtain ⟨hne, hl⟩ := hothers j l hl hheld
    refine ⟨fun ⟨_, team', hstore'⟩ => hne ?_, hl⟩
    cases hstore.symm.trans hstore'
    rfl

theorem step (h : Inv s) (act : Act σ) : Inv (s.step env act) := by
  cases act with
  | create c => exact h.create c
  | request i r =>
    simp only [State.step]
    split
    · exact h
    · next x hx =>
      have hserved := h.kept.balanced.serve env x.context.store (x.context.absolute r)
      exact (h.withBalanced hserved).addFound _ _
  | close i => exact h.close i
  | turn team cursor => exact h.withBalanced (h.kept.balanced.turn team cursor)
  | elapse change => exact h.withBalanced ⟨h.kept.balanced.withWorld _, rfl, rfl⟩

theorem run (h : Inv s) (env : Carrier σ C S) (acts : List (Act σ)) : Inv (s.run env acts) := by
  induction acts generalizing s with
  | nil => exact h
  | cons act acts ih => exact ih (h.step act)

end Inv

/-- Whatever contexts are made, whatever they ask for and what comes of it, the references of a
connection are the open groups whose session uses it; and once every context that was made is
closed nothing is kept, and every connection that was made is closed. -/
theorem nothing_left_behind (env : Carrier σ C S) (world : σ) (acts : List (Act σ)) :
    let s := (State.start world).run env acts
    (∀ a ∈ s.registry.connections.slots,
      a.2.references = s.registry.teams.countP (·.uses a.1 a.2.generation)) ∧
    ((∀ h ∈ s.handles, h.context.owner = true → h.closed = true) →
      s.registry.counts = [0, 0, 0] ∧
        ∀ n < s.registry.world.ledger.opened, n ∈ s.registry.world.ledger.closings) := by
  intro s
  have hinv : Inv s := (Inv.start world).run env acts
  refine ⟨hinv.kept.references_eq, fun hclosed => hinv.kept.nothing_left fun l hl => ?_⟩
  refine Bool.not_eq_false _ |>.mp fun hheld => ?_
  obtain ⟨i, hi⟩ := List.mem_iff_getElem?.mp hl
  obtain ⟨x, hx, ⟨howner, -⟩, hopen⟩ := hinv.held i l hi hheld
  exact absurd (hopen.symm.trans (hclosed x hx howner)) (by decide)

/-- A world of so many connections, of which those below a limit were dropped by their peers. -/
def dropping : Carrier (Nat × Nat) Nat Nat where
  connect _ w := (.ok w.1, (w.1 + 1, w.2))
  isClosed c w := c < w.2
  close _ w := w
  openStore c _ _ w := (if c < w.2 then .error .connectionClosed else .ok c, w)
  serve s _ w := (if s < w.2 then .error (.transport .connectionClosed) else .ok .void, w)
  closeStore _ w := w

/-- A connection that two groups would share is dropped when one of them uses it, and replaced for
the other: it has no reference then, but is closed in the end like the other. -/
theorem nothing_left_behind_dropped :
    let c : Configuration := { destinations := [⟨"remote", "a", 1⟩] }
    let c' : Configuration := { c with requestTimeout := Span.ofSeconds 1 }
    let ask (i : Nat) : Act (Nat × Nat) := .request i (.lookup Name.root)
    let acts := [.create c, .create c', ask 0, .elapse fun w => (w.1, w.1), ask 1]
    let before := (State.start (0, 0)).run dropping acts
    let after := (State.start (0, 0)).run dropping (acts ++ [.close 0, .close 1])
    before.registry.counts = [2, 1, 1] ∧
      before.registry.connections.slots.map (fun a => (a.2.references, a.2.generation)) = [(1, 1)] ∧
      (∀ a ∈ before.registry.connections.slots,
        a.2.references = before.registry.teams.countP (·.uses a.1 a.2.generation)) ∧
      (∀ h ∈ after.handles, h.context.owner = true → h.closed = true) ∧
      after.registry.counts = [0, 0, 0] ∧ after.registry.world.ledger.opened = 2 ∧
      ∀ n < 2, n ∈ after.registry.world.ledger.closings := by
  intro c c' ask acts before after
  have hcounts : before.registry.counts = [2, 1, 1] := by decide +kernel
  have hslots : before.registry.connections.slots.map
      (fun a => (a.2.references, a.2.generation)) = [(1, 1)] := by decide +kernel
  have hclosed : ∀ h ∈ after.handles, h.context.owner = true → h.closed = true := by
    decide +kernel
  have hopened : after.registry.world.ledger.opened = 2 := by decide +kernel
  subst before after
  have hcounted := (nothing_left_behind dropping (0, 0) acts).1
  obtain ⟨hempty, hclosings⟩ := (nothing_left_behind dropping (0, 0) _).2 hclosed
  rw [hopened] at hclosings
  exact ⟨hcounts, hslots, hcounted, hclosed, hempty, hopened, hclosings⟩

end Leftovers

end NameDirectory
