import NameDirectory.Registry
import NameDirectory.Proofs.Custody
import NameDirectory.Proofs.Tenancy

/-!
# Who authenticated a connection

The registry over an arbitrary carrier, but with every connection and every store marked by the
authenticator that the connection was made with (`Carrier.attested`).  What the registry shares
never leaves the identity that it is shared under.

* `Pool.All`: what holds of every resource in a pool, under its key;
* `Failover.Environment.Keeps`: a group hands out only sessions that its environment opened;
* `Registry.Sound`: connections are kept under the identity of their authenticator, groups under
  those of their servers, and a group is served by one of these identities;
* `Registry.lease_spec`, `Registry.preserves_step`, `Registry.preserves_endLease`,
  `Registry.preserves_shutdown`: all that is done with a registry keeps it so.
-/

namespace NameDirectory

/-! ## Pools -/

namespace Pool

variable {σ ε K R : Type} [DecidableEq K] {P : K → R → Prop} {p : Pool K R} {k : K}

/-- What holds of every resource under its key. -/
def All (P : K → R → Prop) (p : Pool K R) : Prop := ∀ k s, p.slot? k = some s → P k s.resource

theorem All.put (h : p.All P) {s : Slot R} (hs : P k s.resource) : (p.put k s).All P := by
  intro k' s' hslot
  rcases slot?_put hslot with ⟨rfl, rfl⟩ | ⟨-, hslot⟩
  · exact hs
  · exact h k' s' hslot

theorem All.remove (h : p.All P) (k : K) : (p.remove k).All P := by
  intro k' s' hslot
  exact h k' s' (slot?_remove hslot).2

theorem All.endLease (h : p.All P) (l : Lease K R) : (p.endLease l).2.2.All P := by
  cases hl : l.released with
  | true =>
    rw [endLease_of_released hl]
    exact h
  | false =>
    have hended := ended_endLease p hl
    generalize (p.endLease l).2.2 = p' at hended ⊢
    generalize (p.endLease l).1 = given at hended
    cases hended with
    | orphan => exact h
    | @shared x hslot => exact All.put h (h l.key x hslot)
    | last => exact h.remove _

theorem All.install (h : p.All P) {r : R} (hr : P k r) :
    (p.install k r).2.All P ∧ P k (p.install k r).1.resource :=
  ⟨All.put (p := { p with generation := p.generation + 1 }) h hr, hr⟩

theorem All.shutdown (p : Pool K R) : p.shutdown.2.All P := by
  intro k s hslot
  cases hslot

/-- A lease is on a resource that was there, or on one that was just built. -/
theorem All.get (h : p.All P) (valid : R → Bool) {build : σ → Except ε R × σ} {w : σ}
    (hbuild : ∀ r, (build w).1 = .ok r → P k r) :
    (p.get k valid build w).2.1.All P ∧
      (∀ l, (p.get k valid build w).1 = .ok l → P k l.resource) ∧
      ((p.get k valid build w).2.2 = w ∨ (p.get k valid build w).2.2 = (build w).2) := by
  unfold Pool.get
  cases hfound : (p.slot? k).filter (valid ·.resource) with
  | some s =>
    have hslot : p.slot? k = some s := (Option.filter_eq_some_iff.mp hfound).1
    refine ⟨h.put (h k s hslot), fun l hl => ?_, .inl rfl⟩
    cases hl
    exact h k s hslot
  | none =>
    rcases hb : build w with ⟨fault | r, w'⟩
    · refine ⟨h, ?_, .inr rfl⟩
      intro l hl
      cases hl
    · obtain ⟨hall, hr⟩ := h.install (hbuild r (by rw [hb]))
      refine ⟨hall, fun l hl => ?_, .inr rfl⟩
      cases hl
      exact hr

end Pool

/-! ## Groups -/

namespace Failover

variable {σ S : Type}

/-- The environment keeps the world as it should be, and opens only the sessions it should. -/
structure Environment.Keeps (env : Environment σ S) (I : σ → Prop) (P : S → Prop) : Prop where
  connect : ∀ index w, I w → I (env.connect index w).2
  opened : ∀ index w s, I w → (env.connect index w).1 = .ok s → P s
  connected : ∀ index s w, I w → I (env.connected index s w)
  closeSession : ∀ s w, I w → I (env.closeSession s w)

/-- What holds of the session in use. -/
def Group.Uses (P : S → Prop) (g : Group S) : Prop := ∀ c, g.current = some c → P c.session

variable {env : Environment σ S} {I : σ → Prop} {P : S → Prop} {w : σ} {g : Group S}

theorem Group.uses_of_none (h : g.current = none) : g.Uses P := by
  intro c hc
  rw [h] at hc
  cases hc

/-- The world is as it should be, and so is the session that is held. -/
def Keeping (I : σ → Prop) (P : S → Prop) (held : Option S) (w : σ) : Prop :=
  I w ∧ ∀ s, held = some s → P s

theorem Environment.Keeps.accounts (henv : env.Keeps I P) : env.Accounts (Keeping I P) where
  opened := by
    intro index w s w' hw hconnect
    have hkept := henv.connect index w hw.1
    have hopened := henv.opened index w s hw.1
    rw [hconnect] at hkept hopened
    refine ⟨hkept, fun s' hs' => ?_⟩
    cases hs'
    exact hopened rfl
  failed := by
    intro index w fault w' hw hconnect
    have hkept := henv.connect index w hw.1
    rw [hconnect] at hkept
    exact ⟨hkept, hw.2⟩
  connected h := ⟨henv.connected _ _ _ h.1, h.2⟩
  closeSession h := ⟨henv.closeSession _ _ h.1, fun _ hs => nomatch hs⟩

theorem keeping_session? (hw : I w) (hg : g.Uses P) : Keeping I P g.session? w := by
  refine ⟨hw, fun s hs => ?_⟩
  obtain ⟨c, hc, rfl⟩ := Option.map_eq_some_iff.mp hs
  exact hg c hc

theorem Keeping.uses (h : Keeping I P g.session? w) : g.Uses P := fun _ hc =>
  h.2 _ (congrArg (Option.map _) hc)

/-- What a turn at the group leaves: the world as it should be, and no session in use or handed out
but one that may be. -/
structure TurnKeeps (I : σ → Prop) (P : S → Prop)
    (turn : Except ClientFault (Current S) × Group S × σ) : Prop where
  world : I turn.2.2
  uses : turn.2.1.Uses P
  handed : ∀ c, turn.1 = .ok c → P c.session

theorem TurnAccounts.keeps {turn : Except ClientFault (Current S) × Group S × σ}
    (h : TurnAccounts (Keeping I P) g turn) : TurnKeeps I P turn where
  world := h.account.1
  uses := h.account.uses
  handed c hc := h.account.uses c (h.handed c hc)

theorem replace_keeps (henv : env.Keeps I P) (failed : Option Nat) (hg : g.Uses P) (hw : I w) :
    TurnKeeps I P (g.replace env failed w) :=
  (replace_accounts henv.accounts failed (keeping_session? hw hg)).keeps

theorem obtain_keeps (henv : env.Keeps I P) (hg : g.Uses P) (hw : I w) :
    TurnKeeps I P (g.obtain env w) :=
  (obtain_accounts henv.accounts (keeping_session? hw hg)).keeps

theorem clear_keeps (henv : env.Keeps I P) (hg : g.Uses P) (hw : I w) :
    (g.clear env w).1.Uses P ∧ I (g.clear env w).2 := by
  obtain ⟨-, hcurrent, hkept, -⟩ := clear_accounts henv.accounts (keeping_session? hw hg)
  exact ⟨Group.uses_of_none hcurrent, hkept⟩

end Failover

/-! ## Marks -/

/-- A connection or a store, with the authenticator of the connection. -/
structure Attested (α : Type) where
  value : α
  authenticator : Authenticator

theorem Attested.authenticator_of_map {ε α : Type} {r : Except ε α} {a : Authenticator}
    {x : Attested α} (h : r.map (fun v => ⟨v, a⟩) = .ok x) : x.authenticator = a := by
  cases r with
  | error fault => cases h
  | ok v =>
    cases h
    rfl

/-- The carrier with every connection marked by what authenticated it, and every store by what
authenticated its connection. -/
def Carrier.attested {σ C S : Type} (env : Carrier σ C S) : Carrier σ (Attested C) (Attested S) where
  connect d w :=
    let (r, w) := env.connect d w
    (r.map fun c => ⟨c, d.authenticator⟩, w)
  isClosed c := env.isClosed c.value
  close c := env.close c.value
  openStore c d patience w :=
    let (r, w) := env.openStore c.value d patience w
    (r.map fun s => ⟨s, c.authenticator⟩, w)
  serve s := env.serve s.value
  closeStore s := env.closeStore s.value

namespace Carrier

variable {σ C S : Type} {env : Carrier σ C S}

theorem authenticator_of_connect {d : Descriptor} {w : σ} {c : Attested C}
    (h : (env.attested.connect d w).1 = .ok c) : c.authenticator = d.authenticator :=
  Attested.authenticator_of_map h

theorem authenticator_of_openStore {c : Attested C} {d : Descriptor} {patience : Span} {w : σ}
    {s : Attested S} (h : (env.attested.openStore c d patience w).1 = .ok s) :
    s.authenticator = c.authenticator :=
  Attested.authenticator_of_map h

end Carrier

namespace Registry

variable {σ C S : Type}

/-- Connections are kept under the identity of what authenticated them. -/
def Attests (connections : Pool ConnectionKey (Attested C)) : Prop :=
  connections.All fun k c => c.authenticator.identity = k.identity

/-- The servers of every group. -/
def rosters (w : Registry σ C S) : List (List Descriptor) := w.teams.map (·.descriptors)

/-- A session has the identity of one of the servers. -/
def Served (servers : List Descriptor) (s : Session (Attested C) (Attested S)) : Prop :=
  ∃ d ∈ servers, d.authenticator.identity = s.store.authenticator.identity

/-- Sharing follows identities. -/
structure Sound (w : Registry σ (Attested C) (Attested S)) : Prop where
  connections : Attests w.connections
  stores : w.stores.All fun k i =>
    (w.rosters[i]?).map (List.map Descriptor.key) = some k.servers
  sessions : ∀ t ∈ w.teams, t.group.Uses (Served t.descriptors)

theorem sound_start (world : σ) : Sound ({ world } : Registry σ (Attested C) (Attested S)) where
  connections _ _ h := by cases h
  stores _ _ h := by cases h
  sessions _ h := by cases h

/-! ## What leaves groups as they are -/

/-- What is done to connections and to the world leaves the groups alone. -/
structure Keeps (w w' : Registry σ (Attested C) (Attested S)) : Prop where
  teams : w'.teams = w.teams
  stores : w'.stores = w.stores
  connections : Attests w.connections → Attests w'.connections

namespace Keeps

variable {w w' w'' : Registry σ (Attested C) (Attested S)}

theorem refl (w : Registry σ (Attested C) (Attested S)) : Keeps w w := ⟨rfl, rfl, id⟩

theorem trans (h : Keeps w w') (h' : Keeps w' w'') : Keeps w w'' :=
  ⟨h'.teams.trans h.teams, h'.stores.trans h.stores, fun hw => h'.connections (h.connections hw)⟩

theorem rosters_eq (h : Keeps w w') : w'.rosters = w.rosters := by
  unfold rosters
  rw [h.teams]

theorem sound (h : Keeps w w') (hw : w.Sound) : w'.Sound where
  connections := h.connections hw.connections
  stores := by
    rw [h.stores, h.rosters_eq]
    exact hw.stores
  sessions := by
    rw [h.teams]
    exact hw.sessions

end Keeps

variable {env : Carrier σ C S} {w w' : Registry σ (Attested C) (Attested S)}

theorem keeps_world (world : σ) : Keeps w { w with world } := ⟨rfl, rfl, id⟩

theorem keeps_closeConnection (c : Attested C) : Keeps w (w.closeConnection env.attested c) :=
  keeps_world _

theorem keeps_closeEndpoint (i : Nat) : Keeps w (w.closeEndpoint env.attested i) := by
  unfold closeEndpoint
  split
  · exact .refl w
  · next e _ =>
    split
    · exact .refl w
    · have hmarked : Keeps w { w with endpointList := w.endpointList.set i ⟨[], true⟩ } :=
        ⟨rfl, rfl, id⟩
      exact List.foldlRecOn e.connections _ hmarked fun v hv c _ => hv.trans (keeps_closeConnection c)

theorem keeps_connect (endpoint : Nat) (d : Descriptor) :
    Keeps w (w.connect env.attested endpoint d).2 := by
  unfold connect
  split
  · exact .refl w
  · rcases env.attested.connect d w.world with ⟨fault | c, world⟩
    · exact keeps_world world
    · exact ⟨rfl, rfl, id⟩

/-- A connection is authenticated by what its descriptor names. -/
theorem authenticator_of_connect {endpoint : Nat} {d : Descriptor} {c : Attested C}
    (h : (w.connect env.attested endpoint d).1 = .ok c) : c.authenticator = d.authenticator := by
  unfold connect at h
  split at h
  · cases h
  · rcases hr : env.attested.connect d w.world with ⟨fault | c', world⟩
    · simp only [hr] at h
      cases h
    · simp only [hr] at h
      cases h
      exact Carrier.authenticator_of_connect (by rw [hr])

/-- A leased connection has the identity it was asked for with. -/
theorem leaseConnection_spec (env : Carrier σ C S) (hw : Attests w.connections) (endpoint : Lease EndpointKey Nat)
    (d : Descriptor) :
    Keeps w (w.leaseConnection env.attested endpoint d).2 ∧
      ∀ l, (w.leaseConnection env.attested endpoint d).1 = .ok l →
        l.resource.authenticator.identity = d.authenticator.identity := by
  have hbuild : ∀ c, (w.connect env.attested endpoint.resource d).1 = .ok c →
      c.authenticator.identity = (ConnectionKey.of endpoint.key d).identity := by
    intro c hc
    rw [authenticator_of_connect hc]
    rfl
  obtain ⟨hall, hlease, hworld⟩ :=
    Pool.All.get hw (fun c => !env.attested.isClosed c w.world) hbuild
  refine ⟨?_, hlease⟩
  have hkept : Keeps w (w.connections.get (ConnectionKey.of endpoint.key d)
      (fun c => !env.attested.isClosed c w.world) (connect env.attested endpoint.resource d) w).2.2 := by
    rcases hworld with h | h
    · rw [h]
      exact .refl w
    · rw [h]
      exact keeps_connect endpoint.resource d
  exact ⟨hkept.teams, hkept.stores, fun _ => hall⟩

theorem keeps_endConnectionLease (l : Lease ConnectionKey (Attested C)) :
    Keeps w (w.endConnectionLease env.attested l) := by
  have hended : Keeps w { w with connections := (w.connections.endLease l).2.2 } :=
    ⟨rfl, rfl, fun hw => Pool.All.endLease hw l⟩
  unfold endConnectionLease
  rcases h : w.connections.endLease l with ⟨given, l', connections⟩
  rw [h] at hended
  cases given with
  | none => exact hended
  | some c => exact hended.trans (keeps_closeConnection c)

theorem keeps_endEndpointLease (l : Lease EndpointKey Nat) :
    Keeps w (w.endEndpointLease env.attested l) := by
  unfold endEndpointLease
  rcases w.endpoints.endLease l with ⟨given, l', endpoints⟩
  have hended : Keeps w { w with endpoints } := ⟨rfl, rfl, id⟩
  cases given with
  | none => exact hended
  | some i => exact hended.trans (keeps_closeEndpoint i)

/-- A session is opened with the identity of its server. -/
theorem openSession_spec (hw : Attests w.connections) (t : Team (Attested C) (Attested S))
    (d : Descriptor) :
    Keeps w (w.openSession env.attested t d).2 ∧
      ∀ s, (w.openSession env.attested t d).1 = .ok s →
        s.store.authenticator.identity = d.authenticator.identity := by
  obtain ⟨hkept, hlease⟩ := leaseConnection_spec env hw t.endpoint d
  unfold openSession
  rcases h : w.leaseConnection env.attested t.endpoint d with ⟨fault | lease, w'⟩
  · rw [h] at hkept
    refine ⟨hkept, ?_⟩
    intro s hs
    cases hs
  · rw [h] at hkept hlease
    rcases hr : env.attested.openStore lease.resource d t.requestTimeout w'.world with ⟨r, world⟩
    have hopened : Keeps w { w' with world } := hkept.trans (keeps_world world)
    simp only [hr]
    cases r with
    | error fault =>
      refine ⟨hopened.trans (keeps_endConnectionLease lease), ?_⟩
      intro s hs
      cases hs
    | ok store =>
      refine ⟨hopened, ?_⟩
      intro s hs
      cases hs
      have hstore : store.authenticator = lease.resource.authenticator :=
        Carrier.authenticator_of_openStore (by rw [hr])
      rw [hstore]
      exact hlease lease rfl

theorem keeps_closeSession (s : Session (Attested C) (Attested S)) :
    Keeps w (w.closeSession env.attested s) :=
  (keeps_world _).trans (keeps_endConnectionLease s.lease)

/-! ## Groups and their sessions -/

variable {i : Nat} {t : Team (Attested C) (Attested S)}

/-- What a group does to the registry leaves the groups alone, and the sessions it opens have the
identity of one of its servers. -/
theorem keeps_environment (env : Carrier σ C S) (hw : Attests w.connections) (ht : w.teams[i]? = some t) :
    (environment env.attested i).Keeps (Keeps w) (Served t.descriptors) where
  connect server v hv := by
    simp only [environment, hv.teams, ht]
    split
    · exact hv
    · next d _ => exact hv.trans (openSession_spec (hv.connections hw) t d).1
  opened server v s hv hs := by
    simp only [environment, hv.teams, ht] at hs
    split at hs
    · cases hs
    · next d hd =>
      have hidentity := (openSession_spec (hv.connections hw) t d).2 s hs
      exact ⟨d, List.mem_of_getElem? hd, hidentity.symm⟩
  connected server s v hv := hv.trans ⟨rfl, rfl, id⟩
  closeSession s v hv := hv.trans (keeps_closeSession s)

/-- What is done to a sound registry keeps it so, and the groups their servers. -/
def Preserves (w w' : Registry σ (Attested C) (Attested S)) : Prop :=
  w.Sound → w'.Sound ∧ w'.rosters = w.rosters

namespace Preserves

variable {w'' : Registry σ (Attested C) (Attested S)}

theorem refl (w : Registry σ (Attested C) (Attested S)) : Preserves w w := fun hw => ⟨hw, rfl⟩

theorem trans (h : Preserves w w') (h' : Preserves w' w'') : Preserves w w'' := by
  intro hw
  obtain ⟨hsound, hrosters⟩ := h hw
  obtain ⟨hsound', hrosters'⟩ := h' hsound
  exact ⟨hsound', hrosters'.trans hrosters⟩

end Preserves

theorem Keeps.preserves (h : Keeps w w') : Preserves w w' := fun hw => ⟨h.sound hw, h.rosters_eq⟩

theorem group_eq {C S : Type} {w : Registry σ C S} {t : Team C S} (ht : w.teams[i]? = some t) :
    w.group i = t.group := by
  unfold group
  rw [ht]

theorem exists_team {servers : List Descriptor} (h : w.rosters[i]? = some servers) :
    ∃ t, w.teams[i]? = some t ∧ t.descriptors = servers := by
  unfold rosters at h
  rw [List.getElem?_map] at h
  exact Option.map_eq_some_iff.mp h

/-- A group may be put back that uses no session but those of its servers. -/
theorem preserves_set (ht : w.teams[i]? = some t) {v : Registry σ (Attested C) (Attested S)}
    (hv : Keeps w v) {g : Failover.Group (Session (Attested C) (Attested S))}
    (hg : g.Uses (Served t.descriptors)) : Preserves w ((place i).set g v) := by
  have hrosters : ((place i).set g v).rosters = w.rosters := by
    refine List.ext_getElem? fun k => ?_
    simp only [place, rosters, hv.teams, List.getElem?_map, List.getElem?_modify]
    cases w.teams[k]? with
    | none => rfl
    | some t' =>
      by_cases hk : i = k
      · simp [hk]
      · simp [hk]
  refine fun hw => ⟨⟨hv.connections hw.connections, ?_, ?_⟩, hrosters⟩
  · rw [hrosters]
    change v.stores.All _
    rw [hv.stores]
    exact hw.stores
  · intro t' ht'
    obtain ⟨k, hk⟩ := List.mem_iff_getElem?.mp ht'
    simp only [place, hv.teams, List.getElem?_modify] at hk
    obtain ⟨u, hu, rfl⟩ := Option.map_eq_some_iff.mp hk
    by_cases hik : i = k
    · subst hik
      obtain rfl := Option.some.inj (ht.symm.trans hu)
      rw [if_pos rfl]
      exact hg
    · rw [if_neg hik]
      exact hw.sessions u (List.mem_of_getElem? hu)

/-- A turn at a group, made under its lock. -/
theorem preserves_locked {β : Type}
    (turn : Failover.Group (Session (Attested C) (Attested S)) →
      Registry σ (Attested C) (Attested S) →
      β × Failover.Group (Session (Attested C) (Attested S)) × Registry σ (Attested C) (Attested S))
    (ht : w.teams[i]? = some t) (hkept : Keeps w (turn t.group w).2.2)
    (huses : (turn t.group w).2.1.Uses (Served t.descriptors)) :
    Preserves w ((place i).locked turn w).2 ∧
      ((place i).locked turn w).1 = (turn t.group w).1 := by
  have hgroup : (place i).get w = t.group := group_eq ht
  unfold Failover.Place.locked
  rw [hgroup]
  exact ⟨preserves_set ht hkept huses, rfl⟩

theorem current?_ofObtained {r : Except ClientFault (Failover.Current (Session (Attested C) (Attested S)))}
    {next : Failover.Current (Session (Attested C) (Attested S)) →
      Failover.Stage (Session (Attested C) (Attested S)) Reply}
    {c : Failover.Current (Session (Attested C) (Attested S))}
    (hnext : ∀ c, (next c).current? = some c)
    (h : (Failover.Stage.ofObtained r next).current? = some c) : r = .ok c := by
  cases r with
  | error fault => cases h
  | ok c' =>
    obtain rfl := Option.some.inj ((hnext c').symm.trans h)
    rfl

/-- A step of an operation keeps the registry sound, and the session it comes by has the identity
of one of the servers. -/
theorem preserves_step (env : Carrier σ C S) (hw : w.Sound) (ht : w.teams[i]? = some t) (request : Request)
    (stage : Failover.Stage (Session (Attested C) (Attested S)) Reply) :
    Preserves w (stage.step (environment env.attested i) (place i) (ask env.attested request) w).2 ∧
      ∀ c, (stage.step (environment env.attested i) (place i) (ask env.attested request) w).1.current?
        = some c → Served t.descriptors c.session := by
  have henv := keeps_environment env hw.connections ht
  have huses : t.group.Uses (Served t.descriptors) := hw.sessions t (List.mem_of_getElem? ht)
  cases stage with
  | entering =>
    refine ⟨.refl w, fun c hc => ?_⟩
    simp only [Failover.Stage.step] at hc
    split at hc <;> cases hc
  | obtaining =>
    have hturn := Failover.obtain_keeps henv huses (.refl w)
    obtain ⟨hpreserves, hresult⟩ :=
      preserves_locked (Failover.Group.obtain (environment env.attested i)) ht hturn.world hturn.uses
    refine ⟨hpreserves, fun c hc => hturn.handed c ?_⟩
    rw [← hresult]
    exact current?_ofObtained (fun _ => rfl) hc
  | replacing epoch =>
    have hturn := Failover.replace_keeps henv (some epoch) huses (.refl w)
    obtain ⟨hpreserves, hresult⟩ :=
      preserves_locked (Failover.Group.replace (environment env.attested i) (some epoch)) ht hturn.world hturn.uses
    refine ⟨hpreserves, fun c hc => hturn.handed c ?_⟩
    rw [← hresult]
    exact current?_ofObtained (fun _ => rfl) hc
  | applying c =>
    refine ⟨(keeps_world _).preserves, fun c' hc' => ?_⟩
    simp only [Failover.Stage.step, Failover.Stage.afterFirst] at hc'
    split at hc' <;> cases hc'
  | reapplying c =>
    refine ⟨(keeps_world _).preserves, fun c' hc' => ?_⟩
    simp only [Failover.Stage.step, Failover.Stage.afterSecond] at hc'
    split at hc' <;> cases hc'
  | finished r =>
    refine ⟨.refl w, fun c hc => ?_⟩
    cases hc

/-- A mark on a group changes no session. -/
theorem preserves_marked (ht : w.teams[i]? = some t)
    {g : Failover.Group (Session (Attested C) (Attested S))} (hg : g.current = t.group.current) :
    Preserves w ((place i).set g w) := by
  intro hw
  refine preserves_set ht (.refl w) ?_ hw
  intro c hc
  rw [hg] at hc
  exact hw.sessions t (List.mem_of_getElem? ht) c hc

/-- It does not matter which server of a group is tried next. -/
theorem preserves_turn (i cursor : Nat) :
    Preserves w ((place i).set { (place i).get w with cursor } w) := by
  cases ht : w.teams[i]? with
  | none =>
    have hsame : w.teams.modify i (fun t => { t with group := { (place i).get w with cursor } }) =
        w.teams := by
      rw [List.modify_eq_self (List.getElem?_eq_none_iff.mp ht)]
    simp only [place] at hsame ⊢
    rw [hsame]
    exact .refl w
  | some t =>
    have hgroup : (place i).get w = t.group := group_eq ht
    rw [hgroup]
    exact preserves_marked ht rfl

theorem preserves_clear (ht : w.teams[i]? = some t) :
    Preserves w ((place i).locked (fun g w =>
      ((), g.clear (environment env.attested i) w)) w).2 := by
  intro hw
  have henv := keeps_environment env hw.connections ht
  obtain ⟨huses, hkept⟩ :=
    Failover.clear_keeps henv (hw.sessions t (List.mem_of_getElem? ht)) (.refl w)
  exact (preserves_locked (fun g w => ((), g.clear (environment env.attested i) w)) ht hkept huses).1 hw

theorem keeps_closeConnector (i : Nat) :
    Keeps w ((environment env.attested i).closeConnector w) := by
  simp only [environment]
  split
  · exact .refl w
  · next t _ => exact keeps_endEndpointLease t.endpoint

theorem preserves_closeGroup (i : Nat) : Preserves w (w.closeGroup env.attested i) := by
  cases ht : w.teams[i]? with
  | none =>
    have hclosed : ((place i).get w).closed = true := by
      change (group i w).closed = true
      unfold group
      rw [ht]
    unfold closeGroup Failover.close
    rw [if_pos hclosed]
    exact .refl w
  | some t =>
    have hgroup : (place i).get w = t.group := group_eq ht
    unfold closeGroup Failover.close
    rw [hgroup]
    by_cases hclosed : t.group.closed = true
    · rw [if_pos hclosed]
      exact .refl w
    · rw [if_neg hclosed]
      have hmarked : Preserves w ((place i).set { t.group with closed := true } w) :=
        preserves_marked ht rfl
      have ht' : ((place i).set { t.group with closed := true } w).teams[i]? =
          some { t with group := { t.group with closed := true } } := by
        simp [place, ht]
      exact (hmarked.trans (preserves_clear ht')).trans (keeps_closeConnector i).preserves

/-! ## Leases on groups -/

theorem preserves_endLease (n : Nat) : Preserves w (w.endLease env.attested n) := by
  unfold endLease
  split
  · exact .refl w
  · next l _ =>
    have hended : Preserves w { w with
        stores := (w.stores.endLease l).2.2, leases := w.leases.set n (w.stores.endLease l).2.1 } :=
      fun hw => ⟨⟨hw.connections, hw.stores.endLease l, hw.sessions⟩, rfl⟩
    rcases h : w.stores.endLease l with ⟨given, l', stores⟩
    rw [h] at hended
    cases given with
    | none => exact hended
    | some team => exact hended.trans (preserves_closeGroup team)

theorem preserves_closeRoute (r : Route) : Preserves w (w.closeRoute env.attested r) := by
  cases r with
  | lease n _ => exact preserves_endLease n
  | direct team => exact preserves_closeGroup team

theorem preserves_shutdown : Preserves w (w.shutdown env.attested) := by
  unfold shutdown
  rcases hgiven : w.stores.shutdown with ⟨teams, stores⟩
  have hgroups : Preserves w
      (teams.foldl (fun w i => w.closeGroup env.attested i) { w with stores }) := by
    have hstores : Preserves w { w with stores := w.stores.shutdown.2 } := fun hw =>
      ⟨⟨hw.connections, Pool.All.shutdown _, hw.sessions⟩, rfl⟩
    rw [hgiven] at hstores
    exact List.foldlRecOn teams _ hstores fun v hv i _ => hv.trans (preserves_closeGroup i)
  refine hgroups.trans (Keeps.preserves ?_)
  dsimp only
  generalize teams.foldl (fun w i => w.closeGroup env.attested i) { w with stores } = v
  rcases hgiven' : v.connections.shutdown with ⟨cs, connections⟩
  have hconnections : Keeps v
      (cs.foldl (fun w c => w.closeConnection env.attested c) { v with connections }) := by
    have hempty : Keeps v { v with connections := v.connections.shutdown.2 } :=
      ⟨rfl, rfl, fun _ => Pool.All.shutdown _⟩
    rw [hgiven'] at hempty
    exact List.foldlRecOn cs _ hempty fun u hu c _ => hu.trans (keeps_closeConnection c)
  refine hconnections.trans ?_
  dsimp only
  generalize cs.foldl (fun w c => w.closeConnection env.attested c) { v with connections } = u
  rcases u.endpoints.shutdown with ⟨es, endpoints⟩
  have hempty : Keeps u { u with endpoints } := ⟨rfl, rfl, id⟩
  exact List.foldlRecOn es _ hempty fun x hx e _ => hx.trans (keeps_closeEndpoint e)

/-! ## New contexts -/

/-- The servers of a group all have an identity. -/
def Backs (w : Registry σ C S) (identity : String) (team : Nat) : Prop :=
  ∃ servers, w.rosters[team]? = some servers ∧ ∀ d ∈ servers, d.authenticator.identity = identity

/-- No group loses its servers. -/
def Extends (w w' : Registry σ C S) : Prop := w.rosters <+: w'.rosters

theorem Backs.mono {identity : String} {team : Nat} (h : Backs w identity team)
    (hext : Extends w w') : Backs w' identity team := by
  obtain ⟨servers, hservers, hidentity⟩ := h
  obtain ⟨more, hmore⟩ := hext
  refine ⟨servers, ?_, hidentity⟩
  rw [← hmore, List.getElem?_append_left (List.getElem?_eq_some_iff.mp hservers).1, hservers]

theorem authenticator_of_descriptors {c : Configuration} {servers : List Descriptor}
    (h : c.descriptors = .ok servers) : ∀ d ∈ servers, d.authenticator = c.authenticator := by
  unfold Configuration.descriptors at h
  split at h
  · cases h
  · cases h
    intro d hd
    obtain ⟨destination, -, rfl⟩ := List.mem_map.mp hd
    rfl

/-- Servers with the same keys have the same identities. -/
theorem identity_of_keys_eq {servers servers' : List Descriptor} {identity : String}
    (h : servers'.map Descriptor.key = servers.map Descriptor.key)
    (hidentity : ∀ d ∈ servers, d.authenticator.identity = identity) :
    ∀ d ∈ servers', d.authenticator.identity = identity := by
  intro d' hd'
  have hkey : d'.key ∈ servers.map Descriptor.key := h ▸ List.mem_map_of_mem hd'
  obtain ⟨d, hd, heq⟩ := List.mem_map.mp hkey
  have hsame : d.authenticator.identity = d'.authenticator.identity :=
    congrArg Descriptor.Key.identity heq
  rw [← hsame]
  exact hidentity d hd

theorem keeps_leaseEndpoint (k : EndpointKey) : Keeps w (w.leaseEndpoint k).2 := by
  unfold leaseEndpoint
  split <;> exact ⟨rfl, rfl, id⟩

/-- A group that uses no session yet may be added. -/
theorem Sound.addTeam (hw : w.Sound) {t : Team (Attested C) (Attested S)}
    (ht : t.group.current = none) : Sound { w with teams := w.teams ++ [t] } where
  connections := hw.connections
  stores := by
    intro k s hslot
    have hservers := hw.stores k s hslot
    obtain ⟨servers, hfound, -⟩ := Option.map_eq_some_iff.mp hservers
    have hlt := (List.getElem?_eq_some_iff.mp hfound).1
    simp only [rosters, List.map_append] at hlt ⊢
    rw [List.getElem?_append_left hlt]
    exact hservers
  sessions := by
    intro t' ht'
    rcases List.mem_append.mp ht' with ht' | ht'
    · exact hw.sessions t' ht'
    · obtain rfl := List.mem_singleton.mp ht'
      exact Failover.Group.uses_of_none ht

theorem current_of_ofServers {servers : List String}
    {g : Failover.Group (Session (Attested C) (Attested S))}
    (h : Failover.Group.ofServers servers = .ok g) : g.current = none := by
  unfold Failover.Group.ofServers at h
  split at h
  · cases h
  · cases h
    rfl

/-- A group that is made has the servers it is made for. -/
theorem makeTeam_spec (hw : w.Sound) (c : Configuration) (servers : List Descriptor) :
    (w.makeTeam c servers).2.Sound ∧ (w.makeTeam c servers).2.stores = w.stores ∧
      Extends w (w.makeTeam c servers).2 ∧
      ∀ team, (w.makeTeam c servers).1 = .ok team →
        (w.makeTeam c servers).2.rosters[team]? = some servers := by
  unfold makeTeam
  cases hgroup : Failover.Group.ofServers (S := Session (Attested C) (Attested S))
      (servers.map (·.destination.text)) with
  | error fault => exact ⟨hw, rfl, List.prefix_refl _, fun team h => nomatch h⟩
  | ok group =>
    have hkept : Keeps w (w.leaseEndpoint c.endpointKey).2 := keeps_leaseEndpoint c.endpointKey
    rcases hlease : w.leaseEndpoint c.endpointKey with ⟨endpoint, v⟩
    rw [hlease] at hkept
    refine ⟨(hkept.sound hw).addTeam (current_of_ofServers hgroup), hkept.stores, ?_, ?_⟩
    · unfold Extends
      rw [← hkept.rosters_eq]
      simp only [rosters, List.map_append]
      exact List.prefix_append _ _
    · intro team hteam
      cases hteam
      simp only [rosters, List.map_append, List.map_cons, List.map_nil]
      rw [← List.length_map (f := Team.descriptors), List.getElem?_concat_length]

/-- Whoever leases a group for a configuration gets one whose servers have its identity. -/
theorem lease_spec (hw : w.Sound) (c : Configuration) :
    (w.lease c).2.Sound ∧ Extends w (w.lease c).2 ∧
      ∀ r, (w.lease c).1 = .ok r → Backs (w.lease c).2 c.authenticator.identity r.team := by
  unfold lease
  cases hservers : c.descriptors with
  | error fault =>
    refine ⟨hw, List.prefix_refl _, ?_⟩
    intro r hr
    cases hr
  | ok servers =>
    have hidentity : ∀ d ∈ servers, d.authenticator.identity = c.authenticator.identity := by
      intro d hd
      rw [authenticator_of_descriptors hservers d hd]
    cases hslot : w.stores.slot? (storeKey c servers) with
    | some s =>
      simp only [Pool.get, hslot, Option.filter_some, if_true]
      obtain ⟨servers', hfound, hkeys⟩ := Option.map_eq_some_iff.mp (hw.stores _ s hslot)
      refine ⟨⟨hw.connections, ?_, hw.sessions⟩, List.prefix_refl _, ?_⟩
      · exact Pool.All.put hw.stores (hw.stores _ s hslot)
      · intro r hr
        cases hr
        exact ⟨servers', hfound, identity_of_keys_eq hkeys hidentity⟩
    | none =>
      obtain ⟨hsound, hstores, hextends, hmade⟩ := makeTeam_spec hw c servers
      simp only [Pool.get, hslot, Option.filter_none]
      rcases hteam : w.makeTeam c servers with ⟨fault | team, v⟩
      · rw [hteam] at hsound hstores hextends
        dsimp only at hstores
        rw [← hstores]
        refine ⟨hsound, hextends, ?_⟩
        intro r hr
        cases hr
      · rw [hteam] at hsound hstores hextends hmade
        dsimp only at hstores
        have hfound := hmade team rfl
        have hkeys : (v.rosters[team]?).map (List.map Descriptor.key) =
            some (storeKey c servers).servers := by
          rw [hfound]
          rfl
        rw [← hstores]
        refine ⟨⟨hsound.connections, ?_, hsound.sessions⟩, hextends, ?_⟩
        · exact (hsound.stores.install hkeys).1
        · intro r hr
          cases hr
          exact ⟨servers, hfound, hidentity⟩

end Registry

end NameDirectory
