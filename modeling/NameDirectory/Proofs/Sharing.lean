import NameDirectory.Proofs.Provenance

/-!
# Connections are shared under one identity

Any number of contexts are made from any configurations, ask through one registry for whatever
they like and are closed, in any order and step by step (`State.run`); what is carried over which
connection is recorded.

* `Inv.step`, `Inv.run`: groups, calls under way and what was carried keep to the identities of
  the configurations;
* `carried_under_own_identity`: no request of a context is carried over a connection that was
  authenticated under another identity;
* `carried_over_other_secret`: an identity does not tell secrets apart, so a connection may be
  shared by contexts that would show different ones.
-/

namespace NameDirectory

/-! ## Credentials and identities -/

namespace Authenticator

/-- The two ways to say who one is that come with the library. -/
inductive BuiltIn : Authenticator → Prop
  | anonymous : BuiltIn anonymous
  | password (principal secret realm : String) : BuiltIn (password principal secret realm)

/-- Whoever shows the same credentials in one of these ways is the same. -/
theorem BuiltIn.eq_of_credentials {a b : Authenticator} (ha : a.BuiltIn) (hb : b.BuiltIn)
    (h : a.credentials = b.credentials) : a = b := by
  cases ha with
  | anonymous =>
    cases hb with
    | anonymous => rfl
    | password principal secret realm =>
      have hmechanism : Credentials.anonymousMechanism = Credentials.passwordMechanism :=
        congrArg Credentials.mechanism h
      exact absurd hmechanism (by decide)
  | password principal secret realm =>
    cases hb with
    | anonymous =>
      have hmechanism : Credentials.passwordMechanism = Credentials.anonymousMechanism :=
        congrArg Credentials.mechanism h
      exact absurd hmechanism (by decide)
    | password principal' secret' realm' =>
      obtain ⟨-, rfl, rfl, rfl⟩ := Credentials.mk.inj h
      rfl

end Authenticator

namespace Sharing

open Registry (Route)

variable {σ C S : Type}

/-! ## Runs -/

/-- A context, with the configuration that it was made from. -/
structure Handle where
  configuration : Configuration
  route : Route

structure Call (C S : Type) where
  handle : Handle
  request : Request
  stage : Failover.Stage (Registry.Session (Attested C) (Attested S)) Reply := .entering

/-- A request that was carried for a context, with what had authenticated the connection. -/
structure Carried where
  configuration : Configuration
  request : Request
  authenticator : Authenticator
  deriving DecidableEq

structure State (σ C S : Type) where
  registry : Registry σ (Attested C) (Attested S)
  handles : List Handle := []
  calls : List (Call C S) := []
  /-- What was carried, the first first. -/
  carried : List Carried := []

def State.start (world : σ) : State σ C S := { registry := { world } }

inductive Act (σ : Type) where
  | create (c : Configuration)
  | find (i : Nat)
  | ask (i : Nat) (r : Request)
  | proceed (j : Nat)
  | close (i : Nat)
  | shutdown
  /-- Another server of a group is to be tried next. -/
  | turn (team cursor : Nat)
  | elapse (change : σ → σ)

namespace State

/-- A call takes its next step; if it is to be applied, its request is carried. -/
def proceed (env : Carrier σ C S) (s : State σ C S) (j : Nat) (call : Call C S) : State σ C S :=
  let team := call.handle.route.team
  let (stage, registry) := call.stage.step (Registry.environment env.attested team)
    (Registry.place team) (Registry.ask env.attested call.request) s.registry
  { s with
    registry
    calls := s.calls.set j { call with stage }
    carried := s.carried ++ call.stage.current?.toList.map fun c =>
      ⟨call.handle.configuration, call.request, c.session.store.authenticator⟩ }

def step (env : Carrier σ C S) (s : State σ C S) : Act σ → State σ C S
  | .create c =>
    match s.registry.context c with
    | (.error _, registry) => { s with registry }
    | (.ok context, registry) =>
      { s with registry, handles := s.handles ++ [⟨c, context.store⟩] }
  | .find i =>
    match s.handles[i]? with
    | none => s
    | some h => { s with handles := s.handles ++ [⟨h.configuration, .direct h.route.team⟩] }
  | .ask i request =>
    match s.handles[i]? with
    | none => s
    | some handle => { s with calls := s.calls ++ [{ handle, request }] }
  | .proceed j =>
    match s.calls[j]? with
    | none => s
    | some call => s.proceed env j call
  | .close i =>
    match s.handles[i]? with
    | none => s
    | some h => { s with registry := s.registry.closeRoute env.attested h.route }
  | .shutdown => { s with registry := s.registry.shutdown env.attested }
  | .turn team cursor =>
    let place := Registry.place team
    { s with registry := place.set { place.get s.registry with cursor } s.registry }
  | .elapse change => { s with registry := { s.registry with world := change s.registry.world } }

def run (env : Carrier σ C S) (s : State σ C S) (acts : List (Act σ)) : State σ C S :=
  acts.foldl (step env) s

end State

/-! ## The invariant -/

/-- A handle leads to servers with the identity of its configuration. -/
def Handle.Backed (w : Registry σ (Attested C) (Attested S)) (h : Handle) : Prop :=
  w.Backs h.configuration.authenticator.identity h.route.team

/-- A call is about to use a session only if that has the identity of its configuration. -/
def Call.Faithful (c : Call C S) : Prop :=
  ∀ current, c.stage.current? = some current →
    current.session.store.authenticator.identity = c.handle.configuration.authenticator.identity

structure Inv (s : State σ C S) : Prop where
  registry : s.registry.Sound
  handles : ∀ h ∈ s.handles, h.Backed s.registry
  calls : ∀ c ∈ s.calls, c.handle.Backed s.registry ∧ c.Faithful
  carried : ∀ e ∈ s.carried, e.authenticator.identity = e.configuration.authenticator.identity

namespace Inv

variable {env : Carrier σ C S} {s : State σ C S}

theorem start (world : σ) : Inv (State.start world : State σ C S) where
  registry := Registry.sound_start world
  handles _ h := nomatch h
  calls _ h := nomatch h
  carried _ h := nomatch h

theorem withRegistry (h : Inv s) {registry : Registry σ (Attested C) (Attested S)}
    (hsound : registry.Sound) (hextends : s.registry.Extends registry) :
    Inv { s with registry } where
  registry := hsound
  handles := fun x hx => (h.handles x hx).mono hextends
  calls := fun x hx => ⟨(h.calls x hx).1.mono hextends, (h.calls x hx).2⟩
  carried := h.carried

theorem withPreserved (h : Inv s) {registry : Registry σ (Attested C) (Attested S)}
    (hpreserves : s.registry.Preserves registry) : Inv { s with registry } := by
  obtain ⟨hsound, hrosters⟩ := hpreserves h.registry
  exact h.withRegistry hsound ⟨[], by rw [List.append_nil, hrosters]⟩

theorem create (h : Inv s) (c : Configuration) : Inv (s.step env (.create c)) := by
  obtain ⟨hsound, hextends, hbacks⟩ := Registry.lease_spec h.registry c
  simp only [State.step, Registry.context]
  rcases hlease : s.registry.lease c with ⟨fault | route, registry⟩
  · rw [hlease] at hsound hextends
    exact h.withRegistry hsound hextends
  · rw [hlease] at hsound hextends hbacks
    have hkept := h.withRegistry hsound hextends
    refine ⟨hsound, fun x hx => ?_, hkept.calls, hkept.carried⟩
    rcases List.mem_append.mp hx with hx | hx
    · exact hkept.handles x hx
    · obtain rfl := List.mem_singleton.mp hx
      exact hbacks route rfl

theorem proceed (h : Inv s) {j : Nat} {call : Call C S} (hcall : s.calls[j]? = some call) :
    Inv (s.proceed env j call) := by
  obtain ⟨⟨servers, hservers, hidentity⟩, hfaithful⟩ := h.calls call (List.mem_of_getElem? hcall)
  obtain ⟨t, ht, rfl⟩ := Registry.exists_team hservers
  obtain ⟨hpreserves, hserved⟩ :=
    Registry.preserves_step env h.registry ht call.request call.stage
  rcases hstep : call.stage.step (Registry.environment env.attested call.handle.route.team)
    (Registry.place call.handle.route.team) (Registry.ask env.attested call.request) s.registry
    with ⟨stage, registry⟩
  rw [hstep] at hpreserves hserved
  have hkept := h.withPreserved hpreserves
  simp only [State.proceed, hstep]
  refine ⟨hkept.registry, hkept.handles, fun x hx => ?_, fun e he => ?_⟩
  · rcases List.mem_or_eq_of_mem_set hx with hx | rfl
    · exact hkept.calls x hx
    · refine ⟨(hkept.calls call (List.mem_of_getElem? hcall)).1, fun current hcurrent => ?_⟩
      obtain ⟨d, hd, heq⟩ := hserved current hcurrent
      rw [← heq]
      exact hidentity d hd
  · rcases List.mem_append.mp he with he | he
    · exact h.carried e he
    · obtain ⟨c, hc, rfl⟩ := List.mem_map.mp he
      exact hfaithful c (Option.mem_toList.mp hc)

theorem step (h : Inv s) (act : Act σ) : Inv (s.step env act) := by
  cases act with
  | create c => exact h.create c
  | find i =>
    simp only [State.step]
    split
    · exact h
    · next x hx =>
      refine { h with handles := fun y hy => ?_ }
      rcases List.mem_append.mp hy with hy | hy
      · exact h.handles y hy
      · obtain rfl := List.mem_singleton.mp hy
        exact h.handles x (List.mem_of_getElem? hx)
  | ask i request =>
    simp only [State.step]
    split
    · exact h
    · next x hx =>
      refine { h with calls := fun c hc => ?_ }
      rcases List.mem_append.mp hc with hc | hc
      · exact h.calls c hc
      · obtain rfl := List.mem_singleton.mp hc
        exact ⟨h.handles x (List.mem_of_getElem? hx), fun current hcurrent => nomatch hcurrent⟩
  | proceed j =>
    simp only [State.step]
    split
    · exact h
    · next call hcall => exact h.proceed hcall
  | close i =>
    simp only [State.step]
    split
    · exact h
    · next x _ => exact h.withPreserved (Registry.preserves_closeRoute x.route)
  | shutdown => exact h.withPreserved Registry.preserves_shutdown
  | turn team cursor => exact h.withPreserved (Registry.preserves_turn team cursor)
  | elapse change => exact h.withPreserved (Registry.keeps_world _).preserves

theorem run (h : Inv s) (env : Carrier σ C S) (acts : List (Act σ)) : Inv (s.run env acts) := by
  induction acts generalizing s with
  | nil => exact h
  | cons act acts ih => exact ih (h.step act)

end Inv

/-- No request of a context is carried over a connection that was authenticated under another
identity, nor, among the ways that come with the library, with the credentials of one that has
another identity. -/
theorem carried_under_own_identity (env : Carrier σ C S) (world : σ) (acts : List (Act σ))
    {c c' : Configuration} (hdiffer : c.authenticator.identity ≠ c'.authenticator.identity) :
    ∀ e ∈ ((State.start world).run env acts).carried, e.configuration = c →
      e.authenticator.identity ≠ c'.authenticator.identity ∧
        (e.authenticator.BuiltIn → c'.authenticator.BuiltIn →
          e.authenticator.credentials ≠ c'.authenticator.credentials) := by
  intro e he hc
  have hidentity := ((Inv.start world).run env acts).carried e he
  rw [hc] at hidentity
  have hother : e.authenticator.identity ≠ c'.authenticator.identity := by
    rw [hidentity]
    exact hdiffer
  refine ⟨hother, fun hbuiltIn hbuiltIn' hcredentials => ?_⟩
  have hsame : e.authenticator = c'.authenticator := hbuiltIn.eq_of_credentials hbuiltIn' hcredentials
  exact hother (congrArg Authenticator.identity hsame)

/-- A world in which every server is reached and lets everybody in. -/
def obliging : Carrier Unit Unit Unit where
  connect _ w := (.ok (), w)
  isClosed _ _ := false
  close _ w := w
  openStore _ _ _ w := (.ok (), w)
  serve _ _ w := (.ok .void, w)
  closeStore _ w := w

/-- A context is made for a configuration, then context `i` looks up the root. -/
def visit (c : Configuration) (i : Nat) : List (Act Unit) :=
  [.create c, .ask i (.lookup Name.root), .proceed i, .proceed i, .proceed i]

/-- Two users of one server, whose requests are both carried. -/
theorem carried_under_own_identity_two_users :
    let c : Configuration :=
      { destinations := [⟨"remote", "a", 1⟩], authenticator := .password "u" "1" "" }
    let c' : Configuration := { c with authenticator := .password "v" "1" "" }
    let carried := ((State.start ()).run obliging (visit c 0 ++ visit c' 1)).carried
    c.authenticator.identity ≠ c'.authenticator.identity ∧
      carried.map (·.configuration) = [c, c'] ∧
      ∀ e ∈ carried, e.configuration = c →
        e.authenticator.identity ≠ c'.authenticator.identity ∧
          (e.authenticator.BuiltIn → c'.authenticator.BuiltIn →
            e.authenticator.credentials ≠ c'.authenticator.credentials) := by
  intro c c' carried
  have hdiffer : c.authenticator.identity ≠ c'.authenticator.identity := by decide +kernel
  exact ⟨hdiffer, by decide +kernel, carried_under_own_identity obliging () _ hdiffer⟩

/-- An identity does not tell secrets apart: a request is carried over a connection that was
authenticated with a secret which is not that of its configuration. -/
theorem carried_over_other_secret :
    let c : Configuration :=
      { destinations := [⟨"remote", "a", 1⟩], authenticator := .password "u" "1" "" }
    let c' : Configuration := { c with authenticator := .password "u" "2" "" }
    c.authenticator.credentials ≠ c'.authenticator.credentials ∧
      ∃ e ∈ ((State.start ()).run obliging (visit c 0 ++ visit c' 1)).carried,
        e.configuration = c' ∧ e.authenticator.credentials = c.authenticator.credentials := by
  decide +kernel

end Sharing

end NameDirectory
