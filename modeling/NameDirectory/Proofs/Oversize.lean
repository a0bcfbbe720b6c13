import NameDirectory.Network
import NameDirectory.Proofs.Courses
import NameDirectory.Proofs.Delivery

/-!
# Requests that are too large to be sent

A request whose frame does not fit into a packet is refused before a byte of it is written.  The
refusal is a failure on the way like any other, so a group of servers moves on because of it.

* `Connection.large_of_send`, `Network.large_of_request`: what is refused for its size is too
  large, and the connection is as before; `Network.request_of_large`: no store sends it;
* `Switchboard.ask`: how the store of a session is asked; `Network.serve_eq_ask`: the stores of a
  network are asked so;
* `refused_moves_on`: what comes of an operation that is refused for its size;
* `refusal_closes_session`: it costs the session in use.
-/

namespace NameDirectory

/-! ## Frames that are too large -/

namespace Request

variable {r : Request}

theorem length_encode (r : Request) (number : Int32) :
    (r.encode number).length = (r.encode 0).length := by
  simp [encode, Frame.writeHeader]

/-- The packet with the frame of the request is larger than a packet may be. -/
def Large (r : Request) : Prop := Wire.budget < 16 + (r.encode 0).length

theorem large_of_bytes (n : Name) {bytes : Bytes} (h : Wire.budget ≤ bytes.length) :
    (bind n (.bytes bytes)).Large := by
  simp only [Large, encode, writeArguments, Frame.writeObject, Frame.writeValue, Wire.Value.encode,
    Object.encode, Wire.encodeByteString, List.length_append, List.length_cons]
  omega

/-- How the packet writer refuses it. -/
def tooLarge (r : Request) : TransportFault :=
  .violation (.packetTooLarge (16 + (r.encode 0).length))

end Request

/-- Nothing but its size keeps a request from being sent. -/
structure Proxy.Open (p : Proxy) (c : Connection) : Prop where
  proxy : p.closed = false
  present : p.lost = false
  channel : p.channel.Open c

section

variable {r : Request} {p p' : Proxy} {v : Reservation} {c c' : Connection} {packet : Packet}
  {size : Nat}

/-- Only a packet that is too large is refused for its size, and then nothing is written. -/
theorem Connection.large_of_send
    (h : c.send packet = (.error (.violation (.packetTooLarge size)), c')) :
    Wire.budget < packet.encode.length ∧ size = packet.encode.length ∧ c' = c := by
  unfold send at h
  split at h
  · cases h
  · split at h
    · next hwritten =>
      cases h
      unfold Packet.written at hwritten
      dsimp only at hwritten
      split at hwritten
      · next hlarge =>
        cases hwritten
        exact ⟨hlarge, rfl, rfl⟩
      · cases hwritten
    · cases h
    · cases h

theorem Connection.send_of_large (c : Connection) (hlarge : Wire.budget < packet.encode.length) :
    ∃ fault, c.send packet = (.error fault, c) := by
  unfold send
  split
  · exact ⟨_, rfl⟩
  · simp only [Packet.written, if_pos hlarge]
    exact ⟨_, rfl⟩

theorem Request.length_encode_message (r : Request) (id : UInt32) (number : Int32) :
    (Packet.message id (r.encode number)).encode.length = 16 + (r.encode 0).length := by
  rw [Packet.length_encode_message, r.length_encode]

theorem Request.Large.budget_lt (h : r.Large) (id : UInt32) (number : Int32) :
    Wire.budget < (Packet.message id (r.encode number)).encode.length := by
  rwa [r.length_encode_message]

theorem Proxy.large_of_send
    (h : p.send v r c = (.error (.violation (.packetTooLarge size)), c')) :
    r.Large ∧ .violation (.packetTooLarge size) = r.tooLarge ∧ c' = c := by
  unfold send transmit Channel.send at h
  split at h
  · cases h
  · split at h
    · cases h
    · obtain ⟨hlarge, rfl, rfl⟩ := Connection.large_of_send h
      rw [r.length_encode_message] at hlarge ⊢
      exact ⟨hlarge, rfl, rfl⟩

theorem Proxy.send_of_large (h : r.Large) (p : Proxy) (v : Reservation) (c : Connection) :
    ∃ fault, p.send v r c = (.error fault, c) ∧ (p.Open c → fault = r.tooLarge) := by
  by_cases hopen : p.Open c
  · have hlarge : Wire.budget < 16 + (r.encode v.number).length := by
      rw [r.length_encode]
      exact h
    have hsend := Channel.send_of_large hopen.channel hlarge
    rw [r.length_encode] at hsend
    refine ⟨_, ?_, fun _ => rfl⟩
    rw [send, hopen.present, if_neg (by decide)]
    exact hsend
  · unfold send transmit Channel.send
    split
    · exact ⟨_, rfl, fun hopen' => absurd hopen' hopen⟩
    · split
      · exact ⟨_, rfl, fun hopen' => absurd hopen' hopen⟩
      · obtain ⟨fault, hsend⟩ := c.send_of_large (h.budget_lt p.channel.id v.number)
        exact ⟨fault, hsend, fun hopen' => absurd hopen' hopen⟩

namespace Network

theorem large_of_request
    (h : request r p c = (.error (.transport (.violation (.packetTooLarge size))), p', c')) :
    r.Large ∧ .violation (.packetTooLarge size) = r.tooLarge ∧ c' = c := by
  unfold request at h
  split at h
  · next hreserve =>
    cases h
    unfold Proxy.reserve at hreserve
    split at hreserve <;> cases hreserve
  · split at h
    · cases h
    · next hsend =>
      cases h
      exact Proxy.large_of_send hsend

theorem request_of_large (h : r.Large) (p : Proxy) (c : Connection) :
    ∃ fault p', request r p c = (.error fault, p', c) ∧
      (p.Open c → fault = .transport r.tooLarge) := by
  cases hclosed : p.closed with
  | true =>
    have hreserve : p.reserve r = (.error .closed, p) := if_pos hclosed
    refine ⟨.closed, p, by rw [request, hreserve], fun hopen => ?_⟩
    rw [hopen.proxy] at hclosed
    cases hclosed
  | false =>
    let q : Proxy := { p with table := (p.table.reserve r.captured?).2 }
    have hreserve : p.reserve r = (.ok (p.table.reserve r.captured?).1, q) :=
      if_neg (by rw [hclosed]; decide)
    obtain ⟨fault, hsend, hfault⟩ := Proxy.send_of_large h q (p.table.reserve r.captured?).1 c
    refine ⟨.transport fault, _, by simp only [request, hreserve, hsend]; rfl, fun hopen => ?_⟩
    rw [hfault ⟨hopen.proxy, hopen.present, hopen.channel⟩]

end Network

end

/-! ## Stores on their connections -/

namespace Failover

variable {σ S : Type}

/-- Where the stores of sessions are: each is a proxy, at one end of a connection. -/
structure Switchboard (σ S : Type) where
  at? : S → σ → Option (Proxy × Connection)
  /-- Leave a store as it is after a step, with what follows from it elsewhere. -/
  put : S → Proxy × Connection → σ → σ
  /-- What comes of a request that was sent. -/
  await : S → Operation → Reservation → σ → Outcome × σ

/-- Send a request from the store of a session, and wait for what comes of it. -/
def Switchboard.ask (b : Switchboard σ S) (r : Request) (s : S) (w : σ) : Outcome × σ :=
  match b.at? s w with
  | none => (.error .closed, w)
  | some (p, c) =>
    match Network.request r p c with
    | (.error fault, p, c) => (.error fault, b.put s (p, c) w)
    | (.ok v, p, c) => b.await s r.operation v (b.put s (p, c) w)

end Failover

namespace Network

def switchboard : Failover.Switchboard Network Nat where
  at? s w := w.stores[s]?.bind fun (i, p) => w.links[i]?.map fun k => (p, k.client)
  put s x w :=
    match w.stores[s]? with
    | none => w
    | some (i, _) => ({ w with stores := w.stores.set s (i, x.1) }.setClient i x.2).exchange i
  await s op v w :=
    w.actOn s (fun p c => let (o, p) := conclude op v p; (o, p, c)) (.error .closed)

theorem serve_eq_ask (s : Nat) (r : Request) (w : Network) :
    serve s r w = switchboard.ask r s w := by
  unfold serve Failover.Switchboard.ask
  rw [actOn]
  simp only [switchboard]
  cases hstore : w.stores[s]? with
  | none => simp
  | some store =>
    obtain ⟨i, p⟩ := store
    cases hlink : w.links[i]? with
    | none => simp [hlink]
    | some k =>
      rcases hrequest : request r p k.client with ⟨fault | v, p', c'⟩ <;>
        simp [hlink, hrequest]

end Network

/-! ## Requests that are not sent -/

namespace Failover

variable {σ S : Type} {env : Environment σ S} {p : Place σ S} {b : Switchboard σ S} {r : Request}
  {s : S} {w w' : σ}

/-- The request is not sent from the store of a session: nothing is written to its connection, and
this fault is the answer. -/
inductive Switchboard.NotSent (b : Switchboard σ S) (r : Request) (s : S) (w : σ) :
    ClientFault → σ → Prop
  | absent (hat : b.at? s w = none) : NotSent b r s w .closed w
  | refused {fault : ClientFault} {q q' : Proxy} {c : Connection} (hat : b.at? s w = some (q, c))
      (hrequest : Network.request r q c = (.error fault, q', c)) :
      NotSent b r s w fault (b.put s (q', c) w)

theorem Switchboard.NotSent.ask {fault : ClientFault} (h : b.NotSent r s w fault w') :
    b.ask r s w = (.error fault, w') := by
  cases h with
  | absent hat => simp only [Switchboard.ask, hat]
  | refused hat hrequest => simp only [Switchboard.ask, hat, hrequest]

/-- A store with nothing but the size of a request in its way. -/
def Switchboard.Ready (b : Switchboard σ S) (s : S) (w : σ) : Prop :=
  ∃ q c, b.at? s w = some (q, c) ∧ q.Open c

theorem Switchboard.notSent_of_large (h : r.Large) (b : Switchboard σ S) (s : S) (w : σ) :
    ∃ fault w', b.NotSent r s w fault w' ∧ (b.Ready s w → fault = .transport r.tooLarge) := by
  cases hat : b.at? s w with
  | none =>
    refine ⟨_, _, .absent hat, ?_⟩
    rintro ⟨q, c, hsome, -⟩
    rw [hat] at hsome
    cases hsome
  | some x =>
    obtain ⟨fault, q', hrequest, hfault⟩ := Network.request_of_large h x.1 x.2
    refine ⟨fault, _, .refused hat hrequest, ?_⟩
    rintro ⟨q, c, hsome, hopen⟩
    rw [hat] at hsome
    cases hsome
    exact hfault hopen

/-- Nobody takes a turn at the group while a request is sent or waited for. -/
structure Switchboard.Apart (b : Switchboard σ S) (p : Place σ S) : Prop where
  put : ∀ s x w, p.get (b.put s x w) = p.get w
  await : ∀ s op v w, p.get (b.await s op v w).2 = p.get w

theorem Switchboard.Apart.ask (h : b.Apart p) (r : Request) : p.Apart (b.ask r) := by
  intro s w
  unfold Switchboard.ask
  split
  · rfl
  · split
    · exact h.put _ _ _
    · rw [h.await, h.put]

/-- A group is kept at a place like at a variable. -/
structure Place.Lawful (p : Place σ S) : Prop where
  get_set : ∀ g w, p.get (p.set g w) = g
  set_get : ∀ w, p.set (p.get w) w = w

/-- The session `c` in use was closed, and the servers were asked for another one. -/
structure Place.Replaced (p : Place σ S) (env : Environment σ S) (c : Current S) (w : σ)
    (events : List (Event S)) (handed : Except ClientFault (Current S)) (w' : σ) : Prop where
  happens : ∃ w₁, Happens env (.closeSession c.session :: events) w w₁ ∧ w' = p.set (p.get w') w₁
  scanned : Scanned (p.get w) events handed (p.get w')

theorem Place.Lawful.exists_replaced (hp : p.Lawful) (env : Environment σ S)
    (hg : (p.get w).InRange) (hopen : (p.get w).closed = false) {c : Current S}
    (hc : (p.get w).current = some c) :
    ∃ events handed w', p.locked (Group.replace env (some c.epoch)) w = (handed, w') ∧
      p.Replaced env c w events handed w' := by
  obtain ⟨events, handed, g', w₁, hreplace, hhappens, hscanned⟩ :=
    replace_current_happens env hg.cursor hopen hc w
  refine ⟨events, handed, p.set g' w₁, ?_, ⟨w₁, hhappens, ?_⟩, ?_⟩
  · simp only [Place.locked, hreplace]
  · rw [hp.get_set]
  · rwa [hp.get_set]

/-- The session that a scan finds is at a server of the group, and in use. -/
theorem Scanned.found_current {g g' : Group S} {events : List (Event S)} {c : Current S}
    (h : Scanned g events (.ok c) g') :
    g'.current = some c ∧ g'.servers = g.servers ∧ c.index < g.servers.length := by
  cases h with
  | found faults _ hlt hindex =>
    refine ⟨rfl, rfl, ?_⟩
    rw [hindex]
    exact Nat.mod_lt _ (by omega)

theorem Scanned.exhausted_current {g g' : Group S} {events : List (Event S)} {fault : ClientFault}
    (h : Scanned g events (.error fault) g') : g'.current = none := by
  cases h
  rfl

theorem run_of_lost (env : Environment σ S) (hp : p.Lawful) {apply : S → σ → Outcome × σ}
    {c : Current S} {fault : TransportFault} {w₁ : σ} (hopen : (p.get w).closed = false)
    (hc : (p.get w).current = some c)
    (happly : apply c.session w = (.error (.transport fault), w₁)) :
    run env p apply w = run.go env p apply 2 (.replacing c.epoch) w₁ := by
  have hobtain : p.locked (Group.obtain env) w = (.ok c, w) := by
    simp only [Place.locked, Group.obtain, hc, hp.set_get]
  unfold run
  simp only [go_succ, Stage.step, hopen, hobtain, Stage.ofObtained, happly, Stage.afterFirst,
    callsForAnother, ClientFault.isTransport, Bool.false_eq_true, if_false, if_true]

theorem exists_reported_fault {servers : List String} {c : Current S}
    (hindex : c.index < servers.length) (fault : ClientFault) :
    ∃ result, Stage.afterSecond servers c (.error fault : Outcome) = .finished (.error result) ∧
      Reported servers c (.error fault : Outcome) (.error result) := by
  obtain ⟨reported, hafter, hreported⟩ := exists_reported hindex (.error fault : Outcome)
  cases hreported with
  | lost hserver => exact ⟨_, hafter, .lost hserver⟩
  | verbatim h => exact ⟨_, hafter, .verbatim h⟩

/-! ## Two servers -/

/-- A group whose servers all accept.  Each session is a store with a connection to itself; the
servers that were reached and the sessions that were closed are written down. -/
structure Bench where
  group : Group Nat
  stores : List (Proxy × Connection) := []
  reached : List Nat := []
  closings : List Nat := []

namespace Bench

/-- A store that was just opened. -/
def fresh : Proxy × Connection :=
  ({ channel := ⟨1, "naming", 0, false⟩, patience := .ofSeconds 30 },
    { lines := [(1, .ready 0)], inboxes := [{}] })

def environment : Environment Bench Nat where
  connect index w :=
    (.ok w.stores.length, { w with stores := w.stores ++ [fresh], reached := w.reached ++ [index] })
  connected _ _ w := w
  closeSession s w :=
    { w with stores := w.stores.modify s fun (q, c) => q.close c, closings := w.closings ++ [s] }
  closeConnector w := w

def place : Place Bench Nat := ⟨Bench.group, fun group w => { w with group }⟩

def switchboard : Switchboard Bench Nat where
  at? s w := w.stores[s]?
  put s x w := { w with stores := w.stores.set s x }
  await s op v w :=
    match w.stores[s]? with
    | none => (.error .closed, w)
    | some (q, c) =>
      let (o, q) := Network.conclude op v q
      (o, { w with stores := w.stores.set s (q, c) })

theorem lawful : place.Lawful := ⟨fun _ _ => rfl, fun _ => rfl⟩

theorem apart : switchboard.Apart place := by
  refine ⟨fun _ _ _ => rfl, fun s op v w => ?_⟩
  simp only [switchboard]
  split <;> rfl

/-- The first of two servers is in use. -/
def start : Bench where
  group := { servers := ["a", "b"], cursor := 1, epoch := 1, current := some ⟨0, 0, 1⟩ }
  stores := [fresh]
  reached := [0]

/-- What a request that is too large does to the group. -/
theorem run_of_large (h : r.Large) :
    (∃ q', Network.request r fresh.1 fresh.2 = (.error (.transport r.tooLarge), q', fresh.2)) ∧
    ∃ stores, run environment place (switchboard.ask r) start =
      (.error (.communication [attempt "b" r.tooLarge] (some r.tooLarge)),
        { group := { servers := ["a", "b"], cursor := 0, epoch := 2, current := some ⟨1, 1, 2⟩ }
          stores, reached := [0, 1], closings := [0] }) := by
  have hfresh : fresh.1.Open fresh.2 := ⟨rfl, rfl, rfl, rfl, rfl⟩
  obtain ⟨fault, q', hrequest, hfault⟩ := Network.request_of_large h fresh.1 fresh.2
  obtain rfl := hfault hfresh
  have hfirst : switchboard.NotSent r 0 start (.transport r.tooLarge) _ :=
    .refused (q := fresh.1) (c := fresh.2) rfl hrequest
  have hrun := run_of_lost environment lawful (c := ⟨0, 0, 1⟩) rfl rfl hfirst.ask
  let w₂ : Bench :=
    { group := { servers := ["a", "b"], cursor := 0, epoch := 2, current := some ⟨1, 1, 2⟩ }
      stores := [q'.close fresh.2, fresh], reached := [0, 1], closings := [0] }
  have hreplace : place.locked (Group.replace environment (some 1))
      (switchboard.put 0 (q', fresh.2) start) = (.ok ⟨1, 1, 2⟩, w₂) := by
    simp [Place.locked, Group.replace, place, switchboard, start, Group.install, scan, environment,
      w₂]
  have hsecond : switchboard.NotSent r 1 w₂ (.transport r.tooLarge) _ :=
    .refused (q := fresh.1) (c := fresh.2) rfl hrequest
  refine ⟨⟨q', hrequest⟩, [q'.close fresh.2, (q', fresh.2)], ?_⟩
  rw [hrun, go_succ, Stage.step, hreplace]
  simp only [Stage.ofObtained, go_succ, Stage.step, hsecond.ask]
  rfl

/-- A request to bind an object of as many bytes as a packet may have. -/
def large : Request := .bind ⟨["a"]⟩ (.bytes (List.replicate Wire.budget 0))

theorem large_large : large.Large := Request.large_of_bytes _ (by rw [List.length_replicate])

end Bench

open Bench

/-! ## Operations that cannot be sent -/

/-- On an open group that nobody else uses meanwhile, a request that the packet writer refuses for
its size is not sent, and counts as lost with its session: that is closed, the servers from the
cursor on are asked until one accepts, and the session found takes its place, with the next epoch.
The request is not sent from there either, which is what the operation fails with: as the failure of
that server alone if it was refused for its size again, as it is if nothing else is in its way.  If
no server accepts, the operation fails with the fault of the scan and no session is in use. -/
theorem refused_moves_on (env : Environment σ S) (hp : p.Lawful) (hb : b.Apart p)
    (hg : (p.get w).InRange) (hopen : (p.get w).closed = false) {c : Current S}
    (hc : (p.get w).current = some c)
    {q q' : Proxy} {conn conn' : Connection} {size : Nat} (hat : b.at? c.session w = some (q, conn))
    (hrefused : Network.request r q conn =
      (.error (.transport (.violation (.packetTooLarge size))), q', conn')) :
    ∃ w₁ events handed w₂,
      b.NotSent r c.session w (.transport (.violation (.packetTooLarge size))) w₁ ∧
      p.get w₁ = p.get w ∧ p.Replaced env c w₁ events handed w₂ ∧
      match handed with
      | .error fault => run env p (b.ask r) w = (.error fault, w₂) ∧ (p.get w₂).current = none
      | .ok c' => ∃ fault result w₃, b.NotSent r c'.session w₂ fault w₃ ∧
          Reported (p.get w).servers c' (.error fault : Outcome) (.error result) ∧
          run env p (b.ask r) w = (.error result, w₃) ∧ (p.get w₃).current = some c' ∧
          (b.Ready c'.session w₂ → fault = .transport (.violation (.packetTooLarge size))) := by
  obtain ⟨hlarge, hsize, rfl⟩ := Network.large_of_request hrefused
  have hfirst := Switchboard.NotSent.refused hat hrefused
  have hgroup : p.get (b.put c.session (q', conn') w) = p.get w := hb.put _ _ _
  generalize b.put c.session (q', conn') w = w₁ at hfirst hgroup
  have hrun := run_of_lost env hp hopen hc hfirst.ask
  obtain ⟨events, handed, w₂, hlocked, hreplaced⟩ :=
    hp.exists_replaced env (w := w₁) (by rwa [hgroup]) (by rwa [hgroup]) (by rwa [hgroup])
  refine ⟨w₁, events, handed, w₂, hfirst, hgroup, hreplaced, ?_⟩
  rw [hrun, go_succ, Stage.step, hlocked]
  cases handed with
  | error fault =>
    refine ⟨?_, hreplaced.scanned.exhausted_current⟩
    simp only [Stage.ofObtained, go_finished]
  | ok c' =>
    obtain ⟨hcurrent, hservers, hindex⟩ := hreplaced.scanned.found_current
    rw [hgroup] at hservers hindex
    obtain ⟨fault, w₃, hsecond, hready⟩ := b.notSent_of_large hlarge c'.session w₂
    have hkept : p.get w₃ = p.get w₂ := (hb.ask r).applied hsecond.ask
    obtain ⟨result, hafter, hreported⟩ := exists_reported_fault hindex fault
    refine ⟨fault, result, w₃, hsecond, hreported, ?_, by rw [hkept, hcurrent], ?_⟩
    · simp only [Stage.ofObtained, go_succ, Stage.step, hsecond.ask, hkept, hservers, hafter,
        go_finished]
    · rw [hsize]
      exact hready

/-- The object as large as a packet, at the two servers. -/
theorem refused_moves_on_large :
    place.Lawful ∧ switchboard.Apart place ∧ (place.get start).InRange ∧
    (place.get start).closed = false ∧ (place.get start).current = some ⟨0, 0, 1⟩ ∧
    switchboard.at? 0 start = some fresh ∧
    ∃ size q', Network.request large fresh.1 fresh.2 =
        (.error (.transport (.violation (.packetTooLarge size))), q', fresh.2) ∧
      ∃ w₁ events handed w₂,
        switchboard.NotSent large 0 start (.transport (.violation (.packetTooLarge size))) w₁ ∧
        place.Replaced environment ⟨0, 0, 1⟩ w₁ events handed w₂ := by
  have hrange : (place.get start).InRange := by
    refine ⟨by decide, ?_⟩
    rintro _ ⟨⟩
    decide
  obtain ⟨⟨q', hrequest⟩, -⟩ := run_of_large large_large
  rw [Request.tooLarge] at hrequest
  have hat : switchboard.at? 0 start = some (fresh.1, fresh.2) := rfl
  obtain ⟨w₁, events, handed, w₂, hsent, -, hreplaced, -⟩ :=
    refused_moves_on environment lawful apart hrange rfl (c := ⟨0, 0, 1⟩) rfl hat hrequest
  exact ⟨lawful, apart, hrange, rfl, rfl, rfl, _, q', hrequest, w₁, events, handed, w₂, hsent,
    hreplaced⟩

/-- A request that cannot be sent closes the session on the first server, and the second is reached
and stays in use, though nothing was wrong with either of them. -/
theorem refusal_closes_session :
    let ended := run environment place (switchboard.ask large) start
    (∃ q', Network.request large fresh.1 fresh.2 =
      (.error (.transport large.tooLarge), q', fresh.2)) ∧
    ended.1 = .error (.communication [attempt "b" large.tooLarge] (some large.tooLarge)) ∧
    ended.2.closings = [0] ∧ ended.2.reached = [0, 1] ∧
    start.group.cursor = 1 ∧ ended.2.group.cursor = 0 ∧
    start.group.current = some ⟨0, 0, 1⟩ ∧ ended.2.group.current = some ⟨1, 1, 2⟩ := by
  intro ended
  obtain ⟨hrequest, stores, hrun⟩ := run_of_large large_large
  have hended : ended = _ := hrun
  rw [hended]
  exact ⟨hrequest, rfl, rfl, rfl, rfl, rfl, rfl, rfl⟩

end Failover

end NameDirectory
