import NameDirectory.Proofs.Admission

/-!
# What closing a listener ends

Closing sees to it that nobody is accepted any more, then takes the peers that are registered at
that moment and ends them one by one, while everybody else goes on.  A peer that was accepted but
is not registered yet is not among them.

* `Listener.endRegistered_eq_run`: to end the registered peers at once is to end each of them;
* `Peer.Ended`, `Listener.ended_run`: nothing brings a peer back that was ended;
* `Listener.closing_ends_registered`: after closing, a peer that was not ended was still on its way
  to being registered when closing took the registered ones;
* `Listener.closing_misses_accepted`: such a peer can be let in, open a channel and change the
  directory after closing.
-/

namespace NameDirectory

/-! ## Connections that were shut down -/

namespace Connection

/-- The connection is closed, and no channel is left on it. -/
structure Shut (c : Connection) : Prop where
  closed : c.closed = true
  noLine : c.lines = []

variable {c : Connection}

theorem shut_shutdown (c : Connection) : c.shutdown.Shut := ⟨rfl, rfl⟩

namespace Shut

theorem send_eq (h : c.Shut) (p : Packet) : c.send p = (.error .connectionClosed, c) := by
  unfold send
  rw [if_pos h.closed]

theorem remove (h : c.Shut) (id : UInt32) : (c.remove id).Shut where
  closed := h.closed
  noLine := by simp only [Connection.remove, h.noLine, List.filter_nil]

theorem modifyInbox (h : c.Shut) (i : Nat) (f : Inbox → Inbox) : (c.modifyInbox i f).Shut :=
  ⟨h.closed, h.noLine⟩

end Shut

end Connection

namespace Channel

variable {ch : Channel} {c : Connection}

theorem shut_send (h : c.Shut) (payload : Bytes) : (ch.send payload c).2.Shut := by
  unfold send
  split
  · exact h
  · rw [h.send_eq]
    exact h

theorem shut_take (h : c.Shut) : (ch.take c).2.Shut := by
  unfold take
  split
  · exact h.modifyInbox _ _
  · exact h

theorem shut_close (h : c.Shut) : (ch.close c).2.Shut := by
  have hremove := h.remove ch.id
  unfold close
  split
  · exact h
  · simpa only [if_pos hremove.closed] using hremove

theorem shut_drop (h : c.Shut) : (ch.drop c).Shut := (shut_close h).modifyInbox _ _

end Channel

namespace Handler

variable {h : Handler} {t : Tree} {c : Connection}

theorem shut_work (hc : c.Shut) (s : Service) (ch : Channel) (message : Bytes) :
    (s.work ch message t c).2.Shut := by
  cases s with
  | naming =>
    simp only [Service.work]
    split
    · exact Channel.shut_send hc _
    · exact hc
  | silent => exact hc
  | echo => exact Channel.shut_send hc _

theorem shut_next (hc : c.Shut) : (h.next c).2.Shut := by
  have htake : (h.channel.take c).2.Shut := Channel.shut_take hc
  unfold next
  generalize h.channel.take c = taken at htake
  obtain ⟨_ | _ | m, c'⟩ := taken
  all_goals
    split
    · exact hc
    · exact htake
    · exact htake

theorem shut_run (hc : c.Shut) (fuel : Nat) : (run fuel h t c).2.2.Shut := by
  induction fuel generalizing h t c with
  | zero => exact hc
  | succ fuel ih =>
    have hnext := shut_next (h := h) hc
    unfold run
    generalize h.next c = next at hnext
    obtain ⟨_ | _ | m | _, c'⟩ := next
    · exact hnext
    · exact ih hnext
    · exact ih (shut_work hnext _ _ _)
    · exact Channel.shut_drop hnext

end Handler

/-! ## Peers that were ended -/

namespace Peer

/-- A peer that was ended: its connection is closed, and no channel is left on it. -/
structure Ended (p : Peer) : Prop where
  gone : p.standing = .gone
  shut : p.connection.Shut

variable {p : Peer}

theorem ended_leave (p : Peer) : p.leave.Ended := ⟨rfl, p.connection.shut_shutdown⟩

namespace Ended

theorem arrive_eq (h : p.Ended) (g : Gatekeeper) (services : List (String × Service))
    (packet : Packet) : p.arrive g services packet = p := by
  unfold arrive
  rw [h.gone]

theorem catchUp (h : p.Ended) (t : Tree) : (p.catchUp t).2.Ended := by
  refine ⟨h.gone, ?_⟩
  have hshut := h.shut
  simp only [Peer.catchUp]
  -- the handlers work one after the other, each on the connection as the one before left it
  suffices h : ∀ (handlers done : List Handler) (t : Tree) (c : Connection), c.Shut →
      (handlers.foldl (fun x h =>
        ((h.catchUp x.1 x.2.1).2.1, (h.catchUp x.1 x.2.1).2.2,
          x.2.2 ++ [(h.catchUp x.1 x.2.1).1])) (t, c, done)).2.1.Shut from
    h p.handlers [] t p.connection hshut
  intro handlers
  induction handlers with
  | nil => exact fun _ _ _ hc => hc
  | cons handler handlers ih => exact fun _ _ _ hc => ih _ _ _ (Handler.shut_run hc _)

end Ended

/-- A peer that is gone after a packet was ended by it, or before. -/
theorem ended_arrive (hp : p.standing = .gone → p.Ended) (g : Gatekeeper)
    (services : List (String × Service)) (packet : Packet) :
    (p.arrive g services packet).standing = .gone → (p.arrive g services packet).Ended := by
  unfold arrive
  split
  · next hstanding =>
    unfold greet
    split
    · split
      · split
        · exact fun hgone => nomatch hgone
        · exact fun _ => ended_leave _
      · exact fun _ => ended_leave _
    · exact fun _ => ended_leave _
  · next hstanding =>
    have hstays : ∀ q : Peer, q.standing = p.standing → q.standing = .gone → q.Ended := by
      intro q hq hgone
      rw [hq, hstanding] at hgone
      cases hgone
    unfold read
    split
    · unfold openChannel
      split
      · split
        · exact hstays _ rfl
        · exact fun _ => ended_leave _
      · dsimp only
        split
        · exact fun _ => ended_leave _
        · exact hstays _ rfl
    · split
      · exact hstays _ rfl
      · exact fun _ => ended_leave _
  · exact hp
  · exact hp

end Peer

/-! ## Runs -/

namespace Listener

variable {l : Listener} {i : Nat} {p : Peer}

theorem run_append (l : Listener) (before after : List Event) :
    l.run (before ++ after) = (l.run before).run after := List.foldl_append

theorem getElem?_modifyPeer (l : Listener) (i j : Nat) (f : Peer → Peer) :
    (l.modifyPeer j f).peers[i]? = l.peers[i]?.map fun p => if j = i then f p else p := by
  simp only [modifyPeer, List.getElem?_modify]
  by_cases hj : j = i
  · simp [hj]
  · simp [hj]

/-- What a step makes of a peer that is there already. -/
theorem getElem?_step (h : l.peers[i]? = some p) (e : Event) :
    (l.step e).peers[i]? = some
      (match e with
      | .packet j packet => if j = i then p.arrive l.gatekeeper l.services packet else p
      | .broken j => if j = i then p.leave else p
      | .register j =>
        if j = i ∧ p.standing = .admitted then { p with standing := .registered } else p
      | .work j => if j = i then (p.catchUp l.tree).2 else p
      | .endRegistered => if p.standing = .registered then p.leave else p
      | .connect | .rejudge _ | .change _ | .beginClosing => p) := by
  have hi : i < l.peers.length := (List.getElem?_eq_some_iff.mp h).1
  cases e with
  | connect =>
    rw [step_connect]
    split
    · exact h
    · exact (List.getElem?_append_left hi).trans h
  | packet j packet => exact (getElem?_modifyPeer l i j _).trans (by rw [h]; rfl)
  | broken j => exact (getElem?_modifyPeer l i j _).trans (by rw [h]; rfl)
  | register j =>
    refine (getElem?_modifyPeer l i j _).trans ?_
    rw [h]
    by_cases hj : j = i
    · simp [hj]
    · simp [hj]
  | work j =>
    simp only [step, catchUp]
    by_cases hj : j = i
    · subst hj
      simp only [h, if_true]
      exact List.getElem?_set_self hi
    · rw [if_neg hj]
      split
      · exact h
      · exact (List.getElem?_set_ne hj).trans h
  | endRegistered => simp only [step, endRegistered, List.getElem?_map, h, Option.map_some]
  | rejudge | change | beginClosing => exact h

theorem length_le_step (l : Listener) (e : Event) : l.peers.length ≤ (l.step e).peers.length := by
  rcases Nat.eq_zero_or_pos l.peers.length with hzero | hpos
  · omega
  · have hlast : l.peers[l.peers.length - 1]? = some l.peers[l.peers.length - 1] :=
      List.getElem?_eq_getElem (by omega)
    have hlt := (List.getElem?_eq_some_iff.mp (getElem?_step hlast e)).1
    omega

theorem length_le_run (l : Listener) (events : List Event) :
    l.peers.length ≤ (l.run events).peers.length := by
  induction events generalizing l with
  | nil => exact Nat.le_refl _
  | cons e events ih => exact Nat.le_trans (length_le_step l e) (ih _)

/-- A listener that is closing stays so, and accepts nobody. -/
theorem closing_step (h : l.closing = true) (e : Event) :
    (l.step e).closing = true ∧ (l.step e).peers.length = l.peers.length := by
  cases e with
  | connect =>
    rw [step_connect, if_pos h]
    exact ⟨h, rfl⟩
  | work j =>
    simp only [step, catchUp]
    split
    · exact ⟨h, rfl⟩
    · exact ⟨h, List.length_set⟩
  | packet | broken | register => exact ⟨h, List.length_modify _ _ _⟩
  | endRegistered => exact ⟨h, List.length_map _⟩
  | rejudge | change => exact ⟨h, rfl⟩
  | beginClosing => exact ⟨rfl, rfl⟩

theorem closing_run (h : l.closing = true) (events : List Event) :
    (l.run events).closing = true ∧ (l.run events).peers.length = l.peers.length := by
  induction events generalizing l with
  | nil => exact ⟨h, rfl⟩
  | cons e events ih =>
    obtain ⟨hclosing, hlength⟩ := closing_step h e
    obtain ⟨hlast, hall⟩ := ih hclosing
    exact ⟨hlast, hall.trans hlength⟩

/-! ### Ended peers -/

/-- Whoever was ended stays ended. -/
theorem ended_step (h : l.peers[i]? = some p) (hp : p.Ended) (e : Event) :
    ∃ q, (l.step e).peers[i]? = some q ∧ q.Ended := by
  refine ⟨_, getElem?_step h e, ?_⟩
  have hstanding := hp.gone
  cases e with
  | packet j packet =>
    dsimp only
    rw [hp.arrive_eq, ite_self]
    exact hp
  | broken j =>
    dsimp only
    split
    · exact p.ended_leave
    · exact hp
  | work j =>
    dsimp only
    split
    · exact hp.catchUp _
    · exact hp
  | register | endRegistered => simpa [hstanding] using hp
  | connect | rejudge | change | beginClosing => exact hp

theorem ended_run (h : l.peers[i]? = some p) (hp : p.Ended) (events : List Event) :
    ∃ q, (l.run events).peers[i]? = some q ∧ q.Ended := by
  induction events generalizing l p with
  | nil => exact ⟨p, h, hp⟩
  | cons e events ih =>
    obtain ⟨q, hq, hended⟩ := ended_step h hp e
    exact ih hq hended

/-- Ending a peer is for good, whatever happens before and after. -/
theorem ended_of_broken (hi : i < l.peers.length) {events : List Event}
    (hbroken : Event.broken i ∈ events) : ∃ q, (l.run events).peers[i]? = some q ∧ q.Ended := by
  obtain ⟨before, after, rfl⟩ := List.append_of_mem hbroken
  have hlt : i < (l.run before).peers.length := 
    Nat.lt_of_lt_of_le hi (length_le_run l before)
  rw [run_append, run_cons]
  refine ended_run ?_ (Peer.ended_leave (l.run before).peers[i]) after
  have hstep := getElem?_step (List.getElem?_eq_getElem hlt) (.broken i)
  simpa using hstep

/-- What is so of a peer from its acceptance on, whatever happens to it. -/
structure Kept (P : Peer → Prop) : Prop where
  new : P {}
  arrive : ∀ p g services packet, P p → P (p.arrive g services packet)
  leave : ∀ p, P p → P p.leave
  register : ∀ p, P p → p.standing = .admitted → P { p with standing := .registered }
  work : ∀ p t, P p → P (p.catchUp t).2

namespace Kept

variable {P : Peer → Prop}

theorem step (hkept : Kept P) (h : ∀ p ∈ l.peers, P p) (e : Event) :
    ∀ p ∈ (l.step e).peers, P p := by
  intro q hq
  obtain ⟨i, hi⟩ := List.mem_iff_getElem?.mp hq
  cases hp : l.peers[i]? with
  | none =>
    -- the only peers that were not there before are those that are accepted now
    have hlength : l.peers.length ≤ i := List.getElem?_eq_none_iff.mp hp
    have hlt : i < (l.step e).peers.length := (List.getElem?_eq_some_iff.mp hi).1
    cases e with
    | connect =>
      rw [step_connect] at hi
      split at hi
      · rw [hp] at hi
        cases hi
      · obtain rfl := List.mem_singleton.mp
          (List.mem_of_getElem? ((List.getElem?_append_right hlength).symm.trans hi))
        exact hkept.new
    | work j =>
      simp only [Listener.step, catchUp] at hlt
      split at hlt
      · omega
      · rw [List.length_set] at hlt
        omega
    | packet | broken | register =>
      exact absurd (Nat.lt_of_lt_of_eq hlt (List.length_modify _ _ _)) (Nat.not_lt.mpr hlength)
    | endRegistered =>
      exact absurd (Nat.lt_of_lt_of_eq hlt (List.length_map _)) (Nat.not_lt.mpr hlength)
    | rejudge | change | beginClosing => exact absurd hlt (Nat.not_lt.mpr hlength)
  | some p =>
    have hp' := h p (List.mem_of_getElem? hp)
    obtain rfl := Option.some.inj ((getElem?_step hp e).symm.trans hi)
    cases e with
    | packet j packet =>
      dsimp only
      split
      · exact hkept.arrive p _ _ packet hp'
      · exact hp'
    | broken j =>
      dsimp only
      split
      · exact hkept.leave p hp'
      · exact hp'
    | register j =>
      dsimp only
      split
      · next hadmitted => exact hkept.register p hp' hadmitted.2
      · exact hp'
    | work j =>
      dsimp only
      split
      · exact hkept.work p _ hp'
      · exact hp'
    | endRegistered =>
      dsimp only
      split
      · exact hkept.leave p hp'
      · exact hp'
    | connect | rejudge | change | beginClosing => exact hp'

theorem run (hkept : Kept P) (h : ∀ p ∈ l.peers, P p) (events : List Event) :
    ∀ p ∈ (l.run events).peers, P p := by
  induction events generalizing l with
  | nil => exact h
  | cons e events ih => exact ih (hkept.step h e)

end Kept

/-- Whoever has gone was ended. -/
def GoneEnded (l : Listener) : Prop := ∀ p ∈ l.peers, p.standing = .gone → p.Ended

theorem GoneEnded.run (h : l.GoneEnded) (events : List Event) : (l.run events).GoneEnded := by
  refine Kept.run ?_ h events
  constructor
  case new => exact fun hgone => by cases hgone
  case arrive => exact fun p g services packet hp => Peer.ended_arrive hp g services packet
  case leave => exact fun p _ _ => p.ended_leave
  case register => exact fun p _ _ hgone => by cases hgone
  case work => exact fun p t hp hgone => (hp hgone).catchUp t

/-! ## Closing -/

/-- Peer `i` is among those that closing ends if it takes them now. -/
def Registers (l : Listener) (i : Nat) : Prop :=
  ∃ p, l.peers[i]? = some p ∧ p.standing = .registered

/-- What closing does to the peers that are registered now. -/
def endings (l : Listener) : List Event :=
  ((List.range l.peers.length).filter fun i =>
    l.peers[i]?.any (·.standing = .registered)).map .broken

theorem broken_mem_endings : Event.broken i ∈ l.endings ↔ l.Registers i := by
  simp only [endings, List.mem_map, List.mem_filter, List.mem_range, Event.broken.injEq,
    exists_eq_right, Option.any_eq_true, decide_eq_true_eq, Registers]
  constructor
  · exact fun h => h.2
  · rintro ⟨p, hp, hstanding⟩
    exact ⟨(List.getElem?_eq_some_iff.mp hp).1, p, hp, hstanding⟩

/-- Ending peers one by one ends just these, and changes nothing else. -/
theorem run_broken (l : Listener) (ns : List Nat) :
    l.run (ns.map .broken) =
      { l with peers := l.peers.mapIdx fun i p => if i ∈ ns then p.leave else p } := by
  induction ns generalizing l with
  | nil =>
    have hsame : l.peers.mapIdx (fun _ p => p) = l.peers := List.ext_getElem? (by simp)
    simp only [List.not_mem_nil, if_false, hsame]
    rfl
  | cons n ns ih =>
    rw [List.map_cons, run_cons, ih]
    have hpeers : (l.step (.broken n)).peers = l.peers.modify n Peer.leave := rfl
    simp only [hpeers]
    congr 1
    refine List.ext_getElem? fun i => ?_
    simp only [List.getElem?_mapIdx, List.getElem?_modify, List.mem_cons]
    cases l.peers[i]? with
    | none => rfl
    | some p =>
      by_cases hn : n = i
      · subst hn
        by_cases hmem : n ∈ ns
        · simp [hmem, Peer.leave, Connection.shutdown]
        · simp [hmem]
      · simp [hn, Ne.symm hn]

/-- To end the registered peers at once is to end one after the other. -/
theorem endRegistered_eq_run (l : Listener) : l.endRegistered = l.run l.endings := by
  unfold endings
  rw [run_broken, endRegistered]
  congr 1
  refine List.ext_getElem? fun i => ?_
  simp only [List.getElem?_map, List.getElem?_mapIdx]
  cases hp : l.peers[i]? with
  | none => rfl
  | some p =>
    have hi : i < l.peers.length := (List.getElem?_eq_some_iff.mp hp).1
    simp [hi, (List.getElem?_eq_some_iff.mp hp).2]

/-- After closing, nobody is accepted any more, and every peer that was registered when closing
took the registered ones is ended, so that nothing it sends has an effect; if a peer is not ended
it was accepted, but not registered, at that moment. Anything may happen before, between the steps
of closing, and afterwards. -/
theorem closing_ends_registered {start : Listener} (hnew : start.peers = [])
    (events before ending after : List Event) :
    let taken := (start.run events).run (.beginClosing :: before)
    (∀ i, taken.Registers i → .broken i ∈ ending) →
    let closed := (taken.run ending).run after
    closed.accept = none ∧ closed.peers.length = taken.peers.length ∧
    ∀ i p, closed.peers[i]? = some p →
      (p.Ended ∧ ∀ packet, closed.arrive i packet = closed) ∨
      ∃ q, taken.peers[i]? = some q ∧ (q.standing = .accepted ∨ q.standing = .admitted) := by
  intro taken hending closed
  have hclosing : taken.closing = true := (closing_run rfl before).1
  have hnobody : start.GoneEnded := by
    intro p hp
    rw [hnew] at hp
    cases hp
  have hgone : taken.GoneEnded := (hnobody.run events).run _
  obtain ⟨hstill, hlength⟩ := closing_run hclosing (ending ++ after)
  rw [run_append] at hstill hlength
  refine ⟨if_pos hstill, hlength, fun i p hp => ?_⟩
  have hi : i < taken.peers.length := hlength ▸ (List.getElem?_eq_some_iff.mp hp).1
  have hq : taken.peers[i]? = some taken.peers[i] := List.getElem?_eq_getElem hi
  -- whoever was ended by closing, or before, still is
  have hended : (∃ q, (taken.run ending).peers[i]? = some q ∧ q.Ended) →
      p.Ended ∧ ∀ packet, closed.arrive i packet = closed := by
    rintro ⟨q, hq, hended⟩
    obtain ⟨q', hq', hended'⟩ := ended_run hq hended after
    obtain rfl := Option.some.inj (hp.symm.trans hq')
    refine ⟨hended', fun packet => ?_⟩
    rw [arrive, modifyPeer_eq_setPeer hp, hended'.arrive_eq, setPeer_eq_self hp]
  cases hstanding : taken.peers[i].standing with
  | accepted => exact .inr ⟨_, hq, .inl hstanding⟩
  | admitted => exact .inr ⟨_, hq, .inr hstanding⟩
  | registered => exact .inl (hended (ended_of_broken hi (hending i ⟨_, hq, hstanding⟩)))
  | gone =>
    exact .inl (hended (ended_run hq (hgone _ (List.getElem_mem hi) hstanding) ending))

/-- Of two peers that were accepted one is registered; it is ended, then asks for a channel. -/
theorem closing_ends_registered_one_of_two :
    let start : Listener :=
      { gatekeeper := .everyone, services := [("naming", .naming)], tree := .empty }
    let events : List Event :=
      [.connect, .connect, .packet 0 (.authenticate ⟨"ANONYMOUS", "", "", ""⟩), .register 0]
    let taken := (start.run events).run [.beginClosing]
    let ask : Packet := .openChannel 1 "naming" []
    let closed := (taken.run taken.endings).run [.packet 0 ask]
    taken.peers.map (·.standing) = [.registered, .accepted] ∧ closed.accept = none ∧
      ∃ p, closed.peers[0]? = some p ∧ p.Ended ∧ closed.arrive 0 ask = closed := by
  intro start events taken ask closed
  have hstandings : taken.peers.map (·.standing) = [.registered, .accepted] := by decide +kernel
  obtain ⟨haccept, hlength, hpeers⟩ := closing_ends_registered (rfl : start.peers = []) events []
    taken.endings [.packet 0 ask] fun _ => broken_mem_endings.mpr
  have hzero : 0 < closed.peers.length := by
    have htwo := congrArg List.length hstandings
    rw [List.length_map] at htwo
    rw [hlength, htwo]
    decide
  refine ⟨hstandings, haccept, _, List.getElem?_eq_getElem hzero, ?_⟩
  rcases hpeers 0 _ (List.getElem?_eq_getElem hzero) with ⟨hended, harrive⟩ | ⟨q, hq, hq'⟩
  · exact ⟨hended, harrive ask⟩
  · have hfirst : q.standing = .registered := by
      have hq : taken.peers[0]? = some q := hq
      have hhead : (taken.peers.map (·.standing))[0]? = some .registered := by
        rw [hstandings]
        rfl
      rw [List.getElem?_map, hq] at hhead
      exact Option.some.inj hhead
    rw [hfirst] at hq'
    rcases hq' with hq' | hq' <;> cases hq'

/-- Closing returns while a peer that was accepted is still silent. Then the peer shows its
credentials, is registered, opens a channel and changes the directory. -/
theorem closing_misses_accepted :
    let start : Listener :=
      { gatekeeper := .everyone, services := [("naming", .naming)], tree := .empty }
    let closed := (start.run [.connect]).close
    let served := closed.run
      [.packet 0 (.authenticate ⟨"ANONYMOUS", "", "", ""⟩), .register 0,
        .packet 0 (.openChannel 1 "naming" []),
        .packet 0 (.message 1 (Greeting.encodeChoice Greeting.versionOne)),
        .packet 0 (.message 1 ((Request.createSubcontext ⟨["a"]⟩).encode 1)), .work 0]
    closed.closing = true ∧ served.peers.map (·.standing) = [.registered] ∧
      served.peers.map (·.connection.closed) = [false] ∧
      served.peers.map (·.connection.line? 1) = [some (.ready 0)] ∧
      closed.tree.map (·.1) = [] ∧ served.tree.map (·.1) = ["a"] := by
  decide +kernel

end Listener

end NameDirectory
