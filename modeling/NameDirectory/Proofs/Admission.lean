import Mathlib.Data.List.Basic
import NameDirectory.Listener

/-!
# Nothing before admission

A peer that does not begin with credentials its listener accepts reaches nothing: no channel and
no handler is made for it, all it can be told is why it is refused, and the listener is as if the
peer had never sent anything.

* `Listener.step` and `Listener.run`: whatever can happen at a listener, in any order;
* `Peer.Dismissed` is all that becomes of such a peer: `Peer.dismissed_of_arrive`;
* `Listener.step_setPeer`: what else happens does not depend on a peer that was not let in, so
  `Listener.run_eq_setPeer` compares a run with the one in which the peer stays silent;
* `Gatekeeper.judge_ofUsers`: whom a list of users lets in;
* `Listener.nothing_before_admission`: these put together.
-/

namespace NameDirectory

/-! ## Whom users' passwords let in -/

/-- The password that was given last for a user. -/
def lastPassword (users : List (String × String)) (principal : String) : Option String :=
  (users.reverse.find? (·.1 = principal)).map (·.2)

namespace Gatekeeper

/-- A list of users lets in who shows, as a password, the one that was given last for the user. -/
theorem judge_ofUsers (users : List (String × String)) (c : Credentials) (who : String) :
    (ofUsers users).judge c = .ok who ↔
      c.mechanism = "PLAIN" ∧ lastPassword users c.principal = some c.secret ∧
        who = c.principal := by
  unfold lastPassword
  rw [← Keyed.find?_ofPairs]
  simp only [ofUsers, Gatekeeper.users]
  split
  · next hmechanism =>
    constructor
    · intro h
      cases h
    · rintro ⟨h, -⟩
      exact absurd h hmechanism
  · next hmechanism =>
    split
    · next hsecret =>
      constructor
      · intro h
        exact ⟨Classical.not_not.mp hmechanism, hsecret, (Except.ok.inj h).symm⟩
      · rintro ⟨-, -, rfl⟩
        rfl
    · next hsecret =>
      constructor
      · intro h
        cases h
      · rintro ⟨-, h, -⟩
        exact absurd h hsecret

end Gatekeeper

/-! ## Peers that are not let in -/

namespace Peer

/-- A peer that was sent away: nothing was made for it, and it was told at most why. Handlers and
inboxes are only ever added to, so where there are none there were none. -/
structure Dismissed (p : Peer) : Prop where
  gone : p.standing = .gone
  closed : p.connection.closed = true
  noHandler : p.handlers = []
  noLine : p.connection.lines = []
  noInbox : p.connection.inboxes = []
  told : p.connection.sent = [] ∨ ∃ reason, p.connection.sent = [.rejected reason]

theorem dismissed_leave : ({} : Peer).leave.Dismissed where
  gone := rfl
  closed := rfl
  noHandler := rfl
  noLine := rfl
  noInbox := rfl
  told := .inl rfl

theorem dismissed_refused (reason : String) :
    ({ connection := ({} : Connection).post (.rejected reason) } : Peer).leave.Dismissed := by
  have hpost : ({} : Connection).post (.rejected reason) = {} ∨
      ({} : Connection).post (.rejected reason) = { sent := [.rejected reason] } := by
    unfold Connection.post Connection.send
    cases hwritten : (Packet.rejected reason).written with
    | error fault => exact .inl rfl
    | ok bytes => exact .inr rfl
  rcases hpost with h | h
  · rw [h]
    exact dismissed_leave
  · rw [h]
    exact ⟨rfl, rfl, rfl, rfl, rfl, .inr ⟨reason, rfl⟩⟩

/-- Whoever does not begin with credentials that are accepted is sent away. -/
theorem dismissed_of_arrive {g : Gatekeeper} (services : List (String × Service)) {packet : Packet}
    (h : ∀ c who, packet = .authenticate c → g.judge c ≠ .ok who) :
    (({} : Peer).arrive g services packet).Dismissed := by
  change (({} : Peer).greet g packet).Dismissed
  unfold greet
  split
  · next c =>
    split
    · next who hjudge => exact absurd hjudge (h c who rfl)
    · next reason _ => exact dismissed_refused reason
  · exact dismissed_leave

namespace Dismissed

variable {p : Peer}

theorem leave_eq (h : p.Dismissed) : p.leave = p := by
  obtain ⟨standing, connection, handlers⟩ := p
  obtain rfl : standing = .gone := h.gone
  have hclosed : connection.shutdown = connection := by
    obtain ⟨lines, inboxes, nextId, closed, sent, writeFault⟩ := connection
    obtain rfl : closed = true := h.closed
    obtain rfl : lines = [] := h.noLine
    rfl
  simp only [leave, hclosed]

theorem arrive_eq (h : p.Dismissed) (g : Gatekeeper) (services : List (String × Service))
    (packet : Packet) : p.arrive g services packet = p := by
  unfold arrive
  rw [h.gone]

end Dismissed

/-- A peer that was not let in: it was not heard yet, or it was sent away. -/
def Outside (p : Peer) : Prop := p = {} ∨ p.Dismissed

namespace Outside

variable {p : Peer}

theorem noHandler (h : p.Outside) : p.handlers = [] := by
  rcases h with rfl | h
  · rfl
  · exact h.noHandler

theorem not_admitted (h : p.Outside) : p.standing ≠ .admitted := by
  rcases h with rfl | h
  · decide
  · rw [h.gone]
    decide

theorem not_registered (h : p.Outside) : p.standing ≠ .registered := by
  rcases h with rfl | h
  · decide
  · rw [h.gone]
    decide

end Outside

end Peer

/-! ## What can happen -/

namespace Listener

/-- What happens at a listener; peers are known by their index. -/
inductive Event where
  | connect
  | packet (i : Nat) (p : Packet)
  /-- A stream ends, holds something that is no packet, or brings nothing for too long. -/
  | broken (i : Nat)
  /-- A peer that was let in is put among those that closing ends. -/
  | register (i : Nat)
  /-- The handlers of a peer work on what has arrived. -/
  | work (i : Nat)
  /-- Credentials are judged otherwise from now on. -/
  | rejudge (g : Gatekeeper)
  /-- Somebody else changes the directory. -/
  | change (f : Tree → Tree)
  | beginClosing
  | endRegistered

namespace Event

def isFrom (i : Nat) : Event → Bool
  | packet j _ | broken j => j = i
  | _ => false

end Event

def step (l : Listener) : Event → Listener
  | .connect =>
    match l.accept with
    | none => l
    | some (_, l) => l
  | .packet i p => l.arrive i p
  | .broken i => l.streamEnds i
  | .register i => l.register i
  | .work i => l.catchUp i
  | .rejudge g => { l with gatekeeper := g }
  | .change f => { l with tree := f l.tree }
  | .beginClosing => l.beginClosing
  | .endRegistered => l.endRegistered

def run (l : Listener) (events : List Event) : Listener := events.foldl step l

/-- The events without what a peer sent. -/
def unheard (i : Nat) (events : List Event) : List Event := events.filter fun e => !e.isFrom i

/-- The first that peer `i` sends are credentials `c`, after the events `before`. -/
def Shows (i : Nat) (events before : List Event) (c : Credentials) : Prop :=
  ∃ after, events = before ++ .packet i (.authenticate c) :: after ∧
    ∀ e ∈ before, e.isFrom i = false

/-- The first that peer `i` sends are credentials that are accepted when they arrive. -/
def LetsIn (l : Listener) (i : Nat) (events : List Event) : Prop :=
  ∃ before c who, Shows i events before c ∧ (l.run before).gatekeeper.judge c = .ok who

theorem letsIn_cons {l : Listener} {i : Nat} {e : Event} {events : List Event}
    (he : e.isFrom i = false) (h : (l.step e).LetsIn i events) : l.LetsIn i (e :: events) := by
  obtain ⟨before, c, who, ⟨after, rfl, hbefore⟩, hjudge⟩ := h
  exact ⟨e :: before, c, who, ⟨after, rfl, List.forall_mem_cons.mpr ⟨he, hbefore⟩⟩, hjudge⟩

/-! ## Runs with one peer exchanged -/

def setPeer (l : Listener) (i : Nat) (p : Peer) : Listener := { l with peers := l.peers.set i p }

theorem setPeer_eq_self {l : Listener} {i : Nat} {p : Peer} (h : l.peers[i]? = some p) :
    l.setPeer i p = l := by
  have hset : l.peers.set i p = l.peers := by
    refine List.ext_getElem? fun k => ?_
    rw [List.getElem?_set]
    split
    · next hk =>
      subst hk
      rw [if_pos (List.getElem?_eq_some_iff.mp h).1, h]
    · rfl
  simp only [setPeer, hset]

theorem modify_set (peers : List Peer) (i j : Nat) (p : Peer) (f : Peer → Peer) :
    (peers.set i p).modify j f = (peers.modify j f).set i (if j = i then f p else p) := by
  refine List.ext_getElem? fun k => ?_
  simp only [List.getElem?_modify, List.getElem?_set, List.length_modify]
  grind

theorem modifyPeer_setPeer (l : Listener) (i j : Nat) (p : Peer) (f : Peer → Peer) :
    (l.setPeer i p).modifyPeer j f = (l.modifyPeer j f).setPeer i (if j = i then f p else p) := by
  simp only [modifyPeer, setPeer, modify_set]

theorem modifyPeer_eq_setPeer {l : Listener} {i : Nat} {p : Peer} (h : l.peers[i]? = some p)
    (f : Peer → Peer) : l.modifyPeer i f = l.setPeer i (f p) := by
  have hmodify : l.peers.modify i f = l.peers.set i (f p) := by
    refine List.ext_getElem? fun k => ?_
    rw [List.getElem?_modify, List.getElem?_set]
    by_cases hk : i = k
    · subst hk
      obtain ⟨hi, hp⟩ := List.getElem?_eq_some_iff.mp h
      simp [hi, hp]
    · simp [hk]
  simp only [modifyPeer, setPeer, hmodify]

theorem catchUp_eq_self {l : Listener} {i : Nat} {p : Peer} (hpeer : l.peers[i]? = some p)
    (hidle : p.handlers = []) : l.catchUp i = l := by
  have hsame : p.catchUp l.tree = (l.tree, p) := by
    unfold Peer.catchUp
    rw [hidle]
    simp only [List.foldl_nil]
    rw [← hidle]
  unfold catchUp
  rw [hpeer]
  simp only [hsame]
  exact setPeer_eq_self hpeer

/-- A change that spares a silent peer spares one in its place, too. -/
theorem modifyPeer_of_silent {l : Listener} {i j : Nat} {p : Peer} {f : Peer → Peer}
    (hsilent : l.peers[i]? = some {}) (hspares : j = i → f {} = {} ∧ f p = p) :
    (l.modifyPeer j f).peers[i]? = some {} ∧
      (l.setPeer i p).modifyPeer j f = (l.modifyPeer j f).setPeer i p := by
  have hpeer : (l.modifyPeer j f).peers[i]? = some (if j = i then f {} else {}) := by
    simp only [modifyPeer, List.getElem?_modify, hsilent, Option.map_eq_map, Option.map_some]
  rw [modifyPeer_setPeer, hpeer]
  by_cases hj : j = i
  · obtain ⟨hempty, hsame⟩ := hspares hj
    rw [if_pos hj, if_pos hj, hempty, hsame]
    exact ⟨rfl, rfl⟩
  · rw [if_neg hj, if_neg hj]
    exact ⟨rfl, rfl⟩

theorem catchUp_of_silent {l : Listener} {i : Nat} {p : Peer} (hsilent : l.peers[i]? = some {})
    (hidle : p.handlers = []) (j : Nat) :
    (l.catchUp j).peers[i]? = some {} ∧
      (l.setPeer i p).catchUp j = (l.catchUp j).setPeer i p := by
  by_cases hj : j = i
  · subst hj
    have hset : (l.setPeer j p).peers[j]? = some p :=
      List.getElem?_set_self (List.getElem?_eq_some_iff.mp hsilent).1
    rw [catchUp_eq_self hsilent rfl, catchUp_eq_self hset hidle]
    exact ⟨hsilent, rfl⟩
  · have hsame : (l.setPeer i p).peers[j]? = l.peers[j]? := List.getElem?_set_ne (Ne.symm hj)
    simp only [catchUp]
    rw [hsame]
    cases l.peers[j]? with
    | none => exact ⟨hsilent, rfl⟩
    | some q =>
      constructor
      · simp only [List.getElem?_set_ne hj, hsilent]
      · simp only [setPeer, List.set_comm _ _ hj]

theorem step_connect (l : Listener) :
    l.step .connect = if l.closing then l else { l with peers := l.peers ++ [{}] } := by
  unfold step accept
  by_cases h : l.closing = true
  · simp only [h, if_true]
  · simp only [if_neg h]

theorem connect_of_silent {l : Listener} {i : Nat} (hsilent : l.peers[i]? = some {}) (p : Peer) :
    (l.step .connect).peers[i]? = some {} ∧
      (l.setPeer i p).step .connect = (l.step .connect).setPeer i p := by
  have hi : i < l.peers.length := (List.getElem?_eq_some_iff.mp hsilent).1
  have hsame : (l.setPeer i p).closing = l.closing := rfl
  rw [step_connect, step_connect, hsame]
  by_cases hclosing : l.closing = true
  · rw [if_pos hclosing, if_pos hclosing]
    exact ⟨hsilent, rfl⟩
  · rw [if_neg hclosing, if_neg hclosing]
    constructor
    · change (l.peers ++ [({} : Peer)])[i]? = some {}
      rw [List.getElem?_append_left hi, hsilent]
    · simp only [setPeer, List.set_append_left i p hi]

/-- What peer `i` does not send happens in the same way whether the peer was not heard or was sent
away. -/
theorem step_setPeer {l : Listener} {i : Nat} {p : Peer} {e : Event} (hsilent : l.peers[i]? = some {})
    (hp : p.Outside) (he : e.isFrom i = false) :
    (l.step e).peers[i]? = some {} ∧ (l.setPeer i p).step e = (l.step e).setPeer i p := by
  cases e with
  | connect => exact connect_of_silent hsilent p
  | packet j packet =>
    have hj : j ≠ i := of_decide_eq_false he
    exact modifyPeer_of_silent hsilent fun heq => absurd heq hj
  | broken j =>
    have hj : j ≠ i := of_decide_eq_false he
    exact modifyPeer_of_silent hsilent fun heq => absurd heq hj
  | register j => exact modifyPeer_of_silent hsilent fun _ => ⟨rfl, if_neg hp.not_admitted⟩
  | work j => exact catchUp_of_silent hsilent hp.noHandler j
  | rejudge g => exact ⟨hsilent, rfl⟩
  | change f => exact ⟨hsilent, rfl⟩
  | beginClosing => exact ⟨hsilent, rfl⟩
  | endRegistered =>
    constructor
    · simp only [step, endRegistered, List.getElem?_map, hsilent]
      rfl
    · simp only [step, endRegistered, setPeer, List.map_set, if_neg hp.not_registered]

theorem step_of_isFrom {l : Listener} {i : Nat} {p : Peer} {e : Event} (he : e.isFrom i = true)
    (hpeer : l.peers[i]? = some p) :
    (∃ packet, e = .packet i packet ∧
      l.step e = l.setPeer i (p.arrive l.gatekeeper l.services packet)) ∨
    e = .broken i ∧ l.step e = l.setPeer i p.leave := by
  cases e with
  | packet j packet =>
    obtain rfl : j = i := of_decide_eq_true he
    exact .inl ⟨packet, rfl, modifyPeer_eq_setPeer hpeer _⟩
  | broken j =>
    obtain rfl : j = i := of_decide_eq_true he
    exact .inr ⟨rfl, modifyPeer_eq_setPeer hpeer _⟩
  | connect | register | work | rejudge | change | beginClosing | endRegistered => cases he

/-! ## Whole runs -/

theorem unheard_cons_of_isFrom {i : Nat} {e : Event} (he : e.isFrom i = true) (events : List Event) :
    unheard i (e :: events) = unheard i events :=
  List.filter_cons_of_neg (by simp [he])

theorem unheard_cons_of_not_isFrom {i : Nat} {e : Event} (he : e.isFrom i = false)
    (events : List Event) : unheard i (e :: events) = e :: unheard i events :=
  List.filter_cons_of_pos (by simp [he])

theorem run_cons (l : Listener) (e : Event) (events : List Event) :
    l.run (e :: events) = (l.step e).run events := rfl

/-- Once a peer was sent away, the listener works as if the peer had never sent anything. -/
theorem run_setPeer_of_dismissed {l : Listener} {i : Nat} {p : Peer} (hsilent : l.peers[i]? = some {})
    (hp : p.Dismissed) (events : List Event) :
    (l.setPeer i p).run events = (l.run (unheard i events)).setPeer i p := by
  induction events generalizing l with
  | nil => rfl
  | cons e events ih =>
    cases he : e.isFrom i with
    | true =>
      have hset : (l.setPeer i p).peers[i]? = some p :=
        List.getElem?_set_self (List.getElem?_eq_some_iff.mp hsilent).1
      have hignored : (l.setPeer i p).step e = l.setPeer i p := by
        rcases step_of_isFrom he hset with ⟨packet, -, hstep⟩ | ⟨-, hstep⟩
        · rw [hstep, hp.arrive_eq, setPeer_eq_self hset]
        · rw [hstep, hp.leave_eq, setPeer_eq_self hset]
      rw [unheard_cons_of_isFrom he, run_cons, hignored, ih hsilent]
    | false =>
      obtain ⟨hstill, hstep⟩ := step_setPeer hsilent (.inr hp) he
      rw [unheard_cons_of_not_isFrom he, run_cons, run_cons, hstep, ih hstill]

/-- A peer that is not let in is not heard yet, or was sent away, and all else is as if it had
never sent anything. -/
theorem run_eq_setPeer {l : Listener} {i : Nat} {events : List Event}
    (hsilent : l.peers[i]? = some {}) (hlets : ¬ l.LetsIn i events) :
    ∃ p : Peer, (p.Dismissed ∨ p = {} ∧ ∀ e ∈ events, e.isFrom i = false) ∧
      l.run events = (l.run (unheard i events)).setPeer i p := by
  induction events generalizing l with
  | nil => exact ⟨{}, .inr ⟨rfl, fun e he => nomatch he⟩, (setPeer_eq_self hsilent).symm⟩
  | cons e events ih =>
    cases he : e.isFrom i with
    | true =>
      rw [unheard_cons_of_isFrom he, run_cons]
      have hdismissed : ∃ p : Peer, p.Dismissed ∧ l.step e = l.setPeer i p := by
        rcases step_of_isFrom he hsilent with ⟨packet, rfl, hstep⟩ | ⟨-, hstep⟩
        · refine ⟨_, Peer.dismissed_of_arrive l.services ?_, hstep⟩
          rintro c who rfl hjudge
          exact hlets ⟨[], c, who, ⟨events, rfl, fun e he => nomatch he⟩, hjudge⟩
        · exact ⟨_, Peer.dismissed_leave, hstep⟩
      obtain ⟨p, hp, hstep⟩ := hdismissed
      exact ⟨p, .inl hp, by rw [hstep, run_setPeer_of_dismissed hsilent hp]⟩
    | false =>
      obtain ⟨hstill, -⟩ := step_setPeer hsilent (.inl rfl) he
      obtain ⟨p, hp, hrun⟩ := ih hstill fun h => hlets (letsIn_cons he h)
      rw [unheard_cons_of_not_isFrom he, run_cons, run_cons]
      exact ⟨p, hp.imp_right fun ⟨hempty, hnone⟩ => ⟨hempty, List.forall_mem_cons.mpr ⟨he, hnone⟩⟩, hrun⟩

/-- A peer that sends nothing stays as it was accepted. -/
theorem peers_run_unheard {l : Listener} {i : Nat} (hsilent : l.peers[i]? = some {})
    (events : List Event) : (l.run (unheard i events)).peers[i]? = some {} := by
  induction events generalizing l with
  | nil => exact hsilent
  | cons e events ih =>
    cases he : e.isFrom i with
    | true =>
      rw [unheard_cons_of_isFrom he]
      exact ih hsilent
    | false =>
      rw [unheard_cons_of_not_isFrom he, run_cons]
      exact ih (step_setPeer hsilent (.inl rfl) he).1

theorem gatekeeper_step {l : Listener} {e : Event} (h : ∀ g, e ≠ .rejudge g) :
    (l.step e).gatekeeper = l.gatekeeper := by
  cases e with
  | connect =>
    rw [step_connect]
    split <;> rfl
  | work j =>
    simp only [step, catchUp]
    split <;> rfl
  | rejudge g => exact absurd rfl (h g)
  | packet | broken | register | change | beginClosing | endRegistered => rfl

theorem gatekeeper_run {l : Listener} {events : List Event} (h : ∀ g, Event.rejudge g ∉ events) :
    (l.run events).gatekeeper = l.gatekeeper := by
  induction events generalizing l with
  | nil => rfl
  | cons e events ih =>
    rw [run_cons, ih fun g hg => h g (List.mem_cons_of_mem e hg)]
    refine gatekeeper_step ?_
    rintro g rfl
    exact h g List.mem_cons_self

/-- Under a list of users, a peer is let in by the password that was given last for the user. -/
theorem letsIn_iff_of_ofUsers {l : Listener} {i : Nat} {events : List Event}
    {users : List (String × String)} (hgatekeeper : l.gatekeeper = .ofUsers users)
    (hkeeps : ∀ g, Event.rejudge g ∉ events) :
    l.LetsIn i events ↔
      ∃ before c, Shows i events before c ∧ c.mechanism = "PLAIN" ∧
        lastPassword users c.principal = some c.secret := by
  have hjudge : ∀ before c, Shows i events before c →
      (l.run before).gatekeeper = .ofUsers users := by
    rintro before c ⟨after, rfl, -⟩
    rw [gatekeeper_run fun g hg => hkeeps g (List.mem_append_left _ hg), hgatekeeper]
  constructor
  · rintro ⟨before, c, who, hshows, hlets⟩
    rw [hjudge before c hshows, Gatekeeper.judge_ofUsers] at hlets
    exact ⟨before, c, hshows, hlets.1, hlets.2.1⟩
  · rintro ⟨before, c, hshows, hmechanism, hsecret⟩
    refine ⟨before, c, c.principal, hshows, ?_⟩
    rw [hjudge before c hshows, Gatekeeper.judge_ofUsers]
    exact ⟨hmechanism, hsecret, rfl⟩

theorem accept_spec {l l' : Listener} {i : Nat} (h : l.accept = some (i, l')) :
    l'.peers[i]? = some {} ∧ l'.gatekeeper = l.gatekeeper := by
  unfold accept at h
  split at h
  · cases h
  · cases h
    refine ⟨?_, rfl⟩
    change (l.peers ++ [({} : Peer)])[l.peers.length]? = some {}
    rw [List.getElem?_concat_length]

/-- A new peer that does not begin with credentials that are accepted reaches nothing, and the
listener with its directory is as if the peer had never sent anything. Under a list of users, such
credentials are a password that was given last for its user. -/
theorem nothing_before_admission {l l' : Listener} {i : Nat} (hnew : l.accept = some (i, l'))
    (events : List Event) :
    (¬ l'.LetsIn i events →
      ∃ p : Peer, (l'.run events).peers[i]? = some p ∧
        (p.Dismissed ∨ p = {} ∧ ∀ e ∈ events, e.isFrom i = false) ∧
        l'.run events = (l'.run (unheard i events)).setPeer i p) ∧
    (∀ users, l.gatekeeper = .ofUsers users → (∀ g, Event.rejudge g ∉ events) →
      (l'.LetsIn i events ↔
        ∃ before c, Shows i events before c ∧ c.mechanism = "PLAIN" ∧
          lastPassword users c.principal = some c.secret)) := by
  obtain ⟨hsilent, hgatekeeper⟩ := accept_spec hnew
  constructor
  · intro hlets
    obtain ⟨p, hp, hrun⟩ := run_eq_setPeer hsilent hlets
    refine ⟨p, ?_, hp, hrun⟩
    rw [hrun]
    exact List.getElem?_set_self (List.getElem?_eq_some_iff.mp (peers_run_unheard hsilent events)).1
  · intro users husers hkeeps
    exact letsIn_iff_of_ofUsers (hgatekeeper.trans husers) hkeeps

/-- Somebody begins with a password that was replaced, and goes on as if it had been accepted. -/
theorem nothing_before_admission_old_password :
    let l : Listener :=
      { gatekeeper := .ofUsers [("u", "old"), ("u", "new")], services := [("naming", .naming)],
        tree := [] }
    let l' : Listener := { l with peers := [{}] }
    let events : List Event :=
      [.packet 0 (.authenticate ⟨"PLAIN", "u", "old", ""⟩), .register 0,
        .packet 0 (.openChannel 1 "naming" []), .work 0]
    l.accept = some (0, l') ∧
      ∃ p : Peer, (l'.run events).peers[0]? = some p ∧
        (p.Dismissed ∨ p = {} ∧ ∀ e ∈ events, e.isFrom 0 = false) ∧
        l'.run events = (l'.run (unheard 0 events)).setPeer 0 p := by
  intro l l' events
  have hnew : l.accept = some (0, l') := rfl
  obtain ⟨hgate, husers⟩ := nothing_before_admission hnew events
  refine ⟨hnew, hgate fun hlets => ?_⟩
  obtain ⟨before, c, ⟨after, hevents, hbefore⟩, -, hsecret⟩ :=
    (husers [("u", "old"), ("u", "new")] rfl (by simp [events])).mp hlets
  cases before with
  | nil =>
    obtain ⟨hfirst, -⟩ := List.cons.inj hevents
    obtain ⟨-, hc⟩ := Event.packet.inj hfirst
    obtain rfl := Packet.authenticate.inj hc
    exact absurd hsecret (by decide)
  | cons e before =>
    obtain ⟨rfl, -⟩ := List.cons.inj hevents
    exact absurd (hbefore _ List.mem_cons_self) (by decide)

end Listener

end NameDirectory
