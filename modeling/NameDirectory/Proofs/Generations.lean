import NameDirectory.Failover
import NameDirectory.Proofs.Ledger

/-!
# Generations of sessions

A failover group among any number of callers, as a step relation (`Step`) whose steps
are those made under the group's lock.  The environment is arbitrary, but what it opens
and closes for the group is recorded (`Environment.recorded`), and so is what every
caller was handed.

* `obtain_recorded`, `replace_recorded`, `clear_recorded`: recording changes nothing else;
* `Turned`: all that a turn at the group can do;
* `Group.Sound.turn`: a turn keeps the group and the ledger of its sessions in step;
* `group_invariant`: what holds in every reachable state.
-/

namespace NameDirectory.Failover

variable {σ S : Type}

/-! ## Recording -/

structure Recorded (σ : Type) where
  world : σ
  ledger : Ledger := {}

/-- The environment with its sessions numbered. -/
def Environment.recorded (env : Environment σ S) : Environment (Recorded σ) (Numbered S) where
  connect index w :=
    let (r, world) := env.connect index w.world
    let (r, ledger) := w.ledger.opening r
    (r, ⟨world, ledger⟩)
  connected index session w := { w with world := env.connected index session.value w.world }
  closeSession session w :=
    ⟨env.closeSession session.value w.world, w.ledger.close [session.number]⟩
  closeConnector w := { w with world := env.closeConnector w.world }

def Current.forget (c : Current (Numbered S)) : Current S := ⟨c.session.value, c.index, c.epoch⟩

def Group.forget (g : Group (Numbered S)) : Group S :=
  ⟨g.servers, g.cursor, g.epoch, g.current.map Current.forget, g.closed⟩

theorem Group.current_forget (g : Group (Numbered S)) :
    g.forget.current = g.current.map Current.forget := rfl

def Scan.forget : Scan (Numbered S) → Scan S
  | .found index session => .found index session.value
  | .exhausted attempts cause => .exhausted attempts cause

/-- What a turn gave, its sessions without their numbers. -/
def forgetTurn : Except ClientFault (Current (Numbered S)) × Group (Numbered S) × Recorded σ →
    Except ClientFault (Current S) × Group S × σ
  | (r, g, w) => (r.map Current.forget, g.forget, w.world)

variable {env : Environment σ S}

theorem recorded_connect_ok {index : Nat} {w : Recorded σ} {session : S} {world : σ}
    (h : env.connect index w.world = (.ok session, world)) :
    env.recorded.connect index w = (.ok ⟨w.ledger.opened, session⟩, ⟨world, w.ledger.add⟩) := by
  simp [Environment.recorded, h, Ledger.opening]

theorem recorded_connect_error {index : Nat} {w : Recorded σ} {fault : TransportFault} {world : σ}
    (h : env.connect index w.world = (.error fault, world)) :
    env.recorded.connect index w = (.error fault, ⟨world, w.ledger⟩) := by
  simp [Environment.recorded, h, Ledger.opening]

theorem scan_recorded (env : Environment σ S) (servers : List String) (tries cursor : Nat)
    (attempts : List String) (cause : Option TransportFault) (w : Recorded σ) :
    let (r, next, w') := scan env.recorded servers tries cursor attempts cause w
    scan env servers tries cursor attempts cause w.world = (r.forget, next, w'.world) := by
  induction tries generalizing cursor attempts cause w with
  | zero => rfl
  | succ tries ih =>
    unfold scan
    rcases hconnect : env.connect cursor w.world with ⟨fault | session, world⟩
    · rw [recorded_connect_error hconnect]
      exact ih _ _ _ ⟨world, w.ledger⟩
    · rw [recorded_connect_ok hconnect]
      rfl

theorem install_recorded (env : Environment σ S) (g : Group (Numbered S)) (w : Recorded σ) :
    g.forget.install env w.world = forgetTurn (g.install env.recorded w) := by
  have hscan := scan_recorded env g.servers g.servers.length g.cursor [] none w
  unfold Group.install
  rcases hr : scan env.recorded g.servers g.servers.length g.cursor [] none w with ⟨r, next, w'⟩
  rw [hr] at hscan
  simp only [Group.forget, hscan]
  cases r <;> rfl

/-- Replacing a session does to the world what it does unrecorded. -/
theorem replace_recorded (env : Environment σ S) (failed : Option Nat) (g : Group (Numbered S))
    (w : Recorded σ) :
    g.forget.replace env failed w.world = forgetTurn (g.replace env.recorded failed w) := by
  unfold Group.replace
  have hclosed : g.forget.closed = g.closed := rfl
  rw [hclosed, Group.current_forget]
  split
  · rfl
  · cases g.current with
    | none => exact install_recorded env g w
    | some c =>
      have hepoch : c.forget.epoch = c.epoch := rfl
      dsimp only [Option.map]
      rw [hepoch]
      split
      · rfl
      · exact install_recorded env { g with current := none }
          (env.recorded.closeSession c.session w)

theorem obtain_recorded (env : Environment σ S) (g : Group (Numbered S)) (w : Recorded σ) :
    g.forget.obtain env w.world = forgetTurn (g.obtain env.recorded w) := by
  have hreplace := replace_recorded env none g w
  unfold Group.obtain
  rw [Group.current_forget]
  cases g.current with
  | none => exact hreplace
  | some c => rfl

theorem clear_recorded (env : Environment σ S) (g : Group (Numbered S)) (w : Recorded σ) :
    g.forget.clear env w.world =
      ((g.clear env.recorded w).1.forget, (g.clear env.recorded w).2.world) := by
  unfold Group.clear
  rw [Group.current_forget]
  cases g.current <;> rfl

/-! ## What a turn can do -/

/-- The ledger once the session in use is closed. -/
def Group.vacated (g : Group (Numbered S)) (l : Ledger) : Ledger :=
  match g.current with
  | none => l
  | some c => l.close [c.session.number]

theorem Group.opened_vacated (g : Group (Numbered S)) (l : Ledger) :
    (g.vacated l).opened = l.opened := by
  unfold Group.vacated
  split <;> rfl

/-- All that can come of a caller's turn at the group, by the failure it reports: what it is
handed, the group, and the ledger. -/
inductive Turned (failed : Option Nat) (g : Group (Numbered S)) (l : Ledger) :
    Except ClientFault (Current (Numbered S)) → Group (Numbered S) → Ledger → Prop
  /-- The group is closed. -/
  | refused : Turned failed g l (.error .closed) g l
  | shared {c : Current (Numbered S)} (hc : g.current = some c) (hfailed : failed ≠ some c.epoch) :
      Turned failed g l (.ok c) g l
  | exhausted {fault : ClientFault} {cursor : Nat} (hcursor : cursor < g.servers.length) :
      Turned failed g l (.error fault) { g with cursor, current := none } (g.vacated l)
  | installed {c : Current (Numbered S)} (hindex : c.index < g.servers.length)
      (hepoch : c.epoch = g.epoch + 1) (hnumber : c.session.number = l.opened) :
      Turned failed g l (.ok c)
        { g with cursor := (c.index + 1) % g.servers.length, epoch := g.epoch + 1,
                 current := some c } (g.vacated l).add

/-- A scan that finds a session opened just that one; one that does not opened none. -/
theorem scan_spec (env : Environment σ S) {servers : List String} (tries : Nat) {cursor : Nat}
    (hcursor : cursor < servers.length) (attempts : List String) (cause : Option TransportFault)
    (w : Recorded σ) :
    match scan env.recorded servers tries cursor attempts cause w with
    | (.found index session, next, w') => index < servers.length ∧
        next = (index + 1) % servers.length ∧ session.number = w.ledger.opened ∧
        w'.ledger = w.ledger.add
    | (.exhausted _ _, next, w') => next < servers.length ∧ w'.ledger = w.ledger := by
  induction tries generalizing cursor attempts cause w with
  | zero => exact ⟨hcursor, rfl⟩
  | succ tries ih =>
    unfold scan
    rcases hconnect : env.connect cursor w.world with ⟨fault | session, world⟩
    · rw [recorded_connect_error hconnect]
      have hnext : (cursor + 1) % servers.length < servers.length := Nat.mod_lt _ (by omega)
      exact ih hnext _ _ ⟨world, w.ledger⟩
    · rw [recorded_connect_ok hconnect]
      exact ⟨hcursor, rfl, rfl, rfl⟩

theorem turned_install (env : Environment σ S) (failed : Option Nat) {g : Group (Numbered S)}
    (hcursor : g.cursor < g.servers.length) (l : Ledger) {w : Recorded σ}
    (hl : w.ledger = g.vacated l) :
    let (r, g', w') := Group.install env.recorded { g with current := none } w
    Turned failed g l r g' w'.ledger := by
  have hscan := scan_spec env g.servers.length hcursor [] none w
  unfold Group.install
  dsimp only
  split at hscan
  · next index session next w' hr =>
    obtain ⟨hindex, rfl, hnumber, hledger⟩ := hscan
    rw [hr]
    have hadd : (env.recorded.connected index session w').ledger = (g.vacated l).add :=
      hledger.trans (by rw [hl])
    dsimp only
    rw [hadd]
    exact .installed hindex rfl (by rw [hnumber, hl, g.opened_vacated])
  · next next w' hr =>
    obtain ⟨hnext, hledger⟩ := hscan
    rw [hr]
    dsimp only
    rw [hledger, hl]
    exact .exhausted hnext

theorem turned_replace (env : Environment σ S) (failed : Option Nat) {g : Group (Numbered S)}
    (hcursor : g.cursor < g.servers.length) (w : Recorded σ) :
    let (r, g', w') := g.replace env.recorded failed w
    Turned failed g w.ledger r g' w'.ledger := by
  unfold Group.replace
  by_cases hclosed : g.closed = true
  · rw [if_pos hclosed]
    exact .refused
  rw [if_neg hclosed]
  cases hc : g.current with
  | none =>
    have hg : g = { g with current := none } := by rw [← hc]
    have hl : w.ledger = g.vacated w.ledger := by simp [Group.vacated, hc]
    have hinstall := turned_install env failed hcursor w.ledger hl
    rwa [← hg] at hinstall
  | some c =>
    dsimp only
    by_cases hfailed : failed = some c.epoch
    · have hl : (env.recorded.closeSession c.session w).ledger = g.vacated w.ledger := by
        simp [Group.vacated, hc, Environment.recorded]
      rw [if_neg (not_not_intro hfailed)]
      exact turned_install env failed hcursor w.ledger hl
    · rw [if_pos hfailed]
      exact .shared hc hfailed

theorem turned_obtain (env : Environment σ S) {g : Group (Numbered S)}
    (hcursor : g.cursor < g.servers.length) (w : Recorded σ) :
    let (r, g', w') := g.obtain env.recorded w
    Turned none g w.ledger r g' w'.ledger := by
  unfold Group.obtain
  cases hc : g.current with
  | none => exact turned_replace env none hcursor w
  | some c => exact .shared hc (by simp)

/-! ## The group and its sessions -/

def Group.live (g : Group (Numbered S)) : List Nat := g.current.toList.map (·.session.number)

/-- The cursor follows the session in use, which has the epoch of the group; of all sessions
that were opened it alone is not closed. -/
structure Group.Sound (g : Group (Numbered S)) (l : Ledger) : Prop where
  cursor : g.cursor < g.servers.length
  index : ∀ c, g.current = some c →
    c.index < g.servers.length ∧ g.cursor = (c.index + 1) % g.servers.length
  epoch : ∀ c, g.current = some c → c.epoch = g.epoch
  settled : l.Settles g.live

namespace Group.Sound

variable {g g' : Group (Numbered S)} {l l' : Ledger}

theorem of_none (hcursor : g.cursor < g.servers.length) (hc : g.current = none)
    (hl : l.Settles []) : g.Sound l where
  cursor := hcursor
  index := by simp [hc]
  epoch := by simp [hc]
  settled := by simpa [Group.live, hc] using hl

theorem vacated (h : g.Sound l) : (g.vacated l).Settles [] := by
  have hsettled := h.settled
  unfold Group.vacated
  unfold Group.live at hsettled
  cases hc : g.current with
  | none =>
    rw [hc] at hsettled
    exact hsettled
  | some c =>
    rw [hc] at hsettled
    exact hsettled.close

theorem turn {failed : Option Nat} {r : Except ClientFault (Current (Numbered S))} (h : g.Sound l)
    (ht : Turned failed g l r g' l') : g'.Sound l' ∧ g'.servers = g.servers := by
  cases ht with
  | refused => exact ⟨h, rfl⟩
  | shared => exact ⟨h, rfl⟩
  | exhausted hcursor =>
    exact ⟨of_none hcursor rfl h.vacated, rfl⟩
  | @installed c hindex hepoch hnumber =>
    have hpos : 0 < g.servers.length := by omega
    refine ⟨⟨Nat.mod_lt _ hpos, ?_, ?_, ?_⟩, rfl⟩
    · rintro _ ⟨⟩
      exact ⟨hindex, rfl⟩
    · rintro _ ⟨⟩
      exact hepoch
    · have hsettled := h.vacated.add
      rwa [g.opened_vacated, ← hnumber] at hsettled

/-- Whoever is handed a session has one of the last generation, and not the one it reported. -/
theorem handed {failed : Option Nat} {c : Current (Numbered S)} (h : g.Sound l)
    (hfailed : ∀ e, failed = some e → e ≤ g.epoch) (ht : Turned failed g l (.ok c) g' l') :
    c.epoch ≤ g'.epoch ∧ ∀ e, failed = some e → e < c.epoch := by
  cases ht with
  | shared hc hne =>
    refine ⟨(h.epoch c hc).le, fun e he => ?_⟩
    have hle := hfailed e he
    rw [← h.epoch c hc] at hle
    exact lt_of_le_of_ne hle fun heq => hne (heq ▸ he)
  | installed _ hc _ => exact ⟨hc.le, fun e he => hc ▸ Nat.lt_succ_of_le (hfailed e he)⟩

theorem clear {w : Recorded σ} (h : g.Sound w.ledger) :
    (g.clear env.recorded w).1.Sound (g.clear env.recorded w).2.ledger := by
  have hvacated := h.vacated
  unfold Group.clear
  unfold Group.vacated at hvacated
  cases hc : g.current with
  | none => exact h
  | some c =>
    rw [hc] at hvacated
    exact of_none h.cursor rfl hvacated

end Group.Sound

/-! ## Runs -/

structure Turn (S : Type) where
  /-- The generation that the caller saw fail. -/
  failed : Option Nat
  /-- The last generation before the turn. -/
  before : Nat
  /-- How many sessions were opened before the turn. -/
  opened : Nat
  result : Except ClientFault (Current (Numbered S))

/-- The session that a turn put into use: the one handed out, if it was opened for it. -/
def Turn.installed? (t : Turn S) : Option (Current (Numbered S)) :=
  match t.result with
  | .ok c => if t.opened ≤ c.session.number then some c else none
  | .error _ => none

theorem Turn.result_of_installed? {t : Turn S} {c : Current (Numbered S)}
    (h : t.installed? = some c) : t.result = .ok c := by
  unfold installed? at h
  split at h
  · next hr =>
    split at h
    · cases h
      exact hr
    · cases h
  · cases h

structure State (σ S : Type) where
  group : Group (Numbered S)
  world : Recorded σ
  /-- Every turn that was taken, the last first. -/
  turns : List (Turn S) := []

def State.after (s : State σ S) (failed : Option Nat) :
    Except ClientFault (Current (Numbered S)) × Group (Numbered S) × Recorded σ → State σ S
  | (r, g, w) => ⟨g, w, ⟨failed, s.group.epoch, s.world.ledger.opened, r⟩ :: s.turns⟩

inductive Step (env : Environment σ S) : State σ S → State σ S → Prop
  | obtain {s : State σ S} : Step env s (s.after none (s.group.obtain env.recorded s.world))
  /-- A caller reports the failure of a session that some caller was handed. -/
  | replace {s : State σ S} {t : Turn S} {c : Current (Numbered S)} (ht : t ∈ s.turns)
      (hr : t.result = .ok c) :
      Step env s (s.after (some c.epoch) (s.group.replace env.recorded (some c.epoch) s.world))
  /-- The first half of closing, outside the lock. -/
  | mark {s : State σ S} : Step env s { s with group := { s.group with closed := true } }
  | clear {s : State σ S} (h : s.group.closed = true) :
      Step env s { s with group := (s.group.clear env.recorded s.world).1,
                          world := (s.group.clear env.recorded s.world).2 }
  /-- Sessions are used, the connector is closed, time goes by. -/
  | elsewhere {s : State σ S} (world : σ) :
      Step env s { s with world := { s.world with world } }

inductive Reachable (env : Environment σ S) (servers : List String) : State σ S → Prop
  | start (cursor : Nat) (world : σ) (h : cursor < servers.length) :
      Reachable env servers ⟨{ servers, cursor }, { world }, []⟩
  | step {s s' : State σ S} (h : Reachable env servers s) (hs : Step env s s') :
      Reachable env servers s'

structure Inv (servers : List String) (s : State σ S) : Prop where
  servers : s.group.servers = servers
  sound : s.group.Sound s.world.ledger
  /-- Nobody has a session of a later generation, and whoever reported one has a later one. -/
  handed : ∀ t ∈ s.turns, ∀ c, t.result = .ok c →
    c.epoch ≤ s.group.epoch ∧ ∀ e, t.failed = some e → e < c.epoch
  /-- A session that was put into use has the generation after the last. -/
  next : ∀ t ∈ s.turns, ∀ c, t.installed? = some c → c.epoch = t.before + 1
  increasing : s.turns.Pairwise fun t t' =>
    ∀ c, t.installed? = some c → ∀ c', t'.installed? = some c' → c'.epoch < c.epoch

namespace Inv

variable {servers : List String} {s s' : State σ S}

theorem start {cursor : Nat} (world : σ) (h : cursor < servers.length) :
    Inv servers (⟨{ servers, cursor }, { world }, []⟩ : State σ S) where
  servers := rfl
  sound := .of_none h rfl Ledger.settles_empty
  handed _ ht := nomatch ht
  next _ ht := nomatch ht
  increasing := .nil

/-- The session in use was opened before, so no turn that shares it puts it into use. -/
theorem installed?_shared (h : Inv servers s) {c : Current (Numbered S)}
    (hc : s.group.current = some c) (failed : Option Nat) :
    Turn.installed? ⟨failed, s.group.epoch, s.world.ledger.opened, .ok c⟩ = none := by
  have hlive : c.session.number ∈ s.group.live := by simp [Group.live, hc]
  have hlt := h.sound.settled.lt_of_mem hlive
  exact if_neg (by simpa using hlt)

/-- A turn that puts a session into use begins the next generation. -/
theorem epoch_of_installed? (h : Inv servers s) {failed : Option Nat} {c : Current (Numbered S)}
    {r : Except ClientFault (Current (Numbered S))} {g : Group (Numbered S)} {l : Ledger}
    (ht : Turned failed s.group s.world.ledger r g l)
    (hc : Turn.installed? ⟨failed, s.group.epoch, s.world.ledger.opened, r⟩ = some c) :
    c.epoch = s.group.epoch + 1 := by
  cases ht with
  | refused => cases hc
  | exhausted => cases hc
  | shared hcurrent =>
    rw [h.installed?_shared hcurrent] at hc
    cases hc
  | @installed x _ hx hnumber =>
    simp only [Turn.installed?, if_pos hnumber.ge, Option.some.injEq] at hc
    rw [← hc, hx]

theorem after (h : Inv servers s) {failed : Option Nat}
    (hfailed : ∀ e, failed = some e → e ≤ s.group.epoch)
    {r : Except ClientFault (Current (Numbered S))} {g : Group (Numbered S)} {w : Recorded σ}
    (hturn : Turned failed s.group s.world.ledger r g w.ledger) :
    Inv servers (s.after failed (r, g, w)) := by
  obtain ⟨hsound, hservers⟩ := h.sound.turn hturn
  have hepoch : s.group.epoch ≤ g.epoch := by
    generalize w.ledger = l at hturn
    cases hturn <;> simp
  refine ⟨hservers.trans h.servers, hsound, ?_, ?_, ?_⟩
  · intro t ht c hc
    rcases List.mem_cons.mp ht with rfl | ht
    · obtain rfl : r = .ok c := hc
      exact h.sound.handed hfailed hturn
    · obtain ⟨hle, hlt⟩ := h.handed t ht c hc
      exact ⟨hle.trans hepoch, hlt⟩
  · intro t ht c hc
    rcases List.mem_cons.mp ht with rfl | ht
    · exact h.epoch_of_installed? hturn hc
    · exact h.next t ht c hc
  · refine List.pairwise_cons.mpr ⟨fun t ht c hc c' hc' => ?_, h.increasing⟩
    have hle := (h.handed t ht c' (Turn.result_of_installed? hc')).1
    rw [h.epoch_of_installed? hturn hc]
    omega

theorem step (h : Inv servers s) (hs : Step env s s') : Inv servers s' := by
  cases hs with
  | obtain => exact h.after (fun e he => by cases he) (turned_obtain env h.sound.cursor s.world)
  | @replace t c ht hr =>
    refine h.after (fun e he => ?_) (turned_replace env _ h.sound.cursor s.world)
    cases he
    exact (h.handed t ht c hr).1
  | mark => exact { h with sound := { h.sound with } }
  | clear hclosed =>
    have hepoch : (s.group.clear env.recorded s.world).1.epoch = s.group.epoch := by
      unfold Group.clear
      split <;> rfl
    have hservers : (s.group.clear env.recorded s.world).1.servers = s.group.servers := by
      unfold Group.clear
      split <;> rfl
    exact { h with
      servers := hservers.trans h.servers
      sound := h.sound.clear
      handed := fun t ht c hc => hepoch ▸ h.handed t ht c hc }
  | elsewhere world => exact { h with }

end Inv

theorem Reachable.inv {servers : List String} {s : State σ S} (h : Reachable env servers s) :
    Inv servers s := by
  induction h with
  | start cursor world h => exact Inv.start world h
  | step _ hs ih => exact ih.step hs

/-- In every reachable state the cursor is that after the session in use, whose epoch is the
group's; later sessions have later epochs; every session opened is either in use or closed, and
closed once; no generation is directly followed by two sessions; and whoever reported a
generation was handed a session of a later one. -/
theorem group_invariant {servers : List String} {s : State σ S}
    (h : Reachable env servers s) :
    s.group.cursor < servers.length ∧
    (∀ c, s.group.current = some c → c.index < servers.length ∧ c.epoch = s.group.epoch ∧
      s.group.cursor = (c.index + 1) % servers.length) ∧
    (s.turns.filterMap Turn.installed?).Pairwise (fun c earlier => earlier.epoch < c.epoch) ∧
    (∀ n < s.world.ledger.opened,
      n ∉ s.world.ledger.closings ↔ ∃ c, s.group.current = some c ∧ c.session.number = n) ∧
    (s.world.ledger.closings.Nodup ∧ ∀ n ∈ s.world.ledger.closings, n < s.world.ledger.opened) ∧
    ((s.turns.filter fun t => t.installed?.isSome).map (·.before)).Nodup ∧
    ∀ t ∈ s.turns, ∀ e c, t.failed = some e → t.result = .ok c → e < c.epoch := by
  have hinv := h.inv
  have hsettled := hinv.sound.settled
  obtain rfl := hinv.servers
  refine ⟨hinv.sound.cursor, fun c hc => ?_, ?_, fun n hn => ?_, ⟨hsettled.nodup_closings, ?_⟩, ?_,
    fun t ht e c he hc => (hinv.handed t ht c hc).2 e he⟩
  · obtain ⟨hindex, hcursor⟩ := hinv.sound.index c hc
    exact ⟨hindex, hinv.sound.epoch c hc, hcursor⟩
  · exact List.pairwise_filterMap.mpr hinv.increasing
  · rw [hsettled.mem_closings_iff]
    simp [hn, Group.live]
  · exact fun n hn => (hsettled.mem_closings_iff.mp hn).1
  · refine List.pairwise_map.mpr (List.pairwise_filter.mpr ?_)
    refine hinv.increasing.imp_of_mem fun {t t'} ht ht' hlt hsome hsome' => ?_
    obtain ⟨c, hc⟩ := Option.isSome_iff_exists.mp hsome
    obtain ⟨c', hc'⟩ := Option.isSome_iff_exists.mp hsome'
    have hepoch := hlt c hc c' hc'
    rw [hinv.next t ht c hc, hinv.next t' ht' c' hc'] at hepoch
    omega

/-- The first of three servers fails while the second is down, and two callers report it. -/
theorem group_invariant_two_reports :
    let env : Environment (List Nat) Nat :=
      { connect := fun index down =>
          (if index ∈ down then .error (.stream .refused) else .ok index, down)
        connected := fun _ _ down => down
        closeSession := fun _ down => down
        closeConnector := id }
    ∃ s, Reachable env ["a", "b", "c"] s ∧ s.group.cursor = 0 ∧
      s.turns.filterMap Turn.installed? = [⟨⟨1, 2⟩, 2, 2⟩, ⟨⟨0, 0⟩, 0, 1⟩] ∧
      s.turns.map (·.failed) = [some 1, some 1, none] ∧
      s.world.ledger = ⟨2, [1, 0]⟩ ∧ s.world.ledger.closings.Nodup ∧
      ∀ t ∈ s.turns, ∀ e c, t.failed = some e → t.result = .ok c → e < c.epoch := by
  intro env
  have hs : Reachable env ["a", "b", "c"] _ := .start 0 [] (by decide)
  have hs := hs.step .obtain
  have hs := hs.step (.elsewhere [0, 1])
  have hs := hs.step (.replace List.mem_cons_self rfl)
  have hs := hs.step (.replace (List.mem_cons_of_mem _ List.mem_cons_self) rfl)
  have hs := hs.step .mark
  have hs := hs.step (.clear rfl)
  obtain ⟨-, -, -, -, ⟨honce, -⟩, -, hlater⟩ := group_invariant hs
  exact ⟨_, hs, by decide, rfl, rfl, rfl, honce, hlater⟩

end NameDirectory.Failover
