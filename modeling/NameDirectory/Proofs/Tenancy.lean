import Mathlib.Data.List.Nodup
import Mathlib.Data.List.Perm.Basic
import NameDirectory.Lease
import NameDirectory.Proofs.Ledger

/-!
# Leases and their resources

A pool together with every lease it ever gave, under any sequence of actions
(`State.run`): leases are asked for, with any idea of what is valid and any outcome of
building, they are ended, by whichever way and as often as anybody likes, and the pool
is shut down.  What was built and what was given up for closing is recorded.

* `Pool.Lent`, `Pool.Ended`: all that asking for a lease and ending one can do;
* `Pool.Counts`: the number of references is the number of leases that hold on;
* `Inv.step`, `Inv.run`: so it is along every run, and the ledger is settled;
* `Inv.gone_run`: what is gone from the pool never comes back;
* `references_counted`: a resource is closed with its last lease or on shutdown, at no
  other time and once only.
-/

namespace NameDirectory

/-! ## Slots -/

namespace Pool

variable {K R : Type} [DecidableEq K] {p : Pool K R} {k k' : K} {x y : Slot R}

/-- Of slots with different keys, one can be put in front. -/
theorem perm_cons_filter_ne {slots : List (K × Slot R)} {a : K × Slot R}
    (hkeys : (slots.map (·.1)).Nodup) (ha : a ∈ slots) :
    slots.Perm (a :: slots.filter (·.1 ≠ a.1)) := by
  induction slots with
  | nil => cases ha
  | cons b slots ih =>
    obtain ⟨hb, hkeys⟩ := List.nodup_cons.mp hkeys
    rcases List.mem_cons.mp ha with rfl | ha
    · have hothers : ∀ c ∈ slots, c.1 ≠ a.1 := fun c hc heq => hb (List.mem_map.mpr ⟨c, hc, heq⟩)
      have hfilter : slots.filter (·.1 ≠ a.1) = slots :=
        List.filter_eq_self.mpr fun c hc => by simpa using hothers c hc
      rw [List.filter_cons_of_neg (by simp), hfilter]
    · have hne : b.1 ≠ a.1 := fun heq => hb (List.mem_map.mpr ⟨a, ha, heq.symm⟩)
      rw [List.filter_cons_of_pos (by simpa using hne)]
      exact ((ih hkeys ha).cons b).trans (List.Perm.swap _ _ _)

/-- No key has two slots. -/
def Distinct (p : Pool K R) : Prop := (p.slots.map (·.1)).Nodup

theorem mem_of_slot? (h : p.slot? k = some x) : (k, x) ∈ p.slots := by
  obtain ⟨a, ha, rfl⟩ := Option.map_eq_some_iff.mp h
  have hkey : a.1 = k := by simpa using List.find?_some ha
  exact hkey ▸ List.mem_of_find?_eq_some ha

namespace Distinct

theorem slot?_of_mem (hp : p.Distinct) (h : (k, x) ∈ p.slots) : p.slot? k = some x := by
  cases hx : p.slot? k with
  | none =>
    have hnone : p.slots.find? (·.1 = k) = none := Option.map_eq_none_iff.mp hx
    have hne := List.find?_eq_none.mp hnone (k, x) h
    simp at hne
  | some y =>
    have heq : (k, y) = (k, x) := List.inj_on_of_nodup_map hp (mem_of_slot? hx) h rfl
    rw [(Prod.mk.inj heq).2]

theorem remove (hp : p.Distinct) (k : K) : (p.remove k).Distinct :=
  hp.sublist (List.filter_sublist.map _)

theorem put (hp : p.Distinct) (k : K) (x : Slot R) : (p.put k x).Distinct := by
  refine List.nodup_cons.mpr ⟨fun hk => ?_, hp.remove k⟩
  obtain ⟨a, ha, hkey⟩ := List.mem_map.mp hk
  have hne := (List.mem_filter.mp ha).2
  exact absurd hkey (by simpa using hne)

end Distinct

theorem remove_of_none (h : p.slot? k = none) : p.remove k = p := by
  have hnone : p.slots.find? (·.1 = k) = none := Option.map_eq_none_iff.mp h
  have hfilter : p.slots.filter (·.1 ≠ k) = p.slots :=
    List.filter_eq_self.mpr fun a ha => by simpa using List.find?_eq_none.mp hnone a ha
  rw [remove, hfilter]

theorem slot?_put (h : (p.put k x).slot? k' = some y) :
    k' = k ∧ y = x ∨ k' ≠ k ∧ p.slot? k' = some y := by
  by_cases hk : k' = k
  · subst hk
    rw [slot?_put_self] at h
    exact .inl ⟨rfl, (Option.some.inj h).symm⟩
  · rw [slot?_put_of_ne hk] at h
    exact .inr ⟨hk, h⟩

theorem slot?_remove (h : (p.remove k).slot? k' = some y) : k' ≠ k ∧ p.slot? k' = some y := by
  have hk : k' ≠ k := by
    rintro rfl
    simp at h
  exact ⟨hk, by rwa [slot?_remove_of_ne hk] at h⟩

/-- All that the end of a lease on generation `g` of what is under `k` can do: what is given up,
and the pool. -/
inductive Ended (p : Pool K R) (k : K) (g : Nat) : Option R → Pool K R → Prop
  | orphan (h : ∀ x, p.slot? k = some x → x.generation ≠ g) : Ended p k g none p
  | shared {x : Slot R} (hx : p.slot? k = some x) (hg : x.generation = g)
      (hmany : 1 < x.references) :
      Ended p k g none (p.put k { x with references := x.references - 1 })
  | last {x : Slot R} (hx : p.slot? k = some x) (hg : x.generation = g)
      (hlast : x.references ≤ 1) : Ended p k g (some x.resource) (p.remove k)

theorem ended_release (p : Pool K R) (k : K) (g : Nat) :
    Ended p k g (p.release k (some g)).1 (p.release k (some g)).2 := by
  unfold release
  split
  · next hx => exact .orphan fun x h => by rw [hx] at h; cases h
  · next x hx =>
    by_cases hg : x.generation = g
    · rw [if_neg (by simp [hg])]
      split
      · next hmany => exact .shared hx hg hmany
      · next hlast => exact .last hx hg (by omega)
    · rw [if_pos (by simpa using Ne.symm hg)]
      refine .orphan fun y hy => ?_
      obtain rfl := Option.some.inj (hx.symm.trans hy)
      exact hg

theorem endLease_of_released {l : Lease K R} (hl : l.released = true) :
    p.endLease l = (none, l, p) := by
  rw [endLease, if_pos hl]

/-- All that the end of a lease can do that had not ended yet. -/
theorem ended_endLease (p : Pool K R) {l : Lease K R} (hl : l.released = false) :
    p.Ended l.key l.generation (p.endLease l).1 (p.endLease l).2.2 := by
  have hended := ended_release p l.key l.generation
  simpa [endLease, hl] using hended

theorem released_endLease (p : Pool K R) (l : Lease K R) :
    (p.endLease l).2.1 = { l with released := true } := by
  unfold endLease
  split
  · next hreleased => rw [← hreleased]
  · rfl

/-- The numbers of the resources in a pool. -/
def numbers (p : Pool K (Numbered R)) : List Nat := p.slots.map (·.2.resource.number)

theorem numbers_perm {p : Pool K (Numbered R)} {x : Slot (Numbered R)} (hp : p.Distinct)
    (h : p.slot? k = some x) : p.numbers.Perm (x.resource.number :: (p.remove k).numbers) :=
  (perm_cons_filter_ne hp (mem_of_slot? h)).map _

/-- All that asking for a lease can come to: the lease, the pool, and the ledger. -/
inductive Lent {ε : Type} (p : Pool K (Numbered R)) (l : Ledger) (k : K) (valid : R → Bool)
    (outcome : Except ε R) : Except ε (Lease K (Numbered R)) → Pool K (Numbered R) → Ledger → Prop
  | shared {x : Slot (Numbered R)} (hx : p.slot? k = some x)
      (hvalid : valid x.resource.value = true) :
      Lent p l k valid outcome (.ok ⟨k, x.generation, x.resource, false⟩)
        (p.put k { x with references := x.references + 1 }) l
  | failed {fault : ε} (ho : outcome = .error fault) : Lent p l k valid outcome (.error fault) p l
  | built {r : R} (ho : outcome = .ok r) :
      Lent p l k valid outcome (.ok ⟨k, p.generation, ⟨l.opened, r⟩, false⟩)
        ({ p with generation := p.generation + 1 }.put k ⟨⟨l.opened, r⟩, 1, p.generation⟩) l.add

theorem lent_get {ε : Type} (p : Pool K (Numbered R)) (l : Ledger) (k : K) (valid : R → Bool)
    (outcome : Except ε R) :
    let (r, p', l') := p.get k (valid ·.value) (Ledger.opening · outcome) l
    Lent p l k valid outcome r p' l' := by
  unfold get
  cases hx : (p.slot? k).filter (valid ·.resource.value) with
  | some x =>
    obtain ⟨hx, hvalid⟩ := Option.filter_eq_some_iff.mp hx
    exact .shared hx hvalid
  | none =>
    cases outcome with
    | error fault => exact .failed rfl
    | ok r => exact .built rfl

end Pool

/-- The lease holds on to generation `g` of what is under `k`. -/
def Lease.holds {K R : Type} [DecidableEq K] (l : Lease K R) (k : K) (g : Nat) : Bool :=
  !l.released && decide (l.key = k ∧ l.generation = g)

/-! ## Leases that are held -/

namespace Pool

variable {K R : Type} [DecidableEq K] {p p' : Pool K R} {held : List (Lease K R)}
  {given : Option R}

/-- The references of every resource are the leases that are held on it, and there is one at
least. -/
structure Counts (p : Pool K R) (held : List (Lease K R)) : Prop where
  distinct : p.Distinct
  counted : ∀ k x, p.slot? k = some x →
    x.references = held.countP (·.holds k x.generation) ∧ 1 ≤ x.references
  /-- Generations are those that were given out. -/
  slots : ∀ k x, p.slot? k = some x → x.generation < p.generation
  leases : ∀ l ∈ held, l.generation < p.generation

theorem Ended.generation_eq {k : K} {g : Nat} (he : p.Ended k g given p') :
    p'.generation = p.generation := by
  cases he <;> rfl

namespace Counts

theorem empty : Counts ({} : Pool K R) [] where
  distinct := List.nodup_nil
  counted _ _ h := by cases h
  slots _ _ h := by cases h
  leases _ h := by cases h

theorem perm (h : p.Counts held) {held' : List (Lease K R)} (hp : held'.Perm held) :
    p.Counts held' where
  distinct := h.distinct
  counted k x hx := by
    rw [hp.countP_eq]
    exact h.counted k x hx
  slots := h.slots
  leases l hl := h.leases l (hp.mem_iff.mp hl)

/-- Nobody holds on to a generation that was not given out. -/
theorem countP_new (h : p.Counts held) (k : K) : held.countP (·.holds k p.generation) = 0 := by
  refine List.countP_eq_zero.mpr fun l hl hholds => ?_
  have hlt := h.leases l hl
  simp [Lease.holds] at hholds
  omega

/-- One more lease on what is there. -/
theorem lend (h : p.Counts held) {k : K} {x : Slot R} (hx : p.slot? k = some x) :
    (p.lend k x).2.Counts ((p.lend k x).1 :: held) := by
  obtain ⟨hcount, hpos⟩ := h.counted k x hx
  have hslot := h.slots k x hx
  refine ⟨h.distinct.put _ _, fun k' y hy => ?_, fun k' y hy => ?_, fun l hl => ?_⟩
  · rcases slot?_put hy with ⟨rfl, rfl⟩ | ⟨hne, hy⟩
    · simp [Pool.lend, Lease.holds, hcount]
    · simpa [Pool.lend, Lease.holds, hne.symm] using h.counted k' y hy
  · rcases slot?_put hy with ⟨rfl, rfl⟩ | ⟨-, hy⟩
    · exact hslot
    · exact h.slots k' y hy
  · rcases List.mem_cons.mp hl with rfl | hl
    · exact hslot
    · exact h.leases l hl

/-- The first lease on what was built, over what was there. -/
theorem install (h : p.Counts held) (k : K) (r : R) :
    (p.install k r).2.Counts ((p.install k r).1 :: held) := by
  refine ⟨h.distinct.put _ _, fun k' y hy => ?_, fun k' y hy => ?_, fun l hl => ?_⟩
  · rcases slot?_put hy with ⟨rfl, rfl⟩ | ⟨hne, hy⟩
    · change 1 = List.countP (·.holds k' p.generation) (⟨k', p.generation, r, false⟩ :: held) ∧ 1 ≤ 1
      rw [List.countP_cons, h.countP_new]
      simp [Lease.holds]
    · simpa [Pool.install, Pool.lend, Lease.holds, hne.symm] using h.counted k' y hy
  · rcases slot?_put hy with ⟨rfl, rfl⟩ | ⟨-, hy⟩
    · exact Nat.lt_succ_self _
    · exact Nat.lt_succ_of_lt (h.slots k' y hy)
  · rcases List.mem_cons.mp hl with rfl | hl
    · exact Nat.lt_succ_self _
    · exact Nat.lt_succ_of_lt (h.leases l hl)

/-- A lease that ends is held no more. -/
theorem ended {l : Lease K R} (h : p.Counts (l :: held)) (hheld : l.released = false)
    (he : p.Ended l.key l.generation given p') : p'.Counts held := by
  have hcounted : ∀ k y, p.slot? k = some y →
      y.references = held.countP (·.holds k y.generation) +
        (if l.key = k ∧ l.generation = y.generation then 1 else 0) ∧ 1 ≤ y.references := by
    intro k y hy
    have hcounted := h.counted k y hy
    rw [List.countP_cons] at hcounted
    simpa [Lease.holds, hheld] using hcounted
  have hleases : ∀ a ∈ held, a.generation < p.generation := fun a ha =>
    h.leases a (List.mem_cons_of_mem _ ha)
  cases he with
  | orphan hgone =>
    refine ⟨h.distinct, fun k y hy => ?_, h.slots, hleases⟩
    have hother : ¬ (l.key = k ∧ l.generation = y.generation) := by
      rintro ⟨rfl, hg⟩
      exact hgone y hy hg.symm
    simpa [hother] using hcounted k y hy
  | @shared x hx hg hmany =>
    refine ⟨h.distinct.put _ _, fun k y hy => ?_, fun k y hy => ?_, hleases⟩
    · rcases slot?_put hy with ⟨rfl, rfl⟩ | ⟨hne, hy⟩
      · have hx := hcounted l.key x hx
        simp only [hg, and_self, if_true] at hx ⊢
        omega
      · simpa [hne.symm] using hcounted k y hy
    · rcases slot?_put hy with ⟨rfl, rfl⟩ | ⟨-, hy⟩
      · exact h.slots l.key x hx
      · exact h.slots k y hy
  | last =>
    refine ⟨h.distinct.remove _, fun k y hy => ?_, fun k y hy => ?_, hleases⟩
    · obtain ⟨hne, hy⟩ := slot?_remove hy
      simpa [hne.symm] using hcounted k y hy
    · exact h.slots k y (slot?_remove hy).2

/-- A lease that has ended may be added. -/
theorem cons_released (h : p.Counts held) {l : Lease K R} (hl : l.released = true)
    (hlt : l.generation < p.generation) : p.Counts (l :: held) where
  distinct := h.distinct
  counted k x hx := by
    simpa [Lease.holds, hl] using h.counted k x hx
  slots := h.slots
  leases a ha := by
    rcases List.mem_cons.mp ha with rfl | ha
    · exact hlt
    · exact h.leases a ha

/-- Of all leases that were given, one ends. -/
theorem ended_set {leases : List (Lease K R)} (h : p.Counts leases) {i : Nat} {l : Lease K R}
    (hl : leases[i]? = some l) (hheld : l.released = false)
    (he : p.Ended l.key l.generation given p') :
    p'.Counts (leases.set i { l with released := true }) := by
  obtain ⟨hi, rfl⟩ := List.getElem?_eq_some_iff.mp hl
  have hgeneration : leases[i].generation < p.generation := h.leases _ (List.getElem_mem hi)
  rw [← he.generation_eq] at hgeneration
  have hothers := (h.perm (List.getElem_cons_eraseIdx_perm hi)).ended hheld he
  have hset := List.set_perm_cons_eraseIdx hi { leases[i] with released := true }
  refine perm ?_ hset
  exact hothers.cons_released rfl hgeneration

end Counts

end Pool

namespace Tenancy

variable {K R ε : Type} [DecidableEq K]

/-! ## Runs -/

structure State (K R : Type) where
  pool : Pool K (Numbered R) := {}
  ledger : Ledger := {}
  /-- Every lease that was given, the first first. -/
  leases : List (Lease K (Numbered R)) := []

inductive Action (K R ε : Type) where
  /-- Ask for a lease; `outcome` is what comes of building, should it come to that. -/
  | get (k : K) (valid : R → Bool) (outcome : Except ε R)
  /-- Close or drop a lease, for the first time or again. -/
  | finish (i : Nat)
  | shutdown

def State.step (s : State K R) : Action K R ε → State K R
  | .get k valid outcome =>
    match s.pool.get k (valid ·.value) (Ledger.opening · outcome) s.ledger with
    | (.ok lease, pool, ledger) => ⟨pool, ledger, s.leases ++ [lease]⟩
    | (.error _, pool, ledger) => ⟨pool, ledger, s.leases⟩
  | .finish i =>
    match s.leases[i]? with
    | none => s
    | some lease =>
      let (given, lease, pool) := s.pool.endLease lease
      ⟨pool, s.ledger.close (given.toList.map (·.number)), s.leases.set i lease⟩
  | .shutdown =>
    let (given, pool) := s.pool.shutdown
    ⟨pool, s.ledger.close (given.map (·.number)), s.leases⟩

def State.run (s : State K R) (actions : List (Action K R ε)) : State K R :=
  actions.foldl State.step s

/-- How many leases hold on to generation `g` of what is under `k`. -/
def State.holders (s : State K R) (k : K) (g : Nat) : Nat := s.leases.countP (·.holds k g)

/-! ## What an action does -/

/-- Asking gives a lease, or leaves everything as it was. -/
theorem step_get (s : State K R) (k : K) (valid : R → Bool) (outcome : Except ε R) :
    (∃ lease p l, s.pool.Lent s.ledger k valid outcome (.ok lease) p l ∧
      s.step (.get k valid outcome) = ⟨p, l, s.leases ++ [lease]⟩) ∨
    s.step (.get k valid outcome) = s := by
  have hlent := Pool.lent_get s.pool s.ledger k valid outcome
  unfold State.step
  dsimp only
  rcases hget : s.pool.get k (valid ·.value) (Ledger.opening · outcome) s.ledger with ⟨r, p, l⟩
  rw [hget] at hlent
  cases r with
  | ok lease => exact .inl ⟨lease, p, l, hlent, rfl⟩
  | error fault =>
    cases hlent
    exact .inr rfl

/-- A lease ends for the first time, or everything stays as it is. -/
theorem step_finish (ε : Type) (s : State K R) (i : Nat) :
    (∃ l given p, s.leases[i]? = some l ∧ l.released = false ∧
      s.pool.Ended l.key l.generation given p ∧
      s.step (.finish i : Action K R ε) = ⟨p, s.ledger.close (given.toList.map (·.number)),
        s.leases.set i { l with released := true }⟩) ∨
    (∀ l, s.leases[i]? = some l → l.released = true) ∧ s.step (.finish i : Action K R ε) = s := by
  cases hl : s.leases[i]? with
  | none => exact .inr ⟨fun l hl => (by cases hl), by simp only [State.step, hl]⟩
  | some l =>
    obtain ⟨hi, rfl⟩ := List.getElem?_eq_some_iff.mp hl
    cases hreleased : s.leases[i].released with
    | false =>
      refine .inl ⟨_, _, _, rfl, hreleased, Pool.ended_release _ _ _, ?_⟩
      simp only [State.step, hl, Pool.endLease, hreleased, Bool.false_eq_true, if_false]
    | true =>
      refine .inr ⟨fun l hl => ?_, ?_⟩
      · rw [← Option.some.inj hl, hreleased]
      · simp only [State.step, hl, Pool.endLease, hreleased, if_true, List.set_getElem_self]
        rfl

theorem step_shutdown (s : State K R) :
    s.step (.shutdown : Action K R ε) =
      ⟨{ s.pool with slots := [] }, s.ledger.close s.pool.numbers, s.leases⟩ := by
  have hnumbers : s.pool.shutdown.1.map (·.number) = s.pool.numbers := List.map_map
  simp only [State.step, hnumbers]
  rfl

/-! ## The invariant -/

structure Inv (s : State K R) : Prop where
  distinct : s.pool.Distinct
  counted : ∀ k x, s.pool.slot? k = some x →
    x.references = s.holders k x.generation ∧ 1 ≤ x.references
  /-- Generations are those that were given out. -/
  slots : ∀ k x, s.pool.slot? k = some x → x.generation < s.pool.generation
  leases : ∀ l ∈ s.leases, l.generation < s.pool.generation
  /-- What is neither in the pool nor closed was replaced. -/
  settled : ∃ replaced, s.ledger.Settles (s.pool.numbers ++ replaced)

namespace Inv

variable {s : State K R}

theorem start : Inv ({} : State K R) where
  distinct := List.nodup_nil
  counted _ _ h := by cases h
  slots _ _ h := by cases h
  leases _ h := by cases h
  settled := ⟨[], Ledger.settles_empty⟩

theorem counts (h : Inv s) : s.pool.Counts s.leases := ⟨h.distinct, h.counted, h.slots, h.leases⟩

theorem of_counts (h : s.pool.Counts s.leases)
    (hsettled : ∃ replaced, s.ledger.Settles (s.pool.numbers ++ replaced)) : Inv s :=
  ⟨h.distinct, h.counted, h.slots, h.leases, hsettled⟩

/-- One more lease on what is there. -/
theorem lent_shared (h : Inv s) {k : K} {x : Slot (Numbered R)} (hx : s.pool.slot? k = some x) :
    Inv ⟨s.pool.put k { x with references := x.references + 1 }, s.ledger,
      s.leases ++ [⟨k, x.generation, x.resource, false⟩]⟩ := by
  obtain ⟨replaced, hsettled⟩ := h.settled
  refine of_counts ((h.counts.lend hx).perm (List.perm_append_singleton _ _)) ⟨replaced, ?_⟩
  exact hsettled.perm ((Pool.numbers_perm h.distinct hx).symm.append_right _)

/-- The first lease on what was built, over what was there. -/
theorem lent_built (h : Inv s) (k : K) (r : R) :
    Inv ⟨{ s.pool with generation := s.pool.generation + 1 }.put k
        ⟨⟨s.ledger.opened, r⟩, 1, s.pool.generation⟩, s.ledger.add,
      s.leases ++ [⟨k, s.pool.generation, ⟨s.ledger.opened, r⟩, false⟩]⟩ := by
  obtain ⟨replaced, hsettled⟩ := h.settled
  refine of_counts ((h.counts.install k _).perm (List.perm_append_singleton _ _)) ?_
  -- what was there is replaced, not closed
  cases hx : s.pool.slot? k with
  | none =>
    refine ⟨replaced, hsettled.add.perm (List.Perm.of_eq ?_)⟩
    have hremove := congrArg Pool.numbers (Pool.remove_of_none hx)
    exact congrArg (s.ledger.opened :: · ++ replaced) hremove
  | some x =>
    refine ⟨x.resource.number :: replaced, hsettled.add.perm ?_⟩
    have hperm := (Pool.numbers_perm h.distinct hx).append_right replaced
    exact (List.perm_middle.trans hperm.symm).cons _

theorem lent (h : Inv s) {k : K} {valid : R → Bool} {outcome : Except ε R}
    {lease : Lease K (Numbered R)} {p : Pool K (Numbered R)} {l : Ledger}
    (hl : s.pool.Lent s.ledger k valid outcome (.ok lease) p l) :
    Inv ⟨p, l, s.leases ++ [lease]⟩ := by
  cases hl with
  | shared hx _ => exact h.lent_shared hx
  | built _ => exact h.lent_built k _

theorem ended (h : Inv s) {i : Nat} {l : Lease K (Numbered R)} (hl : s.leases[i]? = some l)
    (hheld : l.released = false) {given : Option (Numbered R)} {p : Pool K (Numbered R)}
    (he : s.pool.Ended l.key l.generation given p) :
    Inv ⟨p, s.ledger.close (given.toList.map (·.number)),
      s.leases.set i { l with released := true }⟩ := by
  obtain ⟨replaced, hsettled⟩ := h.settled
  refine of_counts (h.counts.ended_set hl hheld he) ⟨replaced, ?_⟩
  cases he with
  | orphan => exact hsettled
  | @shared x hx => exact hsettled.perm ((Pool.numbers_perm h.distinct hx).symm.append_right _)
  | @last x hx =>
    have hperm := (Pool.numbers_perm h.distinct hx).symm.append_right replaced
    exact Ledger.Settles.close (hsettled.perm hperm)

theorem shutdown (h : Inv s) :
    Inv ⟨{ s.pool with slots := [] }, s.ledger.close s.pool.numbers, s.leases⟩ := by
  obtain ⟨replaced, hsettled⟩ := h.settled
  refine ⟨List.nodup_nil, fun k x hx => ?_, fun k x hx => ?_, h.leases, replaced, hsettled.close⟩
  · cases hx
  · cases hx

theorem step (h : Inv s) (action : Action K R ε) : Inv (s.step action) := by
  cases action with
  | get k valid outcome =>
    rcases step_get s k valid outcome with ⟨lease, p, l, hlent, hstep⟩ | hstep <;> rw [hstep]
    · exact h.lent hlent
    · exact h
  | finish i =>
    rcases step_finish ε s i with ⟨l, given, p, hl, hheld, hended, hstep⟩ | ⟨-, hstep⟩ <;>
      rw [hstep]
    · exact h.ended hl hheld hended
    · exact h
  | shutdown =>
    rw [step_shutdown]
    exact h.shutdown

theorem run (h : Inv s) (actions : List (Action K R ε)) : Inv (s.run actions) := by
  induction actions generalizing s with
  | nil => exact h
  | cons action actions ih => exact ih (h.step action)

end Inv

/-! ## What is closed -/

/-- The slot `x` under `k` is closed by an action: with the last lease on its generation, or on
shutdown. -/
def State.Due (s : State K R) (k : K) (x : Slot (Numbered R)) (action : Action K R ε) : Prop :=
  (k, x) ∈ s.pool.slots ∧
    match action with
    | .get _ _ _ => False
    | .finish i => s.holders k x.generation = 1 ∧
        ∃ l, s.leases[i]? = some l ∧ l.holds k x.generation = true
    | .shutdown => True

/-- What had generation `g` under `k` is not there: it was replaced, shut down or given up. -/
def State.Gone (s : State K R) (k : K) (g : Nat) : Prop :=
  ∀ x, (k, x) ∈ s.pool.slots → x.generation ≠ g

/-- At the end of a lease only the slot of its key and generation can be due, if that has no
other reference. -/
theorem Inv.due_finish_iff (ε : Type) {s : State K R} (h : Inv s) {i : Nat}
    {l : Lease K (Numbered R)} (hl : s.leases[i]? = some l) (hheld : l.released = false) (k : K)
    (x : Slot (Numbered R)) :
    s.Due k x (.finish i : Action K R ε) ↔
      k = l.key ∧ s.pool.slot? l.key = some x ∧ x.generation = l.generation ∧ x.references ≤ 1 := by
  have hholds : l.holds k x.generation = true ↔ l.key = k ∧ l.generation = x.generation := by
    simp [Lease.holds, hheld]
  constructor
  · rintro ⟨hx, hone, l', hl', hk⟩
    obtain rfl := Option.some.inj (hl.symm.trans hl')
    obtain ⟨rfl, hg⟩ := hholds.mp hk
    have hslot := h.distinct.slot?_of_mem hx
    obtain ⟨hcount, -⟩ := h.counted _ x hslot
    exact ⟨rfl, hslot, hg.symm, by omega⟩
  · rintro ⟨rfl, hslot, hg, hlast⟩
    obtain ⟨hcount, hpos⟩ := h.counted _ x hslot
    exact ⟨Pool.mem_of_slot? hslot, by omega, l, hl, hholds.mpr ⟨rfl, hg.symm⟩⟩

theorem Inv.mem_closings_step {s : State K R} (h : Inv s) (action : Action K R ε) (n : Nat) :
    n ∈ (s.step action).ledger.closings ↔
      n ∈ s.ledger.closings ∨ ∃ k x, s.Due k x action ∧ x.resource.number = n := by
  cases action with
  | get k valid outcome =>
    have hnever : ¬ ∃ k' x, s.Due k' x (.get k valid outcome) ∧ x.resource.number = n := by
      rintro ⟨k', x, ⟨-, hdue⟩, -⟩
      exact hdue
    have hclosings : (s.step (.get k valid outcome)).ledger.closings = s.ledger.closings := by
      rcases step_get s k valid outcome with ⟨lease, p, l, hlent, hstep⟩ | hstep <;> rw [hstep]
      cases hlent <;> rfl
    rw [hclosings, or_iff_left hnever]
  | shutdown =>
    rw [step_shutdown, or_comm]
    simp only [Ledger.close, List.mem_append, Pool.numbers, List.mem_map, Prod.exists, State.Due,
      and_true]
  | finish i =>
    rcases step_finish ε s i with ⟨l, given, p, hl, hheld, hended, hstep⟩ | ⟨hover, hstep⟩
    · have hdue := h.due_finish_iff ε hl hheld
      rw [hstep, or_comm]
      simp only [Ledger.close, List.mem_append]
      refine or_congr_left ?_
      simp only [hdue]
      cases hended with
      | orphan hgone =>
        refine ⟨fun hn => (by cases hn), ?_⟩
        rintro ⟨k, x, ⟨rfl, hx, hg, -⟩, -⟩
        exact absurd hg (hgone x hx)
      | @shared y hy hg hmany =>
        refine ⟨fun hn => (by cases hn), ?_⟩
        rintro ⟨k, x, ⟨rfl, hx, -, hlast⟩, -⟩
        obtain rfl := Option.some.inj (hx.symm.trans hy)
        omega
      | @last y hy hg hlast =>
        constructor
        · intro hn
          exact ⟨_, y, ⟨rfl, hy, hg, hlast⟩, (List.mem_singleton.mp hn).symm⟩
        · rintro ⟨k, x, ⟨rfl, hx, -, -⟩, rfl⟩
          obtain rfl := Option.some.inj (hx.symm.trans hy)
          exact List.mem_singleton_self _
    · have hnever : ¬ ∃ k x, s.Due k x (.finish i : Action K R ε) ∧ x.resource.number = n := by
        rintro ⟨k, x, ⟨-, -, l, hl, hholds⟩, -⟩
        simp [Lease.holds, hover l hl] at hholds
      rw [hstep, or_iff_left hnever]

/-! ## What is gone -/

/-- What is under a key after an action was there before, or is of a new generation. -/
theorem slot?_step (s : State K R) (action : Action K R ε) {k : K} {x : Slot (Numbered R)}
    (hx : (s.step action).pool.slot? k = some x) :
    (∃ y, s.pool.slot? k = some y ∧ y.generation = x.generation) ∨
      x.generation = s.pool.generation := by
  cases action with
  | get k' valid outcome =>
    rcases step_get s k' valid outcome with ⟨lease, p, l, hlent, hstep⟩ | hstep <;> rw [hstep] at hx
    · cases hlent with
      | shared hy _ =>
        rcases Pool.slot?_put hx with ⟨rfl, rfl⟩ | ⟨-, hx⟩
        · exact .inl ⟨_, hy, rfl⟩
        · exact .inl ⟨x, hx, rfl⟩
      | built _ =>
        rcases Pool.slot?_put hx with ⟨rfl, rfl⟩ | ⟨-, hx⟩
        · exact .inr rfl
        · exact .inl ⟨x, hx, rfl⟩
    · exact .inl ⟨x, hx, rfl⟩
  | finish i =>
    rcases step_finish ε s i with ⟨l, given, p, -, -, hended, hstep⟩ | ⟨-, hstep⟩ <;>
      rw [hstep] at hx
    · cases hended with
      | orphan _ => exact .inl ⟨x, hx, rfl⟩
      | shared hy _ _ =>
        rcases Pool.slot?_put hx with ⟨rfl, rfl⟩ | ⟨-, hx⟩
        · exact .inl ⟨_, hy, rfl⟩
        · exact .inl ⟨x, hx, rfl⟩
      | last _ _ _ => exact .inl ⟨x, (Pool.slot?_remove hx).2, rfl⟩
    · exact .inl ⟨x, hx, rfl⟩
  | shutdown =>
    rw [step_shutdown] at hx
    cases hx

theorem generation_le_step (s : State K R) (action : Action K R ε) :
    s.pool.generation ≤ (s.step action).pool.generation := by
  cases action with
  | get k valid outcome =>
    rcases step_get s k valid outcome with ⟨lease, p, l, hlent, hstep⟩ | hstep <;> rw [hstep]
    cases hlent with
    | shared _ _ => exact le_rfl
    | built _ => exact Nat.le_succ _
  | finish i =>
    rcases step_finish ε s i with ⟨l, given, p, -, -, hended, hstep⟩ | ⟨-, hstep⟩ <;>
      rw [hstep]
    cases hended <;> exact le_rfl
  | shutdown =>
    rw [step_shutdown]

theorem Inv.gone_step {s : State K R} (h : Inv s) {k : K} {g : Nat} (hgone : s.Gone k g)
    (hg : g < s.pool.generation) (action : Action K R ε) : (s.step action).Gone k g := by
  intro x hx
  rcases slot?_step s action ((h.step action).distinct.slot?_of_mem hx) with ⟨y, hy, heq⟩ | hnew
  · exact heq ▸ hgone y (Pool.mem_of_slot? hy)
  · omega

theorem Inv.gone_run {s : State K R} (h : Inv s) {k : K} {g : Nat} (hgone : s.Gone k g)
    (hg : g < s.pool.generation) (actions : List (Action K R ε)) : (s.run actions).Gone k g := by
  induction actions generalizing s with
  | nil => exact hgone
  | cons action actions ih =>
    exact ih (h.step action) (h.gone_step hgone hg action)
      (hg.trans_le (generation_le_step s action))

/-- A lease keeps its key and its generation. -/
theorem lease_step {s : State K R} {i : Nat} {l : Lease K (Numbered R)}
    (hl : s.leases[i]? = some l) (action : Action K R ε) :
    ∃ l', (s.step action).leases[i]? = some l' ∧ l'.key = l.key ∧ l'.generation = l.generation := by
  have hi : i < s.leases.length := (List.getElem?_eq_some_iff.mp hl).1
  cases action with
  | get k valid outcome =>
    rcases step_get s k valid outcome with ⟨lease, p, r, -, hstep⟩ | hstep <;> rw [hstep]
    · exact ⟨l, by rw [List.getElem?_append_left hi, hl], rfl, rfl⟩
    · exact ⟨l, hl, rfl, rfl⟩
  | finish j =>
    rcases step_finish ε s j with ⟨x, given, p, hx, -, -, hstep⟩ | ⟨-, hstep⟩ <;> rw [hstep]
    · by_cases hj : j = i
      · subst hj
        obtain rfl := Option.some.inj (hl.symm.trans hx)
        exact ⟨_, List.getElem?_set_self hi, rfl, rfl⟩
      · exact ⟨l, by rw [List.getElem?_set_ne hj, hl], rfl, rfl⟩
    · exact ⟨l, hl, rfl, rfl⟩
  | shutdown =>
    rw [step_shutdown]
    exact ⟨l, hl, rfl, rfl⟩

theorem lease_run {s : State K R} {i : Nat} {l : Lease K (Numbered R)}
    (hl : s.leases[i]? = some l) (actions : List (Action K R ε)) :
    ∃ l', (s.run actions).leases[i]? = some l' ∧ l'.key = l.key ∧
      l'.generation = l.generation := by
  induction actions generalizing s l with
  | nil => exact ⟨l, hl, rfl, rfl⟩
  | cons action actions ih =>
    obtain ⟨x, hx, hkey, hg⟩ := lease_step hl action
    obtain ⟨l', hl', hkey', hg'⟩ := ih hx
    exact ⟨l', hl', hkey'.trans hkey, hg'.trans hg⟩

/-- The end of a lease on what is gone changes nothing in the pool and closes nothing. -/
theorem step_finish_gone {s : State K R} {i : Nat} {l : Lease K (Numbered R)}
    (hl : s.leases[i]? = some l) (hgone : s.Gone l.key l.generation) :
    (s.step (.finish i : Action K R ε)).pool = s.pool ∧
      (s.step (.finish i : Action K R ε)).ledger = s.ledger := by
  rcases step_finish ε s i with ⟨x, given, p, hx, -, hended, hstep⟩ | ⟨-, hstep⟩ <;> rw [hstep]
  · obtain rfl := Option.some.inj (hl.symm.trans hx)
    cases hended with
    | orphan _ => exact ⟨rfl, rfl⟩
    | shared hy hg _ => exact absurd hg (hgone _ (Pool.mem_of_slot? hy))
    | last hy hg _ => exact absurd hg (hgone _ (Pool.mem_of_slot? hy))
  · exact ⟨rfl, rfl⟩

/-! ## Reference counting -/

/-- After any actions, every slot has as many references as leases hold on to it, and at least
one; what is due at an action is what it closes, so that nothing is closed twice; leases on what
is gone end without a trace, however late; and a failure to build changes nothing. -/
theorem references_counted (actions : List (Action K R ε)) :
    let s : State K R := State.run {} actions
    (∀ k x, (k, x) ∈ s.pool.slots →
      x.references = s.holders k x.generation ∧ 1 ≤ x.references) ∧
    (s.ledger.closings.Nodup ∧ ∀ (action : Action K R ε) n,
      n ∈ (s.step action).ledger.closings ↔
        n ∈ s.ledger.closings ∨ ∃ k x, s.Due k x action ∧ x.resource.number = n) ∧
    (∀ i l, s.leases[i]? = some l → s.Gone l.key l.generation →
      ∀ later : List (Action K R ε),
        ((s.run later).step (.finish i : Action K R ε)).pool = (s.run later).pool ∧
        ((s.run later).step (.finish i : Action K R ε)).ledger = (s.run later).ledger) ∧
    ∀ k valid (fault : ε), (∀ x, (k, x) ∈ s.pool.slots → valid x.resource.value = false) →
      s.step (.get k valid (.error fault)) = s := by
  intro s
  have hinv : Inv s := Inv.start.run actions
  obtain ⟨replaced, hsettled⟩ := hinv.settled
  refine ⟨fun k x hx => hinv.counted k x (hinv.distinct.slot?_of_mem hx),
    ⟨hsettled.nodup_closings, hinv.mem_closings_step⟩, fun i l hl hgone later => ?_,
    fun k valid fault hstale => ?_⟩
  · obtain ⟨l', hl', hkey, hg⟩ := lease_run hl later
    have hlt := hinv.leases l (List.mem_of_getElem? hl)
    have hlater := hinv.gone_run hgone hlt later
    rw [← hkey, ← hg] at hlater
    exact step_finish_gone hl' hlater
  · rcases step_get s k valid (.error fault) with ⟨lease, p, l, hlent, -⟩ | hstep
    · cases hlent with
      | shared hx hvalid =>
        rw [hstale _ (Pool.mem_of_slot? hx)] at hvalid
        cases hvalid
      | built ho => cases ho
    · exact hstep

/-- A resource that was replaced is not closed, nor is the one that replaced it with the lease on
the first. -/
example :
    let actions : List (Action String Nat Unit) :=
      [.get "k" (· ≠ 0) (.ok 5), .get "k" (· ≠ 5) (.ok 6), .finish 0, .finish 0]
    State.run {} actions =
    ⟨⟨[("k", ⟨⟨1, 6⟩, 1, 1⟩)], 2⟩, ⟨2, []⟩,
      [⟨"k", 0, ⟨0, 5⟩, true⟩, ⟨"k", 1, ⟨1, 6⟩, false⟩]⟩ := rfl

end Tenancy

end NameDirectory
