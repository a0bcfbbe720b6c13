import Mathlib.Logic.Relation
import NameDirectory.Proofs.Canonical
import NameDirectory.Proofs.Plans

/-!
# What is claimed while a value is read

Bytes are claimed before they are read, and the room of a container before its first element.  So
at each moment the count of claimed bytes is made up of what was read, of what is claimed and about
to be read, and of the elements that were announced and not begun.  No container is given room
beyond the budget, however many there are inside of each other.

* `Point`, `Point.step`: the moments of a reading, and how one leads to the next;
* `Point.reaches_ended`: a reading goes through them to the end that its decoder comes to;
* `Balanced.step`: no step upsets the count;
* `decoding_accounted`: what holds all the time while values and packets are read.
-/

namespace NameDirectory.Wire

/-! ## The moments of a reading -/

structure Container (β γ : Type) : Type 1 where
  size : Nat
  /-- How many elements were announced and not begun. -/
  left : Nat
  element : Plan β
  /-- The elements that were read, in reverse. -/
  done : List β
  next : List β → Plan γ

/-- The containers around what is being read, the innermost first: what is read is an element of it,
and the outermost is part of the whole. -/
inductive Opened (α : Type) : Type → Type 1
  | whole : Opened α α
  | within {β γ : Type} (container : Container β γ) (outer : Opened α γ) : Opened α β

inductive Point (α : Type) : Type 1
  /-- The plan is carried out. -/
  | doing {β : Type} (plan : Plan β) (opened : Opened α β) (cursor : Cursor)
  /-- The next `n` bytes are claimed, and not read. -/
  | reading {β : Type} (n : Nat) (next : Bytes → Plan β) (opened : Opened α β) (cursor : Cursor)
  /-- The next element of the innermost container is to be begun, or the container closed. -/
  | between {β γ : Type} (container : Container β γ) (outer : Opened α γ) (cursor : Cursor)
  | ended (result : Except DecodeFault (α × Cursor))

variable {α β γ : Type}

namespace Opened

def announced : {β : Type} → Opened α β → Nat
  | _, whole => 0
  | _, within k outer => k.size * k.left + outer.announced

def containers : {β : Type} → Opened α β → List (Nat × Nat)
  | _, whole => []
  | _, within k outer => (k.size, k.done.length + 1 + k.left) :: outer.containers

end Opened

namespace Point

def start (plan : Plan α) (bytes : Bytes) : Point α := doing plan .whole ⟨bytes, 0⟩

def step : Point α → Option (Point α)
  | doing (.done a) .whole c => some (ended (.ok (a, c)))
  | doing (.done b) (.within k outer) c => some (between { k with done := b :: k.done } outer c)
  | doing (.fail fault) _ _ => some (ended (.error fault))
  | doing (.read n next) opened c =>
    match Decoder.claim n c with
    | .ok ((), c) => some (reading n next opened c)
    | .error fault => some (ended (.error fault))
  | doing (.elements size n element next) outer c =>
    match Decoder.claim (n * size) c with
    | .ok ((), c) => some (between ⟨size, n, element, [], next⟩ outer c)
    | .error fault => some (ended (.error fault))
  | reading n next opened c =>
    match Decoder.take n c with
    | .ok (b, c) => some (doing (next b) opened c)
    | .error fault => some (ended (.error fault))
  | between ⟨_, 0, _, done, next⟩ outer c => some (doing (next done.reverse) outer c)
  | between ⟨size, left + 1, element, done, next⟩ outer c =>
    some (doing element (.within ⟨size, left, element, done, next⟩ outer)
      { c with claimed := c.claimed - size })
  | ended _ => none

abbrev Reaches : Point α → Point α → Prop := Relation.ReflTransGen fun p q => p.step = some q

/-- The bytes that are left and the count of claimed ones, unless the reading has failed. -/
def cursor? : Point α → Option Cursor
  | doing _ _ c | reading _ _ _ c | between _ _ c | ended (.ok (_, c)) => some c
  | ended (.error _) => none

def pending : Point α → Nat
  | reading n .. => n
  | doing .. | between .. | ended _ => 0

/-- The room of the elements that were announced and not begun, in all containers that are open. -/
def announced : Point α → Nat
  | doing _ opened _ | reading _ _ opened _ => opened.announced
  | between k outer _ => k.size * k.left + outer.announced
  | ended _ => 0

/-- What is given back next. -/
def refund : Point α → Nat
  | between k _ _ => if k.left = 0 then 0 else k.size
  | doing .. | reading .. | ended _ => 0

def containers : Point α → List (Nat × Nat)
  | doing _ opened _ | reading _ _ opened _ => opened.containers
  | between k outer _ => (k.size, k.done.length + k.left) :: outer.containers
  | ended _ => []

/-! ## The moments are those of the decoder -/

/-- The reading comes from `p` to where `next` says if it has a `result`, and else to its end. -/
def Follows (p : Point α) (result : Except DecodeFault (β × Cursor))
    (next : β → Cursor → Point α) : Prop :=
  match result with
  | .ok (b, c) => Reaches p (next b c)
  | .error fault => Reaches p (ended (.error fault))

namespace Follows

variable {p q : Point α} {c : Cursor}

theorem after {result : Except DecodeFault (β × Cursor)} {next : β → Cursor → Point α}
    (h : Reaches p q) (hq : Follows q result next) : Follows p result next := by
  cases result with
  | ok x => exact h.trans hq
  | error fault => exact h.trans hq

theorem bind {d : Decoder β} {f : β → Decoder γ} {next : β → Cursor → Point α}
    {last : γ → Cursor → Point α} (h : Follows p (d c) next)
    (hf : ∀ b c, Follows (next b c) (f b c) last) : Follows p ((d >>= f) c) last := by
  cases hd : d c with
  | error fault =>
    rw [hd] at h
    rw [Decoder.bind_of_error hd]
    exact h
  | ok x =>
    rw [hd] at h
    rw [Decoder.bind_of_ok hd]
    exact after h (hf x.1 x.2)

theorem claim_read (n : Nat) (next : Bytes → Plan β) (opened : Opened α β) (c : Cursor) :
    Follows (doing (.read n next) opened c) (Decoder.claim n c)
      (fun _ c => reading n next opened c) := by
  cases hclaim : Decoder.claim n c <;> exact .single (by simp only [step, hclaim])

theorem claim_elements (size n : Nat) (element : Plan β) (next : List β → Plan γ)
    (outer : Opened α γ) (c : Cursor) :
    Follows (doing (.elements size n element next) outer c) (Decoder.claim (n * size) c)
      (fun _ c => between ⟨size, n, element, [], next⟩ outer c) := by
  cases hclaim : Decoder.claim (n * size) c <;> exact .single (by simp only [step, hclaim])

theorem take (n : Nat) (next : Bytes → Plan β) (opened : Opened α β) (c : Cursor) :
    Follows (reading n next opened c) (Decoder.take n c) (fun b c => doing (next b) opened c) := by
  cases htake : Decoder.take n c <;> exact .single (by simp only [step, htake])

/-- The elements of a container are gone through as its decoder does it, if each element is. -/
theorem elements {element : Plan β}
    (helement : ∀ (opened : Opened α β) (c : Cursor),
      Follows (doing element opened c) (element.decoder c) (fun b c => doing (.done b) opened c))
    (size left : Nat) (done : List β) (next : List β → Plan γ) (outer : Opened α γ) (c : Cursor) :
    Follows (between ⟨size, left, element, done, next⟩ outer c)
      (Decoder.elements size element.decoder left done c)
      (fun items c => doing (next items) outer c) := by
  induction left generalizing done c with
  | zero => exact .single rfl
  | succ left ih =>
    rw [Decoder.elements_succ]
    refine after (.single rfl) ((helement (.within ⟨size, left, element, done, next⟩ outer) _).bind
      fun b c => ?_)
    exact after (.single rfl) (ih (b :: done) c)

theorem decoder (plan : Plan β) (opened : Opened α β) (c : Cursor) :
    Follows (doing plan opened c) (plan.decoder c) (fun b c => doing (.done b) opened c) := by
  induction plan generalizing c with
  | done b => exact .refl
  | fail fault => exact .single rfl
  | read n next ih =>
    exact (claim_read n next opened c).bind fun _ c => (take n next opened c).bind fun b c =>
      ih b opened c
  | elements size n element next helement ih =>
    exact (claim_elements size n element next opened c).bind fun _ c =>
      (elements helement size n [] next opened c).bind fun items c => ih items opened c

end Follows

theorem reaches_ended (plan : Plan α) (bytes : Bytes) :
    Reaches (start plan bytes) (ended (plan.decoder ⟨bytes, 0⟩)) := by
  have hfollows := Follows.decoder plan .whole ⟨bytes, 0⟩
  cases hresult : plan.decoder ⟨bytes, 0⟩ with
  | ok x =>
    rw [hresult] at hfollows
    exact hfollows.tail rfl
  | error fault =>
    rw [hresult] at hfollows
    exact hfollows

end Point

/-! ## The count of claimed bytes -/

/-- The count of claimed bytes is made up of those that were read, of those that are claimed and not
read, and of the room of the elements that were announced and not begun; neither it nor the room of
any container is beyond the budget. -/
structure Balanced (bytes : Bytes) (p : Point α) (c : Cursor) : Prop where
  count : ∃ consumed, bytes = consumed ++ c.rest ∧
    c.claimed = consumed.length + p.pending + p.announced
  claimed_le : c.claimed ≤ budget
  room_le : ∀ k ∈ p.containers, k.1 * k.2 ≤ budget

namespace Balanced

variable {bytes : Bytes} {p q : Point α} {c : Cursor}

theorem start (plan : Plan α) (bytes : Bytes) :
    Balanced bytes (Point.start plan bytes) ⟨bytes, 0⟩ where
  count := ⟨[], rfl, rfl⟩
  claimed_le := Nat.zero_le _
  room_le := nofun

theorem refund_le (h : Balanced bytes p c) : p.refund ≤ c.claimed := by
  obtain ⟨consumed, -, hclaimed⟩ := h.count
  cases p with
  | between k outer c =>
    simp only [Point.refund]
    split
    · exact Nat.zero_le _
    · next hleft =>
      have hroom : k.size ≤ k.size * k.left := Nat.le_mul_of_pos_right _ (Nat.pos_of_ne_zero hleft)
      simp only [Point.announced] at hclaimed
      omega
  | doing | reading | ended => exact Nat.zero_le _

theorem announced_le (h : Balanced bytes p c) : p.announced ≤ budget := by
  obtain ⟨consumed, -, hclaimed⟩ := h.count
  have hle := h.claimed_le
  omega

/-- Nothing is claimed or read, and no container opened. -/
theorem moved (h : Balanced bytes p c)
    (hcount : q.pending + q.announced = p.pending + p.announced)
    (hopen : q.containers ⊆ p.containers) : Balanced bytes q c where
  count := by
    obtain ⟨consumed, hbytes, hclaimed⟩ := h.count
    exact ⟨consumed, hbytes, by omega⟩
  claimed_le := h.claimed_le
  room_le k hk := h.room_le k (hopen hk)

theorem claimed {n : Nat} {c' : Cursor} (h : Balanced bytes p c)
    (hclaim : Decoder.claim n c = .ok ((), c'))
    (hcount : q.pending + q.announced = p.pending + p.announced + n)
    (hopen : ∀ k ∈ q.containers, k.1 * k.2 = n ∨ k ∈ p.containers) : Balanced bytes q c' := by
  obtain ⟨rfl, hle⟩ := Decoder.le_of_claim hclaim
  obtain ⟨consumed, hbytes, hclaimed⟩ := h.count
  dsimp only at hle
  refine ⟨⟨consumed, hbytes, ?_⟩, hle, fun k hk => ?_⟩
  · dsimp only
    omega
  · rcases hopen k hk with hroom | hk
    · omega
    · exact h.room_le k hk

theorem taken {n : Nat} {b : Bytes} {c' : Cursor} (h : Balanced bytes p c)
    (htake : Decoder.take n c = .ok (b, c'))
    (hcount : q.pending + q.announced + n = p.pending + p.announced)
    (hopen : q.containers ⊆ p.containers) : Balanced bytes q c' := by
  obtain ⟨hlength, hrest, hsame⟩ := Decoder.eq_append_of_take htake
  obtain ⟨consumed, hbytes, hclaimed⟩ := h.count
  refine ⟨⟨consumed ++ b, ?_, ?_⟩, hsame ▸ h.claimed_le, fun k hk => h.room_le k (hopen hk)⟩
  · rw [hbytes, hrest, List.append_assoc]
  · rw [List.length_append]
    omega

theorem refunded {n : Nat} (h : Balanced bytes p c)
    (hcount : q.pending + q.announced + n = p.pending + p.announced)
    (hopen : q.containers ⊆ p.containers) :
    Balanced bytes q { c with claimed := c.claimed - n } := by
  obtain ⟨consumed, hbytes, hclaimed⟩ := h.count
  have hle := h.claimed_le
  refine ⟨⟨consumed, hbytes, ?_⟩, ?_, fun k hk => h.room_le k (hopen hk)⟩
  · dsimp only
    omega
  · dsimp only
    omega

theorem step (h : ∀ c, p.cursor? = some c → Balanced bytes p c) (hstep : p.step = some q) :
    ∀ c, q.cursor? = some c → Balanced bytes q c := by
  cases p with
  | doing plan opened c =>
    have hc := h c rfl
    cases plan with
    | done b =>
      cases opened with
      | whole =>
        cases hstep
        rintro _ ⟨⟩
        exact hc.moved rfl (List.Subset.refl _)
      | within k outer =>
        cases hstep
        rintro _ ⟨⟩
        exact hc.moved rfl (List.Subset.refl _)
    | fail fault =>
      cases hstep
      exact nofun
    | read n next =>
      rw [Point.step] at hstep
      split at hstep
      · next c' hclaim =>
        cases hstep
        rintro _ ⟨⟩
        refine hc.claimed hclaim ?_ fun k hk => .inr hk
        simp [Point.pending, Point.announced, Nat.add_comm]
      · cases hstep
        exact nofun
    | elements size n element next =>
      rw [Point.step] at hstep
      split at hstep
      · next c' hclaim =>
        cases hstep
        rintro _ ⟨⟩
        refine hc.claimed hclaim ?_ ?_
        · simp [Point.pending, Point.announced, Nat.mul_comm, Nat.add_comm]
        · rintro k (_ | ⟨_, hk⟩)
          · exact .inl (by simp [Nat.mul_comm])
          · exact .inr hk
      · cases hstep
        exact nofun
  | reading n next opened c =>
    rw [Point.step] at hstep
    split at hstep
    · next b c' htake =>
      cases hstep
      rintro _ ⟨⟩
      refine (h c rfl).taken htake ?_ (List.Subset.refl _)
      simp [Point.pending, Point.announced, Nat.add_comm]
    · cases hstep
      exact nofun
  | between k outer c =>
    obtain ⟨size, left, element, done, next⟩ := k
    cases left with
    | zero =>
      cases hstep
      rintro _ ⟨⟩
      refine (h c rfl).moved ?_ (List.subset_cons_self _ _)
      simp [Point.pending, Point.announced]
    | succ left =>
      cases hstep
      rintro _ ⟨⟩
      -- the element that is begun counts as one of the container still
      have hopen : done.length + 1 + left = done.length + (left + 1) := by omega
      refine (h c rfl).refunded ?_ fun k hk => ?_
      · simp only [Point.pending, Point.announced, Opened.announced, Nat.mul_add]
        omega
      · simpa only [Point.containers, Opened.containers, hopen] using hk
  | ended result => cases hstep

theorem reaches (plan : Plan α) (bytes : Bytes) (h : Point.Reaches (Point.start plan bytes) p) :
    ∀ c, p.cursor? = some c → Balanced bytes p c := by
  induction h with
  | refl =>
    rintro _ ⟨⟩
    exact start plan bytes
  | tail _ hstep ih => exact step ih hstep

end Balanced

/-! ## Values and packets -/

/-- What is read with `plan` is read as `d` reads it, and all that is claimed meanwhile is accounted
for. -/
structure Accounted (d : Decoder α) (plan : Plan α) (bytes : Bytes) : Prop where
  decoder_eq : plan.decoder = d
  ends : Point.Reaches (.start plan bytes) (.ended (d ⟨bytes, 0⟩))
  /-- While the reading goes on, the count is balanced; -/
  balanced : ∀ p, Point.Reaches (.start plan bytes) p → ∀ c, p.cursor? = some c → Balanced bytes p c
  /-- no more is given back than is claimed; -/
  refund_le : ∀ p, Point.Reaches (.start plan bytes) p → ∀ c, p.cursor? = some c →
    p.refund ≤ c.claimed
  /-- and the elements announced and not begun, of all containers, do not take up more than the
  budget. -/
  announced_le : ∀ p, Point.Reaches (.start plan bytes) p → ∀ c, p.cursor? = some c →
    p.announced ≤ budget

theorem Accounted.of_decoder {d : Decoder α} {plan : Plan α} (h : plan.decoder = d)
    (bytes : Bytes) : Accounted d plan bytes where
  decoder_eq := h
  ends := h ▸ Point.reaches_ended plan bytes
  balanced _ hp := Balanced.reaches plan bytes hp
  refund_le _ hp c hc := (Balanced.reaches plan bytes hp c hc).refund_le
  announced_le _ hp c hc := (Balanced.reaches plan bytes hp c hc).announced_le

/-- Whatever bytes a value or a packet is read from, the count of claimed bytes is balanced all the
time. -/
theorem decoding_accounted (bytes : Bytes) :
    Accounted Value.decode Value.plan bytes ∧ Accounted Packet.decode Packet.plan bytes :=
  ⟨.of_decoder Value.decoder_plan bytes, .of_decoder Packet.decoder_plan bytes⟩

/-- A list of too many objects is refused when they are announced; with one less, the first of them is
missed. -/
example :
    let announced (n : Nat) : Bytes := bigEndian 4 1 ++ bigEndian 4 5 ++ bigEndian 8 n
    Value.read (announced 524288) = .error .overBudget ∧
      Value.read (announced 524287) = .error (.unexpectedEnd 4) := by decide +kernel

end NameDirectory.Wire
