import NameDirectory.Proofs.RoundTrip

/-!
# The count of claimed bytes

While a value is read a count goes up and down: a number claims its width, a container
the room of all its elements once their number is known, and the room of an element is
given back before that element is read.

* `Value.moves` are the moves of the count for a value, `peak` is the highest it gets;
* `Counts` says where moves take the count, for parts that are put together by
  `Counts.append`;
* `Value.peak_moves`: the highest is `Value.need` above where the count started.
-/

namespace NameDirectory.Wire

variable {α : Type}

/-! ## Moves of the count -/

inductive Move where
  | claim (n : Nat)
  | giveBack (n : Nat)

def Move.apply (count : Nat) : Move → Nat
  | claim n => count + n
  | giveBack n => count - n

/-- Where the count stands after all moves. -/
def settled (count : Nat) : List Move → Nat
  | [] => count
  | m :: ms => settled (m.apply count) ms

/-- The highest value that the count takes. -/
def peak (count : Nat) : List Move → Nat
  | [] => count
  | m :: ms => max count (peak (m.apply count) ms)

theorem le_peak (c : Nat) (ms : List Move) : c ≤ peak c ms := by
  cases ms with
  | nil => simp [peak]
  | cons m ms => exact Nat.le_max_left c _

theorem settled_append (c : Nat) (ms ns : List Move) :
    settled c (ms ++ ns) = settled (settled c ms) ns := by
  induction ms generalizing c with
  | nil => rfl
  | cons m ms ih => simp [settled, ih]

theorem peak_append (c : Nat) (ms ns : List Move) :
    peak c (ms ++ ns) = max (peak c ms) (peak (settled c ms) ns) := by
  induction ms generalizing c with
  | nil =>
    have hle := le_peak c ns
    simp only [List.nil_append, peak, settled]
    omega
  | cons m ms ih => simp only [List.cons_append, peak, settled, ih, Nat.max_assoc]

/-- From wherever it starts, the count gets `need` higher, and ends `length` higher. -/
structure Counts (ms : List Move) (need length : Nat) : Prop where
  peak : ∀ c, Wire.peak c ms = c + need
  settled : ∀ c, Wire.settled c ms = c + length

namespace Counts

theorem claim (n : Nat) : Counts [.claim n] n n := by
  constructor
  · intro c
    simp only [Wire.peak, Move.apply]
    omega
  · intro c
    rfl

theorem append {ms ns : List Move} {n n' l l' : Nat} (h : Counts ms n l) (h' : Counts ns n' l') :
    Counts (ms ++ ns) (max n (l + n')) (l + l') := by
  constructor
  · intro c
    rw [peak_append, h.peak, h.settled, h'.peak]
    omega
  · intro c
    rw [settled_append, h.settled, h'.settled]
    omega

theorem length_le {ms : List Move} {n l : Nat} (h : Counts ms n l) : l ≤ n := by
  have hend : Wire.settled 0 ms ≤ Wire.peak 0 ms := by
    rw [← List.append_nil ms, peak_append, List.append_nil]
    simp only [Wire.peak]
    omega
  rw [h.peak, h.settled] at hend
  omega

theorem mono {ms : List Move} {n n' l l' : Nat} (h : Counts ms n l) (hn : n = n') (hl : l = l') :
    Counts ms n' l' := by
  subst hn hl
  exact h

end Counts

/-! ### Texts and containers -/

def byteStringMoves (b : Bytes) : List Move := [.claim 8, .claim b.length]

def textMoves (s : String) : List Move := byteStringMoves (Text.utf8 s)

/-- Each element is read once its room was given back. -/
def elementMoves (size : Nat) (moves : α → List Move) (items : List α) : List Move :=
  items.flatMap fun a => .giveBack size :: moves a

def listMoves (size : Nat) (moves : α → List Move) (items : List α) : List Move :=
  .claim 8 :: .claim (items.length * size) :: elementMoves size moves items

theorem counts_byteString (b : Bytes) :
    Counts (byteStringMoves b) (encodeByteString b).length (encodeByteString b).length := by
  refine ((Counts.claim 8).append (Counts.claim b.length)).mono ?_ ?_
  · simp only [encodeByteString, List.length_append, length_bigEndian]
    omega
  · simp [encodeByteString]

theorem counts_text (s : String) :
    Counts (textMoves s) (encodeText s).length (encodeText s).length :=
  counts_byteString (Text.utf8 s)

/-- The room of the elements is claimed when the first of them is read. -/
theorem counts_elements (size : Nat) {moves : α → List Move} {encode : α → Bytes} {need : α → Nat}
    {items : List α} (h : ∀ a ∈ items, Counts (moves a) (need a) (encode a).length) (c : Nat) :
    peak (c + items.length * size) (elementMoves size moves items) =
        c + max (items.length * size) (needEach size (fun a => (encode a).length) need items) ∧
      settled (c + items.length * size) (elementMoves size moves items) =
        c + (items.flatMap encode).length := by
  induction items generalizing c with
  | nil => simp [elementMoves, peak, settled, needEach]
  | cons a as ih =>
    have ha := h a List.mem_cons_self
    have hlength := ha.length_le
    have has := ih (fun x hx => h x (List.mem_cons_of_mem _ hx)) (c + (encode a).length)
    have hback : c + (as.length + 1) * size - size = c + as.length * size := by
      rw [Nat.succ_mul]
      omega
    have hroom : c + as.length * size + (encode a).length =
        c + (encode a).length + as.length * size := by omega
    simp only [elementMoves, List.flatMap_cons, List.length_cons, List.cons_append, peak, settled,
      Move.apply, hback, List.length_append, needEach] at has ⊢
    rw [peak_append, settled_append, ha.peak, ha.settled, hroom, has.1, has.2]
    constructor
    · omega
    · omega

theorem counts_list (size : Nat) {moves : α → List Move} {encode : α → Bytes} {need : α → Nat}
    {items : List α} (h : ∀ a ∈ items, Counts (moves a) (need a) (encode a).length) :
    Counts (listMoves size moves items)
      (needList size (fun a => (encode a).length) need items) (encodeList encode items).length := by
  constructor
  · intro c
    have hpeak := (counts_elements size h (c + 8)).1
    simp only [listMoves, peak, Move.apply, hpeak, needList]
    omega
  · intro c
    have hsettled := (counts_elements size h (c + 8)).2
    simp only [listMoves, settled, Move.apply, hsettled, encodeList, List.length_append,
      length_bigEndian]
    omega

end NameDirectory.Wire

namespace NameDirectory

open Wire (Move Counts)

/-! ## Names and objects -/

namespace Name

def moves (n : Name) : List Move := Wire.listMoves componentSize Wire.textMoves n.components

theorem counts (n : Name) : Counts n.moves n.need n.encode.length :=
  Wire.counts_list componentSize fun s _ => Wire.counts_text s

end Name

namespace Object

mutual
/-- The moves of the count while an object is read. -/
def moves : Object → List Move
  | null => [.claim 4]
  | bool _ => [.claim 4, .claim 1]
  | integer _ => [.claim 4, .claim 8]
  | text s => .claim 4 :: Wire.textMoves s
  | bytes b => .claim 4 :: Wire.byteStringMoves b
  | list items => .claim 4 :: .claim 8 :: .claim (items.length * elementSize) :: movesAll items
  | link n => .claim 4 :: n.moves

def movesAll : List Object → List Move
  | [] => []
  | o :: os => .giveBack elementSize :: o.moves ++ movesAll os
end

theorem movesAll_eq (os : List Object) : movesAll os = Wire.elementMoves elementSize moves os := by
  induction os with
  | nil => rfl
  | cons o os ih => simp [movesAll, Wire.elementMoves, ih]

mutual
theorem counts : ∀ o : Object, Counts o.moves o.need o.encode.length
  | null => (Counts.claim 4).mono rfl rfl
  | bool b => ((Counts.claim 4).append (Counts.claim 1)).mono rfl rfl
  | integer i => ((Counts.claim 4).append (Counts.claim 8)).mono rfl (by simp [encode])
  | text s => ((Counts.claim 4).append (Wire.counts_text s)).mono (by simp [need]) (by simp [encode])
  | bytes b =>
    ((Counts.claim 4).append (Wire.counts_byteString b)).mono (by simp [need]) (by simp [encode])
  | list items => by
    have hlist := Wire.counts_list elementSize (counts_of_mem items)
    have h := (Counts.claim 4).append hlist
    rw [Wire.listMoves, ← movesAll_eq] at h
    refine h.mono ?_ ?_
    · rw [Wire.needList, ← needAll_eq, need]
      omega
    · simp only [encode, encodeAll_eq, Wire.encodeList, List.length_append, Wire.length_bigEndian]
      omega
  | link n => ((Counts.claim 4).append n.counts).mono (by simp only [need]; omega) (by simp [encode])

theorem counts_of_mem : ∀ os : List Object, ∀ o ∈ os, Counts o.moves o.need o.encode.length
  | [] => by simp
  | a :: os => by
    have ha := counts a
    have hos := counts_of_mem os
    intro o ho
    rcases List.mem_cons.mp ho with rfl | ho
    · exact ha
    · exact hos o ho
end

end Object

/-! ## Faults, bindings and classes -/

namespace NamingFault

def moves : NamingFault → List Move
  | nameNotFound n | nameAlreadyBound n | notContext n | contextNotEmpty n =>
    .claim 4 :: Wire.textMoves n
  | invalidName n reason => .claim 4 :: (Wire.textMoves n ++ Wire.textMoves reason)
  | internal m | other m => .claim 4 :: Wire.textMoves m

theorem counts (f : NamingFault) : Counts f.moves f.encode.length f.encode.length := by
  cases f with
  | invalidName n reason =>
    have htexts := (Wire.counts_text n).append (Wire.counts_text reason)
    exact ((Counts.claim 4).append htexts).mono (by simp [encode]) (by simp [encode])
  | nameNotFound s | nameAlreadyBound s | notContext s | contextNotEmpty s | internal s | other s =>
    exact ((Counts.claim 4).append (Wire.counts_text s)).mono (by simp [encode]) (by simp [encode])

end NamingFault

namespace Binding

def moves (b : Binding Object) : List Move :=
  Wire.textMoves b.name ++ (Wire.textMoves b.className ++ b.value.moves)

theorem counts (b : Binding Object) : Counts b.moves b.need b.encode.length := by
  have hvalue := (Wire.counts_text b.className).append b.value.counts
  have hlength := b.value.counts.length_le
  refine ((Wire.counts_text b.name).append hvalue).mono ?_ ?_
  · simp only [need]
    omega
  · simp [encode]

end Binding

namespace NameClass

def moves (p : NameClass) : List Move := Wire.textMoves p.name ++ Wire.textMoves p.className

theorem counts (p : NameClass) : Counts p.moves p.encode.length p.encode.length := by
  refine ((Wire.counts_text p.name).append (Wire.counts_text p.className)).mono ?_ ?_
  · simp [encode]
  · simp [encode]

end NameClass

/-! ## Values -/

namespace Wire.Value

/-- The moves of the count while a value is read. -/
def moves : Value → List Move
  | name n => .claim 4 :: n.moves
  | object o => .claim 4 :: o.moves
  | fault f => .claim 4 :: f.moves
  | binding b => .claim 4 :: b.moves
  | nameClass p => .claim 4 :: p.moves

theorem counts (v : Value) : Counts v.moves v.need v.encode.length := by
  cases v with
  | name n =>
    have hlength := n.counts.length_le
    exact ((Counts.claim 4).append n.counts).mono (by simp only [need]; omega) (by simp [encode])
  | object o =>
    exact ((Counts.claim 4).append o.counts).mono (by simp only [need]; omega) (by simp [encode])
  | fault f =>
    exact ((Counts.claim 4).append f.counts).mono (by simp only [need]; omega) (by simp [encode])
  | binding b =>
    exact ((Counts.claim 4).append b.counts).mono (by simp only [need]; omega) (by simp [encode])
  | nameClass p =>
    exact ((Counts.claim 4).append p.counts).mono (by simp only [need]; omega) (by simp [encode])

theorem peak_moves (v : Value) (c : Nat) : peak c v.moves = c + v.need := v.counts.peak c

end Wire.Value

end NameDirectory
