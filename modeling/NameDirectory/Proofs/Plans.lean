import NameDirectory.Packet
import NameDirectory.Proofs.RoundTrip

/-!
# Decoders taken apart

A decoder is a function, of which only the beginning and the end can be seen.  What goes on between
them is in its plan: which bytes it asks for, one after the other, and which containers it opens.
Every decoder of values and packets is what its plan comes to.

* `Plan`, `Plan.decoder`: plans, and the decoders that they stand for;
* `Plan.decoder_bind`: a plan of plans in sequence stands for their decoders in sequence;
* `Wire.Value.decoder_plan`, `Packet.decoder_plan`: the plans of what travels.
-/

namespace NameDirectory

namespace Wire

variable {α β : Type}

/-- What a decoder does, step by step. -/
inductive Plan : Type → Type 1
  /-- It comes to a value. -/
  | done {α : Type} (a : α) : Plan α
  /-- The bytes that were read are not the form of a value. -/
  | fail {α : Type} (fault : DecodeFault) : Plan α
  /-- `n` bytes are claimed and read. -/
  | read {α : Type} (n : Nat) (next : Bytes → Plan α) : Plan α
  /-- The room of `n` elements of `size` bytes is claimed; then they are read one by one, each after
  its room is given back. -/
  | elements {α β : Type} (size n : Nat) (element : Plan β) (next : List β → Plan α) : Plan α

namespace Plan

def bind : {α : Type} → Plan α → (α → Plan β) → Plan β
  | _, done a, f => f a
  | _, fail fault, _ => fail fault
  | _, read n next, f => read n fun b => (next b).bind f
  | _, elements size n element next, f => elements size n element fun items => (next items).bind f

instance : Monad Plan where
  pure := done
  bind := bind

/-- The decoder that does what is planned. -/
def decoder : {α : Type} → Plan α → Decoder α
  | _, done a => pure a
  | _, fail fault => throw fault
  | _, read n next => do
    Decoder.claim n
    (next (← Decoder.take n)).decoder
  | _, elements size n element next => do
    Decoder.claim (n * size)
    (next (← Decoder.elements size element.decoder n [])).decoder

@[simp] theorem decoder_pure (a : α) : (Pure.pure a : Plan α).decoder = Pure.pure a := rfl

@[simp] theorem decoder_fail (fault : DecodeFault) : (fail fault : Plan α).decoder = throw fault :=
  rfl

@[simp] theorem decoder_bind (p : Plan α) (f : α → Plan β) :
    (p >>= f).decoder = p.decoder >>= fun a => (f a).decoder := by
  change (p.bind f).decoder = _
  induction p with
  | done a => rfl
  | fail fault => rfl
  | read n next ih => simp only [bind, decoder, bind_assoc, ih]
  | elements size n element next _ ih => simp only [bind, decoder, bind_assoc, ih]

/-! ## Numbers, texts and containers -/

def number (width : Nat) : Plan Nat :=
  read width fun b => pure (Decoder.ofBigEndian b)

def bool : Plan Bool := do
  match ← number 1 with
  | 0 => return false
  | 1 => return true
  | found => fail (.invalidBool found)

def byteString : Plan Bytes := do
  read (← number 8) pure

def text : Plan String := do
  match Text.ofUtf8 (← byteString) with
  | .ok s => return s
  | .error fault => fail (.invalidText fault)

def list (size : Nat) (element : Plan α) : Plan (List α) := do
  elements size (← number 8) element pure

def variant (kind : String) (last : Nat) : Plan Nat := do
  let found ← number 4
  if found ≤ last then return found else fail (.unknownVariant kind last found)

@[simp] theorem decoder_number (width : Nat) : (number width).decoder = Decoder.number width := rfl

@[simp] theorem decoder_bool : bool.decoder = Decoder.bool := by
  simp only [bool, Decoder.bool, decoder_bind, decoder_number]
  congr 1
  funext n
  rcases n with _ | _ | n <;> rfl

@[simp] theorem decoder_byteString : byteString.decoder = Decoder.byteString := by
  simp [byteString, Decoder.byteString, Decoder.count, decoder]

@[simp] theorem decoder_text : text.decoder = Decoder.text := by
  simp only [text, Decoder.text, decoder_bind, decoder_byteString]
  congr 1
  funext b
  cases Text.ofUtf8 b <;> rfl

@[simp] theorem decoder_list (size : Nat) (element : Plan α) :
    (list size element).decoder = Decoder.list size element.decoder := by
  simp [list, Decoder.list, Decoder.count, decoder]

@[simp] theorem decoder_variant (kind : String) (last : Nat) :
    (variant kind last).decoder = Decoder.variant kind last := by
  simp only [variant, Decoder.variant, decoder_bind, decoder_number]
  congr 1
  funext found
  split <;> rfl

end Plan

end Wire

open Wire (Plan)

/-! ## What travels -/

def Name.plan : Plan Name := do
  return ⟨← Plan.list componentSize Plan.text⟩

@[simp] theorem Name.decoder_plan : Name.plan.decoder = Name.decode := by
  simp [plan, decode]

namespace Object

def planWithin (levels : Nat) : Plan Object := do
  match ← Plan.variant "Object" 6 with
  | 0 => return .null
  | 1 => return .bool (← Plan.bool)
  | 2 => return .integer (← Plan.number 8).toUInt64.toInt64
  | 3 => return .text (← Plan.text)
  | 4 => return .bytes (← Plan.byteString)
  | 5 =>
    match levels with
    | 0 => Plan.fail .nestedTooDeeply
    | levels + 1 => return .list (← Plan.list elementSize (planWithin levels))
  | _ => return .link (← Name.plan)

def plan : Plan Object := planWithin Wire.maxNesting

@[simp] theorem decoder_planWithin (levels : Nat) :
    (planWithin levels).decoder = decodeWithin levels := by
  induction levels with
  | zero =>
    unfold planWithin decodeWithin
    rw [Plan.decoder_bind, Plan.decoder_variant]
    congr 1
    funext k
    match k with
    | 0 | 1 | 2 | 3 | 4 | 5 | _ + 6 => simp
  | succ levels ih =>
    unfold planWithin decodeWithin
    rw [Plan.decoder_bind, Plan.decoder_variant]
    congr 1
    funext k
    match k with
    | 0 | 1 | 2 | 3 | 4 | 5 | _ + 6 => simp [ih]

@[simp] theorem decoder_plan : plan.decoder = decode := decoder_planWithin _

end Object

def NamingFault.plan : Plan NamingFault := do
  match ← Plan.variant "NamingError" 6 with
  | 0 => return .nameNotFound (← Plan.text)
  | 1 => return .nameAlreadyBound (← Plan.text)
  | 2 => return .invalidName (← Plan.text) (← Plan.text)
  | 3 => return .notContext (← Plan.text)
  | 4 => return .contextNotEmpty (← Plan.text)
  | 5 => return .internal (← Plan.text)
  | _ => return .other (← Plan.text)

@[simp] theorem NamingFault.decoder_plan : NamingFault.plan.decoder = NamingFault.decode := by
  unfold plan decode
  rw [Plan.decoder_bind, Plan.decoder_variant]
  congr 1
  funext k
  match k with
  | 0 | 1 | 2 | 3 | 4 | 5 | _ + 6 => simp

def Binding.plan : Plan (Binding Object) := do
  return ⟨← Plan.text, ← Plan.text, ← Object.plan⟩

@[simp] theorem Binding.decoder_plan : Binding.plan.decoder = Binding.decode := by
  simp [plan, decode]

def NameClass.plan : Plan NameClass := do
  return ⟨← Plan.text, ← Plan.text⟩

@[simp] theorem NameClass.decoder_plan : NameClass.plan.decoder = NameClass.decode := by
  simp [plan, decode]

def Wire.Value.plan : Plan Wire.Value := do
  match ← Plan.variant "Marshalled" 4 with
  | 0 => return .name (← Name.plan)
  | 1 => return .object (← Object.plan)
  | 2 => return .fault (← NamingFault.plan)
  | 3 => return .binding (← Binding.plan)
  | _ => return .nameClass (← NameClass.plan)

theorem Wire.Value.decoder_plan : Wire.Value.plan.decoder = Wire.Value.decode := by
  unfold plan decode
  rw [Plan.decoder_bind, Plan.decoder_variant]
  congr 1
  funext k
  match k with
  | 0 | 1 | 2 | 3 | _ + 4 => simp

namespace Packet

def planId : Plan UInt32 := do
  return (← Plan.number 4).toUInt32

@[simp] theorem decoder_planId : planId.decoder = decodeId := by
  simp [planId, decodeId]

def planOption : Plan (String × String) := do
  return (← Plan.text, ← Plan.text)

def plan : Plan Packet := do
  match ← Plan.variant "Packet" 7 with
  | 0 => return .authenticate ⟨← Plan.text, ← Plan.text, ← Plan.text, ← Plan.text⟩
  | 1 => return .authenticated
  | 2 => return .rejected (← Plan.text)
  | 3 => return .openChannel (← planId) (← Plan.text) (← Plan.list optionSize planOption)
  | 4 => return .channelOpened (← planId)
  | 5 => return .channelRejected (← planId) (← Plan.text)
  | 6 => return .message (← planId) (← Plan.byteString)
  | _ => return .closeChannel (← planId)

theorem decoder_plan : plan.decoder = decode := by
  unfold plan decode
  rw [Plan.decoder_bind, Plan.decoder_variant]
  congr 1
  funext k
  match k with
  | 0 | 1 | 2 | 3 | 4 | 5 | 6 | _ + 7 => simp [planOption]

end Packet

end NameDirectory
