import NameDirectory.Credentials
import NameDirectory.Fault

/-!
# Packets

The unit of exchange on a connection, its bytes, and streams of packets.  No
packet larger than the budget is written; one that is refused leaves the stream
as it was.
-/

namespace NameDirectory

inductive Packet where
  | authenticate (credentials : Credentials)
  | authenticated
  | rejected (reason : String)
  | openChannel (id : UInt32) (service : String) (options : List (String × String))
  | channelOpened (id : UInt32)
  | channelRejected (id : UInt32) (reason : String)
  | message (id : UInt32) (payload : Bytes)
  | closeChannel (id : UInt32)
  deriving DecidableEq, Repr

namespace Packet

def kind : Packet → String
  | authenticate _ => "authenticate"
  | authenticated => "authenticated"
  | rejected _ => "rejected"
  | openChannel .. => "open channel"
  | channelOpened _ => "channel opened"
  | channelRejected .. => "channel rejected"
  | message .. => "message"
  | closeChannel _ => "close channel"

/-- The kind and fields, without a secret and with a payload only counted. -/
def describe : Packet → String
  | authenticate c =>
    Text.record "Authenticate"
      [("mechanism", Text.quoted c.mechanism), ("principal", Text.quoted c.principal),
        ("realm", Text.quoted c.realm)] true
  | authenticated => "Authenticated"
  | rejected reason => Text.record "Rejected" [("reason", Text.quoted reason)] false
  | openChannel id service options =>
    let pairs := options.map fun (k, v) => "(" ++ Text.quoted k ++ ", " ++ Text.quoted v ++ ")"
    Text.record "OpenChannel"
      [("id", toString id.toNat), ("service", Text.quoted service),
        ("options", "[" ++ ", ".intercalate pairs ++ "]")] false
  | channelOpened id => Text.record "ChannelOpened" [("id", toString id.toNat)] false
  | channelRejected id reason =>
    Text.record "ChannelRejected"
      [("id", toString id.toNat), ("reason", Text.quoted reason)] false
  | message id payload =>
    Text.record "Message" [("id", toString id.toNat), ("len", toString payload.length)] false
  | closeChannel id => Text.record "CloseChannel" [("id", toString id.toNat)] false

/-! ## Bytes -/

/-- Room that one option claims. -/
def optionSize : Nat := 48

def encodeId (id : UInt32) : Bytes := Wire.bigEndian 4 id.toNat

def encode : Packet → Bytes
  | authenticate c =>
    Wire.bigEndian 4 0 ++ Wire.encodeText c.mechanism ++ Wire.encodeText c.principal ++
      Wire.encodeText c.secret ++ Wire.encodeText c.realm
  | authenticated => Wire.bigEndian 4 1
  | rejected reason => Wire.bigEndian 4 2 ++ Wire.encodeText reason
  | openChannel id service options =>
    Wire.bigEndian 4 3 ++ (encodeId id ++ (Wire.encodeText service ++
      Wire.encodeList (fun (k, v) => Wire.encodeText k ++ Wire.encodeText v) options))
  | channelOpened id => Wire.bigEndian 4 4 ++ encodeId id
  | channelRejected id reason => Wire.bigEndian 4 5 ++ (encodeId id ++ Wire.encodeText reason)
  | message id payload => Wire.bigEndian 4 6 ++ (encodeId id ++ Wire.encodeByteString payload)
  | closeChannel id => Wire.bigEndian 4 7 ++ encodeId id

def decodeId : Wire.Decoder UInt32 := do
  return (← Wire.Decoder.number 4).toUInt32

def decode : Wire.Decoder Packet := do
  match ← Wire.Decoder.variant "Packet" 7 with
  | 0 =>
    return .authenticate
      ⟨← Wire.Decoder.text, ← Wire.Decoder.text, ← Wire.Decoder.text, ← Wire.Decoder.text⟩
  | 1 => return .authenticated
  | 2 => return .rejected (← Wire.Decoder.text)
  | 3 =>
    let option : Wire.Decoder (String × String) := do
      return (← Wire.Decoder.text, ← Wire.Decoder.text)
    return .openChannel (← decodeId) (← Wire.Decoder.text)
      (← Wire.Decoder.list optionSize option)
  | 4 => return .channelOpened (← decodeId)
  | 5 => return .channelRejected (← decodeId) (← Wire.Decoder.text)
  | 6 => return .message (← decodeId) (← Wire.Decoder.byteString)
  | _ => return .closeChannel (← decodeId)

/-! ## Streams -/

def read (stream : Bytes) : Except TransportFault (Packet × Bytes) :=
  (decode.run stream).mapError TransportFault.ofStreamDecode

/-- The bytes that a packet puts on a stream; none if it is too large. -/
def written (p : Packet) : Except TransportFault Bytes :=
  let bytes := p.encode
  let size := bytes.length
  if Wire.budget < size then .error (.violation (.packetTooLarge size)) else .ok bytes

end Packet

/-- A place that takes bytes until its room, if limited, is used up. -/
structure Sink where
  taken : Bytes := []
  room : Option Nat := none
  flushFault : Option StreamFault := none
  deriving Repr

namespace Sink

/-- Put bytes down; those that fit stay even if not all do. -/
def put (s : Sink) (bytes : Bytes) : Except StreamFault Unit × Sink :=
  match s.room with
  | none => (.ok (), { s with taken := s.taken ++ bytes })
  | some room =>
    let fitting := bytes.take room
    let s' := { s with taken := s.taken ++ fitting, room := some (room - fitting.length) }
    if fitting.length < bytes.length then (.error (.other "sink is full"), s') else (.ok (), s')

def write (s : Sink) (p : Packet) : Except TransportFault Unit × Sink :=
  match p.written with
  | .error fault => (.error fault, s)
  | .ok bytes =>
    match s.put bytes with
    | (.error fault, s) => (.error (.stream fault), s)
    | (.ok (), s) =>
      match s.flushFault with
      | some fault => (.error (.stream fault), s)
      | none => (.ok (), s)

end Sink

/-- The packets of a stream up to the first that cannot be read, whose fault is given too.
No packet is empty, so there are at most as many as bytes. -/
def Packet.readAll (stream : Bytes) : List Packet × TransportFault :=
  go (stream.length + 1) stream []
where
  go : Nat → Bytes → List Packet → List Packet × TransportFault
    | 0, _, done => (done.reverse, .stream .shortRead)
    | fuel + 1, stream, done =>
      match Packet.read stream with
      | .ok (p, rest) => go fuel rest (p :: done)
      | .error fault => (done.reverse, fault)

end NameDirectory
