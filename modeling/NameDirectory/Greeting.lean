import NameDirectory.Fault

/-!
# Greeting

The two messages that open a naming channel: the server offers the versions it
speaks, the client answers with the one it chose.
-/

namespace NameDirectory.Greeting

def service : String := "naming"

/-- The bytes both messages start with. -/
def magic : Bytes := Text.utf8 "naming"

def versionOne : UInt8 := 0x01

/-- The versions spoken here, lowest first. -/
def supported : List UInt8 := [versionOne]

structure Marshaller where
  write : Wire.Value → Bytes
  /-- The value at the front of the bytes, and the count of bytes it took. -/
  read : Bytes → Except TransportFault (Wire.Value × Nat)

/-- How a version writes and reads values; none for a version that is not spoken here. -/
def marshaller? (version : UInt8) : Option Marshaller :=
  if version = versionOne then
    some ⟨Wire.Value.encode, fun bytes => (Wire.Value.readCounted bytes).mapError .ofDecode⟩
  else none

def violate {α : Type} (v : Violation) : Except TransportFault α := .error (.violation v)

def afterMagic (bytes : Bytes) : Except TransportFault Bytes :=
  if magic.isPrefixOf bytes then .ok (bytes.drop magic.length) else violate .invalidHeader

def encodeOffer (versions : List UInt8) : Except TransportFault Bytes :=
  if versions.length < 256 then .ok (magic ++ versions.length.toUInt8 :: versions)
  else violate .tooManyVersions

/-- The offered versions; bytes after them are ignored. -/
def decodeOffer (bytes : Bytes) : Except TransportFault (List UInt8) := do
  match ← afterMagic bytes with
  | [] => violate .truncatedGreeting
  | count :: versions =>
    if versions.length < count.toNat then violate .truncatedGreeting
    else return versions.take count.toNat

/-- The highest offered version that is spoken here. -/
def choose (offered : List UInt8) : Option UInt8 := (offered.filter (supported.contains ·)).max?

def encodeChoice (version : UInt8) : Bytes := magic ++ [version]

def decodeChoice (bytes : Bytes) : Except TransportFault UInt8 := do
  match ← afterMagic bytes with
  | [version] => return version
  | _ => violate .malformedChoice

def answerOffer (bytes : Bytes) : Except TransportFault (UInt8 × Bytes) := do
  let offered ← decodeOffer bytes
  match choose offered with
  | some version => return (version, encodeChoice version)
  | none => throw (.unsupportedVersion offered)

def acceptChoice (bytes : Bytes) : Except TransportFault UInt8 := do
  let version ← decodeChoice bytes
  if supported.contains version then return version
  else throw (.unsupportedVersion [version])

end NameDirectory.Greeting
