import NameDirectory.Fault
import NameDirectory.Keyed

/-!
# Destinations and options

The address of a server, written `scheme://host:port`; the scheme may be left out
when an address is read.  A host with a colon in it stands in square brackets.

Options are texts under text keys, as connections and channels are opened with.
-/

namespace NameDirectory

/-! ## Destinations -/

structure Destination where
  scheme : String
  host : String
  port : UInt16
  deriving DecidableEq, Repr, Inhabited

namespace Destination

def defaultScheme : String := "remote"

/-- `host:port`. -/
def authority (d : Destination) : String :=
  if ':' ∈ d.host.toList then "[" ++ d.host ++ "]:" ++ toString d.port.toNat
  else d.host ++ ":" ++ toString d.port.toNat

def text (d : Destination) : String := d.scheme ++ "://" ++ d.authority

/-- The scheme and what follows it, the default scheme if none is given; none if it is empty. -/
def splitScheme (s : String) : Option (String × String) :=
  match Text.splitFirst "://" s with
  | some (scheme, rest) => if scheme.isEmpty then none else some (scheme, rest)
  | none => some (defaultScheme, s)

/-- The host and port before any slashes at the end, less the brackets around the host. -/
def splitAuthority (s : String) : Option (String × UInt16) := do
  let (host, port) ← Text.cutLast ':' (Text.dropEndWhile (· == '/') s.toList)
  let host := Text.dropEndWhile (· == ']') (host.dropWhile (· == '['))
  let port ← Text.natural? 65536 (String.ofList port)
  if host.isEmpty then none else some (String.ofList host, port.toUInt16)

def parse (s : String) : Except TransportFault Destination :=
  let s := Text.trim s
  let read := do
    let (scheme, rest) ← splitScheme s
    let (host, port) ← splitAuthority rest
    return { scheme, host, port : Destination }
  match read with
  | some d => .ok d
  | none => .error (.unresolved s)

/-- The destinations between commas, empty ones left out; the first unreadable one is the fault. -/
def parseList (s : String) : Except TransportFault (List Destination) :=
  ((Text.splitOn ',' s).map Text.trim |>.filter (!·.isEmpty)).mapM parse

def describe (d : Destination) : String :=
  Text.record "Destination"
    [("scheme", Text.quoted d.scheme), ("host", Text.quoted d.host),
      ("port", toString d.port.toNat)] false

end Destination

/-! ## Options -/

abbrev Options := Keyed String

namespace Options

/-- The truth value under `k`, blanks around it aside. -/
def bool? (k : String) (o : Options) : Option Bool :=
  match (Keyed.find? k o).map Text.trim with
  | some "true" => some true
  | some "false" => some false
  | _ => none

/-- The entries in curly braces. -/
def describe (o : Options) : String :=
  let entries := o.map fun (k, v) => Text.quoted k ++ ": " ++ Text.quoted v
  "\x7b" ++ ", ".intercalate entries ++ "\x7d"

end Options

end NameDirectory
