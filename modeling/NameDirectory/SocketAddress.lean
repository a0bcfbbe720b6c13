import NameDirectory.Text.Utf8
import NameDirectory.Text.Numeral
import NameDirectory.Text.Split

/-!
# Numeric addresses

A numeric host and a port: four octets, as in `127.0.0.1:80`, or eight groups of four
hexadecimal digits in brackets, as in `[::1]:80`.  A run of zero groups may be
written as two colons, and the last two groups as four octets.  Hosts that clients
reach have more spellings: fewer than four numbers, in other bases too, of which the
last fills the octets that are left.
-/

namespace NameDirectory

inductive SocketAddress where
  | four (octets : List Nat) (port : UInt16)
  | six (groups : List Nat) (scope : Nat) (port : UInt16)
  deriving DecidableEq, Repr

namespace SocketAddress

/-- Up to three digits, no zero before others, below 256. -/
def octet? (s : String) : Option Nat :=
  let leading := s.toList.head? = some '0' && s.length ≠ 1
  if s.length ≤ 3 && !leading then (Text.digits? s.toList).filter (· < 256) else none

def octets? (s : String) : Option (List Nat) := do
  let octets ← (Text.splitOn '.' s).mapM octet?
  if octets.length = 4 then some octets else none

/-- One to four hexadecimal digits. -/
def group? (s : String) : Option Nat := do
  let digits ← s.toList.mapM Text.hexDigit?
  if digits.isEmpty || 4 < digits.length then none
  else some (digits.foldl (fun n d => 16 * n + d) 0)

/-- The groups between colons; `octets` tells whether the last two may be four octets. -/
def groups? (octets : Bool) (s : String) : Option (List Nat) :=
  if s.isEmpty then some [] else
  let pieces := Text.splitOn ':' s
  match octets, octets? (pieces.getLast?.getD "") with
  | true, some [a, b, c, d] => do
    return (← pieces.dropLast.mapM group?) ++ [256 * a + b, 256 * c + d]
  | _, _ => pieces.mapM group?

/-- Eight groups; two colons stand for one or more zero groups. -/
def eight? (s : String) : Option (List Nat) := do
  match Text.splitFirst "::" s with
  | none =>
    let groups ← groups? true s
    if groups.length = 8 then some groups else none
  | some (front, back) =>
    let front ← groups? false front
    let back ← groups? true back
    let size := front.length + back.length
    if size < 8 then some (front ++ List.replicate (8 - size) 0 ++ back) else none

def number? (bound : Nat) (s : String) : Option Nat := (Text.digits? s.toList).filter (· < bound)

/-- A host in brackets, with the scope that may follow a percent sign. -/
def bracketed? (s : String) : Option (List Nat × Nat) := do
  match Text.splitFirst "%" s with
  | none => return (← eight? s, 0)
  | some (host, scope) => return (← eight? host, ← number? 0x100000000 scope)

def parse? (s : String) : Option SocketAddress := do
  let (host, port) ← Text.cutLast ':' s.toList
  let port ← number? 65536 (String.ofList port)
  match host, host.getLast? with
  | '[' :: inner, some ']' =>
    let (groups, scope) ← bracketed? (String.ofList inner.dropLast)
    return six groups scope port.toUInt16
  | _, _ => return four (← octets? (String.ofList host)) port.toUInt16

/-! ## Other spellings of octets -/

/-- A number with digits of base 16 after `0x`, of base 8 after `0`, and else of base 10. -/
def based? (s : String) : Option Nat := do
  let (base, digits) := match s.toList with
    | '0' :: x :: cs => if x = 'x' || x = 'X' then (16, cs) else (8, x :: cs)
    | cs => (10, cs)
  let digits ← digits.mapM Text.hexDigit?
  if digits.isEmpty || digits.any (base ≤ ·) then none
  else some (digits.foldl (fun n d => base * n + d) 0)

/-- One to four numbers between points; all but the last stand for one octet. -/
def isSpelledOctets (host : String) : Bool :=
  match (Text.splitOn '.' host).mapM based? with
  | some (n :: ns) =>
    let numbers := n :: ns
    numbers.length ≤ 4 && numbers.dropLast.all (· < 256)
      && numbers.getLastD 0 < Nat.pow 256 (5 - numbers.length)
  | _ => false

end SocketAddress

end NameDirectory
