/-!
# Numerals and spans of time

Reading a numeral accepts one optional sign, then at least one ASCII digit, leading zeros
included; a value outside the wanted range is refused.

A span is a count of nanoseconds.  It is written in the largest unit of seconds,
milliseconds, microseconds and nanoseconds that is not above it, with the exact
decimal fraction and no trailing zeros.
-/

namespace NameDirectory

namespace Text

/-- The value of a non-empty row of ASCII digits. -/
def digits? (cs : List Char) : Option Nat :=
  if !cs.isEmpty && cs.all Char.isDigit then
    some (cs.foldl (fun n c => 10 * n + (c.toNat - '0'.toNat)) 0)
  else none

/-- A number below `bound`, with an optional plus sign. -/
def natural? (bound : Nat) (s : String) : Option Nat :=
  let value := match s.toList with
    | '+' :: cs => digits? cs
    | cs => digits? cs
  value.filter (· < bound)

theorem digits?_toDigits (n : Nat) : digits? (Nat.toDigits 10 n) = some n := by
  have hdigits : (Nat.toDigits 10 n).all Char.isDigit = true :=
    List.all_eq_true.mpr fun c hc => Nat.isDigit_of_mem_toDigits (by decide) (by decide) hc
  have hnonempty : (Nat.toDigits 10 n).isEmpty = false := by
    simp [Nat.toDigits_ne_nil]
  have hvalue := Nat.ofDigitChars_toDigits (b := 10) (n := n) (by decide) (by decide)
  simp only [digits?, hdigits, hnonempty, Bool.not_false, Bool.and_true, if_true]
  exact congrArg some hvalue

/-- A number is read back from the numeral that it is written as. -/
theorem natural?_toDigits {bound n : Nat} (h : n < bound) :
    natural? bound (String.ofList (Nat.toDigits 10 n)) = some n := by
  have hvalue := digits?_toDigits n
  unfold natural?
  rw [String.toList_ofList]
  split
  · next cs hsign =>
    have hplus : '+' ∈ Nat.toDigits 10 n := hsign ▸ List.mem_cons_self
    cases Nat.isDigit_of_mem_toDigits (by decide) (by decide) hplus
  · simp [hvalue, h]

/-- A number of 64 bits. -/
def word64? (s : String) : Option Nat := natural? 0x10000000000000000 s

/-- A number of 64 bits in two's complement range, with an optional sign. -/
def integer? (s : String) : Option Int64 :=
  let value : Option Int := match s.toList with
    | '-' :: cs => (digits? cs).map fun n => -(n : Int)
    | '+' :: cs => (digits? cs).map fun n => (n : Int)
    | cs => (digits? cs).map fun n => (n : Int)
  (value.filter fun i => -0x8000000000000000 ≤ i && i < 0x8000000000000000).map Int64.ofInt

/-- Lower-case hexadecimal digits without leading zeros. -/
def hex (n : Nat) : String := String.ofList (Nat.toDigits 16 n)

end Text

/-! ## Spans -/

structure Span where
  nanos : Nat
  deriving DecidableEq, Repr, Inhabited

namespace Span

def ofMillis (n : Nat) : Span := ⟨n * 1000000⟩

def ofSeconds (n : Nat) : Span := ⟨n * 1000000000⟩

/-- `n` of the unit that `10 ^ places` nanoseconds make, as digits, point and fraction. -/
def inUnit (n places : Nat) : String :=
  let whole := toString (n / Nat.pow 10 places)
  let rest := n % Nat.pow 10 places
  if rest = 0 then whole
  else
    let row := (toString rest).toList
    let padded := List.replicate (places - row.length) '0' ++ row
    whole ++ "." ++ String.ofList (padded.reverse.dropWhile (· == '0')).reverse

def text (d : Span) : String :=
  if 1000000000 ≤ d.nanos then inUnit d.nanos 9 ++ "s"
  else if 1000000 ≤ d.nanos then inUnit d.nanos 6 ++ "ms"
  else if 1000 ≤ d.nanos then inUnit d.nanos 3 ++ "µs"
  else inUnit d.nanos 0 ++ "ns"

end Span

end NameDirectory
