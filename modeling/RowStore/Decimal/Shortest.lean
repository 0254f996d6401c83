import RowStore.Number.Binary

/-! The fewest decimal digits that read back to a binary value.

A finite value stands for every real number that rounds to it. On the decimal grids of one, two,
and more digits the two neighbours of the value are tried; the first grid with a neighbour in that
interval gives the digits. Of two such neighbours the nearer is taken, of two equally near ones the
greater.
-/

namespace RowStore

/-- The number `digits * 10 ^ scale`. -/
structure Decimal where
  digits : Nat
  scale : Int
deriving Repr, DecidableEq

namespace Decimal

/-- The interval of a binary value, its ends and the value itself over one common denominator. -/
structure Interval where
  low : Nat
  value : Nat
  high : Nat
  unit : Nat
  closed : Bool
deriving Repr, DecidableEq

/-- The gap below a power of two is half the gap above it, except next to the subnormals. -/
def Interval.ofBinary (format : BinaryFormat) (mantissa : Nat) (scale : Int) : Interval :=
  let grow := 1 <<< scale.toNat
  let narrow := mantissa = 1 <<< format.fraction ∧ format.leastScale < scale
  { low := (4 * mantissa - if narrow then 1 else 2) * grow
    value := 4 * mantissa * grow
    high := (4 * mantissa + 2) * grow
    unit := 4 <<< (-scale).toNat
    closed := mantissa % 2 = 0 }

/-- Is `digits * 10 ^ scale` in the interval? -/
def Interval.holds (interval : Interval) (digits : Nat) (scale : Int) : Bool :=
  let point := digits * Nat.pow 10 scale.toNat * interval.unit
  let shrink := Nat.pow 10 (-scale).toNat
  if interval.closed then interval.low * shrink ≤ point && point ≤ interval.high * shrink
  else interval.low * shrink < point && point < interval.high * shrink

/-- The exponent of the leading decimal digit of a positive quotient. -/
def leadingExponent (numerator denominator : Nat) : Int :=
  if denominator ≤ numerator then (Nat.toDigits 10 (numerator / denominator)).length - 1
  else -(Nat.toDigits 10 ((denominator + numerator - 1) / numerator - 1)).length

/-- The neighbour of the value to take on the grid of `10 ^ scale`, if one is in the interval. -/
def Interval.pick? (interval : Interval) (scale : Int) : Option Nat :=
  let numerator := interval.value * Nat.pow 10 (-scale).toNat
  let denominator := interval.unit * Nat.pow 10 scale.toNat
  let below := numerator / denominator
  let lower := interval.holds below scale
  let upper := interval.holds (below + 1) scale
  if lower && upper then
    some (if 2 * (numerator % denominator) < denominator then below else below + 1)
  else if lower then some below
  else if upper then some (below + 1)
  else none

/-- Drop the zeros at the end of the digits. -/
def trimmed (digits : Nat) (scale : Int) : Decimal :=
  if digits ≠ 0 ∧ digits % 10 = 0 then trimmed (digits / 10) (scale + 1) else ⟨digits, scale⟩
termination_by digits
decreasing_by omega

def search (interval : Interval) (leading : Int) (count : Nat) : (tries : Nat) → Decimal
  | 0 => ⟨0, 0⟩
  | tries + 1 =>
      let scale := leading - count
      match interval.pick? scale with
      | some digits => trimmed digits scale
      | none => search interval leading (count + 1) tries

/-- Seventeen digits always suffice for a double, and fewer for a single. -/
def shortest (format : BinaryFormat) (mantissa : Nat) (scale : Int) : Decimal :=
  if mantissa = 0 then ⟨0, 0⟩
  else
    let interval := Interval.ofBinary format mantissa scale
    search interval (leadingExponent interval.value interval.unit) 0 18

/-- All digits of the number, with a point only where a fraction follows it. -/
def positional (decimal : Decimal) : String :=
  let digits := Nat.toDigits 10 decimal.digits
  if 0 ≤ decimal.scale then
    String.ofList (digits ++ List.replicate (if decimal.digits = 0 then 0 else decimal.scale.toNat) '0')
  else
    let places := (-decimal.scale).toNat
    let padded := List.replicate (places + 1 - digits.length) '0' ++ digits
    String.ofList (padded.take (padded.length - places) ++ '.' :: padded.drop (padded.length - places))

end Decimal

namespace BinaryDatum

/-- The text of a value: no exponent, and no fraction for an integer. -/
def text (format : BinaryFormat) : BinaryDatum → String
  | finite negative mantissa scale =>
      (if negative then "-" else "") ++ (Decimal.shortest format mantissa scale).positional
  | infinite negative => if negative then "-inf" else "inf"
  | nan _ _ => "NaN"

end BinaryDatum

def Double.text (value : Double) : String := value.datum.text .double

def Single.text (value : Single) : String := value.datum.text .single

end RowStore
