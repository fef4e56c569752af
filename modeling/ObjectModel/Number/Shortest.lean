import ObjectModel.Number.Basic

/-!
The shortest decimal that reads back as a given number.

A magnitude `m` is rounded to by every real in an interval around it; the ends belong to the
interval when the last binary digit of `m` is even.  Of all decimals in that interval those with
the fewest digits are considered, and of these the one nearest to `m`, a tie going to the even
last digit.
-/

namespace ObjectModel

/-- A decimal: the digits as one natural number, and the place of the point, so that the value is
`0.d₁d₂… * 10 ^ point`. -/
structure Decimal where
  digits : List Char
  point : Int
  deriving DecidableEq, Repr

/-- The reals that round to a magnitude, in quarters of a unit. -/
structure RoundingInterval where
  low : Nat
  high : Nat
  closed : Bool
  deriving DecidableEq, Repr

namespace RoundingInterval

/-- The interval of a positive magnitude.  Below a power of two the neighbours are half as far
apart as above it. -/
def ofMagnitude (magnitude : Nat) : RoundingInterval :=
  let place := lastPlace magnitude
  let step := twoPow place
  let atPowerOfTwo := decide (0 < place ∧ magnitude = twoPow (52 + place))
  { low := 4 * magnitude - (if atPowerOfTwo then step else 2 * step)
    high := 4 * magnitude + 2 * step
    closed := magnitude / step % 2 == 0 }

def contains (interval : RoundingInterval) (numerator denominator : Nat) : Bool :=
  let value := 4 * numerator
  let low := interval.low * denominator
  let high := interval.high * denominator
  if interval.closed then low ≤ value && value ≤ high else low < value && value < high

end RoundingInterval

namespace Decimal

private def guardDigits : Nat := tenPow 350

/-- The place of the point of a positive magnitude: it lies in `[10 ^ (p - 1), 10 ^ p)`. -/
def pointOf (magnitude : Nat) : Int :=
  Int.ofNat (Nat.toDigits 10 (magnitude * guardDigits / unitsPerOne)).length - 350

def gridStep (place : Int) : Nat × Nat :=
  if 0 ≤ place then (tenPow place.toNat * unitsPerOne, 1)
  else (unitsPerOne, tenPow (-place).toNat)

def nearestOnGrid? (magnitude : Nat) (place : Int) : Option Nat :=
  let (numerator, denominator) := gridStep place
  let interval := RoundingInterval.ofMagnitude magnitude
  let below := magnitude * denominator / numerator
  let inside := fun steps => interval.contains (steps * numerator) denominator
  match inside below, inside (below + 1) with
  | false, false => none
  | true, false => some below
  | false, true => some (below + 1)
  | true, true => some (roundDiv (magnitude * denominator) numerator)

def dropTrailingZeros (digits : List Char) : List Char :=
  (digits.reverse.dropWhile (· == '0')).reverse

def search (magnitude : Nat) (point : Int) : (grids count : Nat) → Decimal
  | 0, _ => ⟨[], 0⟩
  | grids + 1, count =>
    match nearestOnGrid? magnitude (point - count) with
    | some steps =>
      let digits := Nat.toDigits 10 steps
      { digits := dropTrailingZeros digits
        point := point - count + digits.length }
    | none => search magnitude point grids (count + 1)

/-- The shortest decimal that reads back as a positive magnitude; 17 digits always suffice. -/
def shortest (magnitude : Nat) : Decimal := search magnitude (pointOf magnitude) 17 1

end Decimal

end ObjectModel
