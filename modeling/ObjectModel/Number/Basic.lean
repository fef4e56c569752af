/-!
Engine numbers: IEEE 754 binary64 with a single NaN.

A finite number is a sign and a *magnitude*, the absolute value counted in units of `2 ^ -1074`,
the smallest positive number.  Every finite binary64 value is a whole count of such units, so
comparison, integrality and rounding are exact arithmetic on naturals.  Two numbers are equal
exactly when they are the same value in the engine's sense: NaN equals itself, and the two zeros
differ.
-/

namespace ObjectModel

def twoPow (exponent : Nat) : Nat := Nat.pow 2 exponent

def tenPow (exponent : Nat) : Nat := Nat.pow 10 exponent

theorem twoPow_pos (exponent : Nat) : 0 < twoPow exponent := Nat.two_pow_pos exponent

theorem twoPow_add (a b : Nat) : twoPow (a + b) = twoPow a * twoPow b := Nat.pow_add 2 a b

theorem twoPow_le_twoPow {a b : Nat} (le : a ≤ b) : twoPow a ≤ twoPow b :=
  Nat.pow_le_pow_right Nat.two_pos le

theorem lt_twoPow_log2 (n : Nat) : n < twoPow (n.log2 + 1) := Nat.lt_log2_self

/-- How many units make one. -/
def unitsPerOne : Nat := twoPow 1074

def overflowBound : Nat := twoPow 2098

def exactBound : Nat := 0x20000000000000

theorem unitsPerOne_pos : 0 < unitsPerOne := twoPow_pos 1074

theorem overflowBound_pos : 0 < overflowBound := twoPow_pos 2098

/-- A magnitude fits when it is below the overflow bound and 53 binary digits hold it. -/
def FitsBinary64 (magnitude : Nat) : Prop :=
  magnitude < overflowBound ∧
    ∃ digits place, digits < twoPow 53 ∧ magnitude = digits * twoPow place

inductive Number
  | nan
  | infinity (negative : Bool)
  | finite (negative : Bool) (magnitude : Nat) (fits : FitsBinary64 magnitude)
  deriving DecidableEq

/-- The quotient rounded to the nearest whole number, a tie going to the even one. -/
def roundDiv (numerator denominator : Nat) : Nat :=
  let quotient := numerator / denominator
  let twice := 2 * (numerator % denominator)
  if twice < denominator then quotient
  else if denominator < twice then quotient + 1
  else if quotient % 2 = 0 then quotient
  else quotient + 1

theorem roundDiv_le (numerator denominator : Nat) :
    roundDiv numerator denominator ≤ numerator / denominator + 1 := by
  simp only [roundDiv]
  split
  · omega
  · split
    · omega
    · split <;> omega

theorem le_roundDiv (numerator denominator : Nat) :
    numerator / denominator ≤ roundDiv numerator denominator := by
  simp only [roundDiv]
  split
  · omega
  · split
    · omega
    · split <;> omega

@[simp]
theorem roundDiv_one (numerator : Nat) : roundDiv numerator 1 = numerator := by
  simp [roundDiv, Nat.mod_one]

def lastPlace (magnitude : Nat) : Nat := magnitude.log2 - 52

theorem div_twoPow_lastPlace_lt (magnitude : Nat) :
    magnitude / twoPow (lastPlace magnitude) < twoPow 53 := by
  rw [Nat.div_lt_iff_lt_mul (twoPow_pos _), ← twoPow_add]
  exact Nat.lt_of_lt_of_le (lt_twoPow_log2 magnitude)
    (twoPow_le_twoPow (by simp only [lastPlace]; omega))

theorem fitsBinary64_of_le {digits place : Nat} (few : digits ≤ twoPow 53)
    (below : digits * twoPow place < overflowBound) : FitsBinary64 (digits * twoPow place) := by
  refine ⟨below, ?_⟩
  rcases Nat.lt_or_eq_of_le few with fewer | equal
  · exact ⟨digits, place, fewer, rfl⟩
  · refine ⟨twoPow 52, place + 1, by decide, ?_⟩
    rw [equal, Nat.add_comm place 1, twoPow_add 1 place, ← Nat.mul_assoc]
    exact congrArg (· * twoPow place) (twoPow_add 52 1)

theorem fitsBinary64_zero : FitsBinary64 0 :=
  ⟨overflowBound_pos, 0, 0, twoPow_pos 53, by simp⟩

namespace Number

def zero : Number := .finite false 0 fitsBinary64_zero

def negativeZero : Number := .finite true 0 fitsBinary64_zero

instance : Inhabited Number := ⟨zero⟩

/-- The number nearest to `numerator / denominator` units; ties go to the even digit, and what
rounds to the overflow bound or beyond is infinite. -/
def ofUnits (negative : Bool) (numerator denominator : Nat) : Number :=
  let place := lastPlace (numerator / denominator)
  let digits := roundDiv numerator (denominator * twoPow place)
  if below : digits * twoPow place < overflowBound then
    .finite negative (digits * twoPow place)
      (fitsBinary64_of_le
        (Nat.le_trans (roundDiv_le _ _)
          (by
            rw [← Nat.div_div_eq_div_mul]
            exact div_twoPow_lastPlace_lt (numerator / denominator)))
        below)
  else .infinity negative

def ofInt (n : Int) : Number := ofUnits (n < 0) (n.natAbs * unitsPerOne) 1

def ofNat (n : Nat) : Number := ofUnits false (n * unitsPerOne) 1

def toInt? : Number → Option Int
  | .finite negative magnitude _ =>
    if magnitude % unitsPerOne = 0 then
      let whole := Int.ofNat (magnitude / unitsPerOne)
      some (if negative then -whole else whole)
    else none
  | _ => none

/-- The order of numbers; NaN is comparable to nothing, and the two zeros are equal. -/
def le : Number → Number → Bool
  | .nan, _ => false
  | _, .nan => false
  | .infinity true, _ => true
  | _, .infinity false => true
  | .infinity false, _ => false
  | _, .infinity true => false
  | .finite true a _, .finite true b _ => decide (b ≤ a)
  | .finite true _ _, .finite false _ _ => true
  | .finite false a _, .finite true b _ => decide (a = 0 ∧ b = 0)
  | .finite false a _, .finite false b _ => decide (a ≤ b)

/-- The whole part of a number clamped to `0 … bound`; NaN counts as zero. -/
def clampToNat (bound : Nat) : Number → Nat
  | .nan => 0
  | .infinity negative => if negative then 0 else bound
  | .finite negative magnitude _ => if negative then 0 else min bound (magnitude / unitsPerOne)

/-- One step of reading digits in a radix: `value * radix + digit`, rounded after the product and
after the sum.  Signs do not occur here: the value read so far is not negative. -/
def appendDigit (radix digit : Nat) : Number → Number
  | .nan => .nan
  | .infinity negative => .infinity negative
  | .finite negative magnitude _ =>
    match ofUnits negative (magnitude * radix) 1 with
    | .finite _ product _ => ofUnits negative (product + digit * unitsPerOne) 1
    | other => other

end Number

end ObjectModel
