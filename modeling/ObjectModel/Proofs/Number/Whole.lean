import ObjectModel.Number.Basic

/-!
# Whole numbers

A whole number becomes the nearest number of 53 binary digits.  Up to `2 ^ 53` that is itself, and
what lies beyond stays beyond, with one exception: the first one beyond lies midway between two
numbers and becomes the bound.
-/

namespace ObjectModel

theorem roundDiv_mul_right (numerator denominator : Nat) {scale : Nat} (positive : 0 < scale) :
    roundDiv (numerator * scale) (denominator * scale) = roundDiv numerator denominator := by
  have below : 2 * (numerator % denominator * scale) < denominator * scale ↔
      2 * (numerator % denominator) < denominator := by
    rw [← Nat.mul_assoc, Nat.mul_lt_mul_right positive]
  have above : denominator * scale < 2 * (numerator % denominator * scale) ↔
      denominator < 2 * (numerator % denominator) := by
    rw [← Nat.mul_assoc, Nat.mul_lt_mul_right positive]
  simp only [roundDiv, Nat.mul_div_mul_right _ _ positive, Nat.mul_mod_mul_right, below, above]

/-- The whole number of 53 binary digits that is nearest to a given one. -/
def nearestWhole (n : Nat) : Nat := roundDiv n (twoPow (lastPlace n)) * twoPow (lastPlace n)

theorem log2_mul_twoPow {n : Nat} (positive : 0 < n) (exponent : Nat) :
    (n * twoPow exponent).log2 = n.log2 + exponent := by
  have nonzero : n * twoPow exponent ≠ 0 :=
    Nat.ne_of_gt (Nat.mul_pos positive (twoPow_pos exponent))
  have low : twoPow n.log2 ≤ n := Nat.log2_self_le (Nat.ne_of_gt positive)
  have high : n < twoPow (n.log2 + 1) := lt_twoPow_log2 n
  apply (Nat.log2_eq_iff nonzero).mpr
  change twoPow (n.log2 + exponent) ≤ _ ∧ _ < twoPow (n.log2 + exponent + 1)
  rw [Nat.add_right_comm, twoPow_add, twoPow_add (n.log2 + 1)]
  exact ⟨Nat.mul_le_mul_right _ low, Nat.mul_lt_mul_of_pos_right high (twoPow_pos exponent)⟩

theorem nearestWhole_of_lt {n : Nat} (few : n < twoPow 53) : nearestWhole n = n := by
  have place : lastPlace n = 0 := by
    unfold lastPlace
    rcases Nat.eq_zero_or_pos n with rfl | positive
    · rfl
    · have := (Nat.log2_lt (Nat.ne_of_gt positive)).mpr few
      omega
  simp only [nearestWhole, place]
  exact (Nat.mul_one _).trans (roundDiv_one n)

theorem round_units (n : Nat) :
    roundDiv (n * unitsPerOne) (twoPow (lastPlace (n * unitsPerOne))) *
      twoPow (lastPlace (n * unitsPerOne)) = nearestWhole n * unitsPerOne := by
  rcases Nat.eq_zero_or_pos n with rfl | positive
  · have none : nearestWhole 0 = 0 := nearestWhole_of_lt (twoPow_pos 53)
    rw [Nat.zero_mul, none, Nat.zero_mul]
    exact none
  · have place : lastPlace (n * unitsPerOne) = n.log2 + 1022 := by
      unfold lastPlace unitsPerOne
      rw [log2_mul_twoPow positive]
      omega
    rw [place]
    rcases Nat.lt_or_ge n.log2 52 with short | long
    · -- The last of 53 digits stands for less than one, so nothing is rounded.
      have few : n < twoPow 53 := by
        have := twoPow_le_twoPow (show n.log2 + 1 ≤ 53 by omega)
        exact Nat.lt_of_lt_of_le (lt_twoPow_log2 n) this
      have split : unitsPerOne = twoPow (52 - n.log2) * twoPow (n.log2 + 1022) := by
        rw [← twoPow_add]
        exact congrArg twoPow (by omega)
      have exact := roundDiv_mul_right (n * twoPow (52 - n.log2)) 1 (twoPow_pos (n.log2 + 1022))
      rw [Nat.one_mul, roundDiv_one] at exact
      rw [nearestWhole_of_lt few, split, ← Nat.mul_assoc, exact]
    · have split : twoPow (n.log2 + 1022) = twoPow (lastPlace n) * unitsPerOne := by
        rw [unitsPerOne, ← twoPow_add]
        exact congrArg twoPow (by unfold lastPlace; omega)
      rw [split, roundDiv_mul_right _ _ unitsPerOne_pos, nearestWhole, Nat.mul_assoc]

theorem nearestWhole_of_le {n : Nat} (small : n ≤ exactBound) : nearestWhole n = n := by
  rcases Nat.lt_or_eq_of_le small with less | same
  · exact nearestWhole_of_lt less
  · rw [same]
    decide +kernel

theorem lt_nearestWhole {n : Nat} (large : exactBound + 1 < n) : exactBound < nearestWhole n := by
  have digits := le_roundDiv n (twoPow (lastPlace n))
  have positive : 0 < n := by omega
  have long : 53 ≤ n.log2 := (Nat.le_log2 (Nat.ne_of_gt positive)).mpr (by
    have : (2 : Nat) ^ 53 = exactBound := rfl
    omega)
  unfold nearestWhole
  rcases Nat.lt_or_ge n.log2 54 with short | longer
  · have place : lastPlace n = 1 := by
      unfold lastPlace
      omega
    have two : twoPow 1 = 2 := rfl
    rw [place, two] at digits ⊢
    simp only [exactBound] at large ⊢
    omega
  · -- Two digits and more are lost, but the first 53 make a number that is large enough.
    have low : twoPow 52 * twoPow (lastPlace n) ≤ n := by
      rw [← twoPow_add]
      have exponent : 52 + lastPlace n = n.log2 := by
        unfold lastPlace
        omega
      rw [exponent]
      exact Nat.log2_self_le (Nat.ne_of_gt positive)
    have quotient : twoPow 52 ≤ n / twoPow (lastPlace n) :=
      (Nat.le_div_iff_mul_le (twoPow_pos _)).mpr low
    have weight : twoPow 2 ≤ twoPow (lastPlace n) :=
      twoPow_le_twoPow (by unfold lastPlace; omega)
    have product := Nat.mul_le_mul (Nat.le_trans quotient digits) weight
    have bound : exactBound < twoPow 52 * twoPow 2 := by decide
    omega

theorem nearestWhole_le (n : Nat) : nearestWhole n ≤ 2 * n + 1 := by
  have digits := roundDiv_le n (twoPow (lastPlace n))
  have weight : twoPow (lastPlace n) ≤ n + 1 := by
    rcases Nat.eq_zero_or_pos n with rfl | positive
    · exact Nat.le_refl 1
    · have low : twoPow n.log2 ≤ n := Nat.log2_self_le (Nat.ne_of_gt positive)
      have := twoPow_le_twoPow (show lastPlace n ≤ n.log2 by unfold lastPlace; omega)
      omega
  have product := Nat.mul_le_mul_right (twoPow (lastPlace n)) digits
  have whole := Nat.div_mul_le_self n (twoPow (lastPlace n))
  rw [Nat.add_mul, Nat.one_mul] at product
  unfold nearestWhole
  omega

namespace Number

theorem toInt?_ofInt {n : Int} (small : n.natAbs < twoPow 64) :
    (ofInt n).toInt? =
      some (if n < 0 then -(nearestWhole n.natAbs : Int) else nearestWhole n.natAbs) := by
  have rounded := round_units n.natAbs
  have below : nearestWhole n.natAbs * unitsPerOne < overflowBound := by
    have split : overflowBound = twoPow 1024 * unitsPerOne := by
      unfold overflowBound unitsPerOne
      rw [← twoPow_add]
    rw [split]
    apply Nat.mul_lt_mul_of_pos_right _ unitsPerOne_pos
    have bound := nearestWhole_le n.natAbs
    have huge : twoPow 66 ≤ twoPow 1024 := twoPow_le_twoPow (by decide)
    have room : 2 * twoPow 64 + 1 < twoPow 66 := by decide
    omega
  unfold ofInt ofUnits
  simp only [Nat.div_one, Nat.one_mul]
  rw [dif_pos (by rw [rounded]; exact below)]
  simp only [toInt?, rounded, Nat.mul_mod_left, Nat.mul_div_cancel _ unitsPerOne_pos, if_true]
  simp

theorem ofInt_natCast (n : Nat) : ofInt n = ofNat n := by
  have sign : decide ((n : Int) < 0) = false := decide_eq_false (by omega)
  unfold ofInt ofNat
  rw [sign, Int.natAbs_natCast]

theorem toInt?_ofInt_of_le {n : Int} (small : n.natAbs ≤ exactBound) :
    (ofInt n).toInt? = some n := by
  have room : exactBound < twoPow 64 := by decide
  rw [toInt?_ofInt (by omega), nearestWhole_of_le small]
  split <;> congr 1 <;> omega

/-- Whole numbers beyond the bound, but for the first one, do not become ones within it. -/
theorem exists_toInt?_ofInt {n : Int} (large : exactBound + 1 < n.natAbs)
    (small : n.natAbs < twoPow 64) :
    ∃ whole, (ofInt n).toInt? = some whole ∧ exactBound < whole.natAbs := by
  have beyond := lt_nearestWhole large
  refine ⟨_, toInt?_ofInt small, ?_⟩
  split
  next => rwa [Int.natAbs_neg, Int.natAbs_natCast]
  next => rwa [Int.natAbs_natCast]

/-- The first whole number beyond the bound becomes the bound. -/
theorem toInt?_ofInt_next {n : Int} (next : n.natAbs = exactBound + 1) :
    (ofInt n).toInt? = some (if n < 0 then -(exactBound : Int) else exactBound) := by
  have rounded : nearestWhole (exactBound + 1) = exactBound := by decide +kernel
  have room : exactBound + 1 < twoPow 64 := by decide
  rw [toInt?_ofInt (by omega), next, rounded]

end Number

end ObjectModel
