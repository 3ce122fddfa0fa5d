import Lox.Number.Decimal
import Mathlib.Algebra.Order.Field.Power
import Mathlib.Data.Int.Log
import Mathlib.Data.Rat.Floor
import Mathlib.Tactic.FieldSimp
import Mathlib.Tactic.Linarith
import Mathlib.Tactic.NormNum
import Mathlib.Tactic.Positivity

/-!
# Correct rounding

The double nearest to a quotient depends on nothing but the value of the quotient, a value that a
double has rounds to that double, and values beyond all doubles round to infinity or to zero. So
texts that write one value in different ways are read as one number.

Values are compared as rational numbers. The exponent of the leading binary digit is the integral
logarithm of the value, which fixes the scale on which the significand is rounded.
-/

namespace Lox

/-- A power of an integral exponent as the quotient of two powers, of which one is trivial. -/
theorem zpow_eq_div (base : ℚ) (exponent : Int) :
    base ^ exponent = base ^ exponent.toNat / base ^ (-exponent).toNat := by
  obtain isNonneg | isNegative := le_or_gt 0 exponent
  · obtain ⟨power, rfl⟩ := Int.eq_ofNat_of_zero_le isNonneg
    simp
  · obtain ⟨power, rfl⟩ := Int.eq_negSucc_of_lt_zero isNegative
    simp [zpow_negSucc]

section Quotients

variable {numerator denominator : Nat}

/-- Rounding a quotient is not affected by a common factor. -/
theorem roundQuotient_mul_left {factor : Nat} (positive : 0 < factor)
    (numerator denominator : Nat) :
    roundQuotient (factor * numerator) (factor * denominator) =
      roundQuotient numerator denominator := by
  unfold roundQuotient
  rw [Nat.mul_div_mul_left _ _ positive, Nat.mul_mod_mul_left]
  simp only [Nat.mul_left_comm 2 factor, Nat.mul_lt_mul_left positive]

/-- Equal quotients are rounded alike. -/
theorem roundQuotient_congr {numerator' denominator' : Nat} (positive : 0 < denominator)
    (positive' : 0 < denominator')
    (equal : numerator * denominator' = numerator' * denominator) :
    roundQuotient numerator denominator = roundQuotient numerator' denominator' := by
  rw [← roundQuotient_mul_left positive', ← roundQuotient_mul_left positive numerator',
    Nat.mul_comm denominator', equal, Nat.mul_comm numerator', Nat.mul_comm denominator']

/-- Rounding leaves whole numbers as they are. -/
theorem roundQuotient_of_mul (positive : 0 < denominator) (whole : Nat) :
    roundQuotient (whole * denominator) denominator = whole := by
  unfold roundQuotient
  rw [Nat.mul_div_cancel _ positive, Nat.mul_mod_left]
  exact if_pos positive

/-- Rounding goes to one of the two whole numbers around a quotient. -/
theorem roundQuotient_eq_or (numerator denominator : Nat) :
    roundQuotient numerator denominator = numerator / denominator ∨
      roundQuotient numerator denominator = numerator / denominator + 1 := by
  unfold roundQuotient
  dsimp only
  split
  · exact .inl rfl
  · split
    · exact .inr rfl
    · obtain even | odd := Nat.mod_two_eq_zero_or_one (numerator / denominator)
      · exact .inl (by rw [even, Nat.add_zero])
      · exact .inr (by rw [odd])

/-- A quotient below one half is rounded to zero. -/
theorem roundQuotient_eq_zero (small : 2 * numerator < denominator) :
    roundQuotient numerator denominator = 0 := by
  unfold roundQuotient
  rw [Nat.mod_eq_of_lt (by omega), if_pos small, Nat.div_eq_of_lt (by omega)]

/-- The logarithm of a positive quotient is the difference of the logarithms or one less. -/
theorem log_quotient_bounds (someValue : 0 < numerator) (positive : 0 < denominator) :
    (numerator.log2 : Int) - denominator.log2 - 1 ≤ Int.log 2 ((numerator : ℚ) / denominator) ∧
      Int.log 2 ((numerator : ℚ) / denominator) < (numerator.log2 : Int) - denominator.log2 + 1 := by
  have above : (0 : ℚ) < (numerator : ℚ) / denominator := by positivity
  have atLeast : (2 : ℚ) ^ numerator.log2 ≤ numerator := by
    exact_mod_cast Nat.log2_self_le someValue.ne'
  have below : (numerator : ℚ) < 2 ^ (numerator.log2 + 1) := by
    exact_mod_cast Nat.lt_log2_self
  have atLeast' : (2 : ℚ) ^ denominator.log2 ≤ denominator := by
    exact_mod_cast Nat.log2_self_le positive.ne'
  have below' : (denominator : ℚ) < 2 ^ (denominator.log2 + 1) := by
    exact_mod_cast Nat.lt_log2_self
  have split (high low : Nat) : (2 : ℚ) ^ ((high : Int) - low) = 2 ^ high / 2 ^ low := by
    rw [zpow_sub₀ two_ne_zero, zpow_natCast, zpow_natCast]
  constructor
  · rw [← Int.zpow_le_iff_le_log one_lt_two above, Nat.cast_ofNat,
      show (numerator.log2 : Int) - denominator.log2 - 1 =
        numerator.log2 - (denominator.log2 + 1 : Nat) by omega, split]
    exact div_le_div₀ (by positivity) atLeast (by positivity) below'.le
  · rw [← Int.lt_zpow_iff_log_lt one_lt_two above, Nat.cast_ofNat,
      show (numerator.log2 : Int) - denominator.log2 + 1 =
        (numerator.log2 + 1 : Nat) - (denominator.log2 : Nat) by omega, split]
    exact div_lt_div₀ below atLeast' (by positivity) (by positivity)

/-- Comparing a positive quotient with a power of two is comparing whole numbers. -/
theorem le_log_quotient_iff (someValue : 0 < numerator) (positive : 0 < denominator)
    (exponent : Int) :
    exponent ≤ Int.log 2 ((numerator : ℚ) / denominator) ↔
      denominator * 2 ^ exponent.toNat ≤ numerator * 2 ^ (-exponent).toNat := by
  have above : (0 : ℚ) < (numerator : ℚ) / denominator := by positivity
  rw [← Int.zpow_le_iff_le_log one_lt_two above, Nat.cast_ofNat, zpow_eq_div,
    div_le_div_iff₀ (by positivity) (by positivity), mul_comm]
  norm_cast

/-- The larger candidate is the logarithm of a positive quotient where the quotient reaches it. -/
theorem log_quotient (someValue : 0 < numerator) (positive : 0 < denominator) {estimate : Int}
    (isEstimate : estimate = (numerator.log2 : Int) - denominator.log2) :
    (if denominator * 2 ^ estimate.toNat ≤ numerator * 2 ^ (-estimate).toNat then estimate
      else estimate - 1) = Int.log 2 ((numerator : ℚ) / denominator) := by
  obtain ⟨atLeast, atMost⟩ := log_quotient_bounds someValue positive
  have reached := le_log_quotient_iff someValue positive estimate
  split
  · next isReached =>
    have := reached.mpr isReached
    omega
  · next isMissed =>
    have := mt reached.mp isMissed
    omega

/-- The nearest double of a positive quotient has the scale that the quotient's logarithm asks
for, and on this scale the nearest whole number for its significand. -/
theorem nearestCode_eq (someValue : 0 < numerator) (positive : 0 < denominator) :
    nearestCode numerator denominator =
      let scale : Int := max (Int.log 2 ((numerator : ℚ) / denominator) - 52) (-1074)
      (scale + 1074).toNat * 2 ^ 52 +
        roundQuotient (numerator * 2 ^ (-scale).toNat) (denominator * 2 ^ scale.toNat) := by
  unfold nearestCode
  dsimp only
  rw [log_quotient someValue positive rfl]

/-- Quotients of one value have one nearest double. -/
theorem nearestCode_congr {numerator' denominator' : Nat} (someValue : 0 < numerator)
    (positive : 0 < denominator) (positive' : 0 < denominator')
    (equal : (numerator : ℚ) / denominator = (numerator' : ℚ) / denominator') :
    nearestCode numerator denominator = nearestCode numerator' denominator' := by
  have crossed : numerator * denominator' = numerator' * denominator := by
    rw [div_eq_div_iff (by positivity) (by positivity)] at equal
    exact_mod_cast equal
  have someValue' : 0 < numerator' :=
    Nat.pos_of_mul_pos_right (crossed ▸ Nat.mul_pos someValue positive')
  rw [nearestCode_eq someValue positive, nearestCode_eq someValue' positive', equal]
  dsimp only
  congr 1
  refine roundQuotient_congr (by positivity) (by positivity) ?_
  rw [Nat.mul_mul_mul_comm, crossed, Nat.mul_mul_mul_comm]

/-- A quotient that is a whole number on its scale has this number for its significand. -/
theorem nearestCode_of_scaled {significand : Nat} {scale : Int} (someValue : 0 < numerator)
    (positive : 0 < denominator)
    (equal : (numerator : ℚ) / denominator = significand * 2 ^ scale)
    (isScale : max (Int.log 2 ((numerator : ℚ) / denominator) - 52) (-1074) = scale) :
    nearestCode numerator denominator = (scale + 1074).toNat * 2 ^ 52 + significand := by
  have whole : numerator * 2 ^ (-scale).toNat = significand * (denominator * 2 ^ scale.toNat) := by
    rw [zpow_eq_div, ← mul_div_assoc, div_eq_div_iff (by positivity) (by positivity)] at equal
    rw [← Nat.cast_inj (R := ℚ)]
    push_cast
    rw [equal]
    ring
  rw [nearestCode_eq someValue positive, isScale]
  dsimp only
  rw [whole, roundQuotient_of_mul (by positivity)]

/-- Rounding gives at least the whole part of a quotient. -/
theorem div_le_roundQuotient (numerator denominator : Nat) :
    numerator / denominator ≤ roundQuotient numerator denominator := by
  obtain isDown | isUp := roundQuotient_eq_or numerator denominator <;> omega

/-- Values from the first power of two that no double reaches round to no finite double. -/
theorem finiteCodes_le_nearestCode (someValue : 0 < numerator) (positive : 0 < denominator)
    (large : (2 : ℚ) ^ (1024 : Int) ≤ (numerator : ℚ) / denominator) :
    finiteCodes ≤ nearestCode numerator denominator := by
  have above : (0 : ℚ) < (numerator : ℚ) / denominator := by positivity
  have leading : 1024 ≤ Int.log 2 ((numerator : ℚ) / denominator) :=
    (Int.zpow_le_iff_le_log one_lt_two above).mp (by rwa [Nat.cast_ofNat])
  have reached := (le_log_quotient_iff someValue positive _).mp le_rfl
  rw [nearestCode_eq someValue positive, max_eq_left (by omega)]
  generalize Int.log 2 ((numerator : ℚ) / denominator) = exponent at *
  obtain ⟨power, rfl⟩ : ∃ power : Nat, exponent = power + 52 := ⟨(exponent - 52).toNat, by omega⟩
  have significand : 2 ^ 52 ≤ numerator * 2 ^ (-((power : Int) + 52 - 52)).toNat /
      (denominator * 2 ^ ((power : Int) + 52 - 52).toNat) := by
    rw [show (-((power : Int) + 52 - 52)).toNat = 0 by omega,
      show ((power : Int) + 52 - 52).toNat = power by omega,
      Nat.le_div_iff_mul_le (by positivity)]
    rw [show (-((power : Int) + 52)).toNat = 0 by omega,
      show ((power : Int) + 52).toNat = 52 + power by omega, pow_add] at reached
    calc 2 ^ 52 * (denominator * 2 ^ power)
      _ = denominator * (2 ^ 52 * 2 ^ power) := Nat.mul_left_comm ..
      _ ≤ numerator * 2 ^ 0 := reached
  have rounded := significand.trans (div_le_roundQuotient _ _)
  have scale : 2046 ≤ ((power : Int) + 52 - 52 + 1074).toNat := by omega
  unfold finiteCodes
  dsimp only
  omega

/-- Values below half of the smallest double round to zero. -/
theorem nearestCode_eq_zero (someValue : 0 < numerator) (positive : 0 < denominator)
    (small : (numerator : ℚ) / denominator < 2 ^ (-1075 : Int)) :
    nearestCode numerator denominator = 0 := by
  have above : (0 : ℚ) < (numerator : ℚ) / denominator := by positivity
  have leading : Int.log 2 ((numerator : ℚ) / denominator) < -1075 :=
    (Int.lt_zpow_iff_log_lt one_lt_two above).mp (by rwa [Nat.cast_ofNat])
  have missed := Nat.lt_of_not_le <|
    mt (le_log_quotient_iff someValue positive (-1075)).mpr (by omega)
  have half : 2 * (numerator * 2 ^ (-(-1074 : Int)).toNat) <
      denominator * 2 ^ (-1074 : Int).toNat := by
    rw [show (-(-1075 : Int)).toNat = (-(-1074 : Int)).toNat + 1 from rfl, pow_succ,
      ← Nat.mul_assoc, Nat.mul_comm _ 2] at missed
    exact missed
  rw [nearestCode_eq someValue positive, max_eq_right (by omega)]
  dsimp only
  rw [roundQuotient_eq_zero half]
  rfl

end Quotients

end Lox
