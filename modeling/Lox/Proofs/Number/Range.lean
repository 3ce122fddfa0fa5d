import Lox.Number.Notation
import Lox.Proofs.Number.Rounding

/-!
# The range of the doubles

A whole number is read as the nearest double. From the middle between the largest double and the power of
two behind it the nearest is infinity: of the two neighbours of the middle, that power has the even code.
-/

namespace Lox

variable {numerator denominator whole : Nat}

/-- A quotient rounds to an even number or above it unless it lies more than a half below. -/
theorem even_le_roundQuotient_iff (positive : 0 < denominator) (half : Nat) :
    2 * half ≤ roundQuotient numerator denominator ↔
      4 * half * denominator ≤ 2 * numerator + denominator := by
  have split := Nat.div_add_mod numerator denominator
  have small := Nat.mod_lt numerator positive
  unfold roundQuotient
  dsimp only
  generalize numerator / denominator = quotient at *
  generalize numerator % denominator = remainder at *
  rw [← split, show 4 * half * denominator = 2 * (denominator * (2 * half)) by ring]
  obtain below | equal | above := Nat.lt_trichotomy (quotient + 1) (2 * half)
  · obtain ⟨more, isMore⟩ := Nat.exists_eq_add_of_lt below
    rw [isMore, show denominator * (quotient + 1 + more + 1) =
      denominator * quotient + 2 * denominator + denominator * more by ring]
    split_ifs <;> omega
  · rw [← equal, Nat.mul_succ]
    split_ifs <;> omega
  · obtain ⟨more, isMore⟩ := Nat.exists_eq_add_of_le (Nat.le_of_lt_succ above)
    rw [isMore, Nat.mul_add denominator]
    split_ifs <;> omega

/-- The code that a whole number rounds to is given by its number of binary digits and the significand that
these leave. -/
theorem nearestCode_whole (someValue : 0 < whole) :
    nearestCode whole 1 = (Nat.log 2 whole + 1022) * 2 ^ 52 +
      roundQuotient (whole * 2 ^ (52 - Nat.log 2 whole)) (2 ^ (Nat.log 2 whole - 52)) := by
  have isLog : Int.log 2 ((whole : ℚ) / (1 : Nat)) = Nat.log 2 whole := by
    rw [Nat.cast_one, div_one, Int.log_natCast]
  rw [nearestCode_eq someValue Nat.one_pos, isLog, max_eq_left (by omega)]
  generalize Nat.log 2 whole = length
  dsimp only
  rw [show ((length : Int) - 52 + 1074).toNat = length + 1022 by omega,
    show (-((length : Int) - 52)).toNat = 52 - length by omega,
    show ((length : Int) - 52).toNat = length - 52 by omega, Nat.one_mul]

/-- The significand of a whole number has at most 53 binary digits, or is the power of two behind these. -/
theorem significand_whole_le :
    roundQuotient (whole * 2 ^ (52 - Nat.log 2 whole)) (2 ^ (Nat.log 2 whole - 52)) ≤ 2 ^ 53 := by
  have below := Nat.lt_pow_succ_log_self one_lt_two whole
  have quotient :
      whole * 2 ^ (52 - Nat.log 2 whole) / 2 ^ (Nat.log 2 whole - 52) < 2 ^ 53 := by
    rw [Nat.div_lt_iff_lt_mul (by positivity), ← pow_add]
    calc whole * 2 ^ (52 - Nat.log 2 whole)
      _ < 2 ^ (Nat.log 2 whole + 1) * 2 ^ (52 - Nat.log 2 whole) := by gcongr
      _ = 2 ^ (53 + (Nat.log 2 whole - 52)) := by
        rw [← pow_add]
        congr 1
        omega
  obtain isDown | isUp := roundQuotient_eq_or
    (whole * 2 ^ (52 - Nat.log 2 whole)) (2 ^ (Nat.log 2 whole - 52)) <;> omega

/-- A number with few binary digits is small. -/
theorem lt_of_log_lt_add {first second : Nat} (short : Nat.log 2 whole < first + second) :
    whole < 2 ^ first * 2 ^ second := by
  rw [← pow_add]
  exact Nat.lt_pow_of_log_lt one_lt_two short

/-- A number with many binary digits is large. -/
theorem le_of_add_le_log {first second : Nat} (someValue : 0 < whole)
    (long : first + second ≤ Nat.log 2 whole) : 2 ^ first * 2 ^ second ≤ whole := by
  rw [← pow_add]
  exact (Nat.pow_le_pow_right Nat.two_pos long).trans (Nat.pow_log_le_self 2 someValue.ne')

/-- The middle between the largest double and the power of two behind it. -/
def Number.firstInfinite : Nat :=
  (2 ^ 54 - 1) * 2 ^ 970

/-- A whole number rounds to infinity from that middle on. -/
theorem finiteCodes_le_nearestCode_whole (someValue : 0 < whole) :
    finiteCodes ≤ nearestCode whole 1 ↔ Number.firstInfinite ≤ whole := by
  have low := Nat.pow_log_le_self 2 someValue.ne'
  have significand := @significand_whole_le whole
  have isCode := nearestCode_whole someValue
  unfold Number.firstInfinite finiteCodes
  obtain below | equal | above := Nat.lt_trichotomy (Nat.log 2 whole) 1023
  · have short : whole < 2 ^ 53 * 2 ^ 970 := lt_of_log_lt_add below
    generalize 2 ^ 970 = unit at *
    omega
  · have isUnit : 2 ^ (Nat.log 2 whole - 52) = 2 * 2 ^ 970 := by
      rw [show Nat.log 2 whole - 52 = 970 + 1 by omega, pow_succ']
    -- The power of two is an even number of units of the last digit, so the middle rounds up to it.
    have rounded := @even_le_roundQuotient_iff whole (2 * 2 ^ 970) (by positivity) (2 ^ 52)
    rw [isUnit, show 52 - Nat.log 2 whole = 0 by omega, pow_zero, Nat.mul_one] at isCode
    generalize 2 ^ 970 = unit at *
    omega
  · have long : (2 : ℚ) ^ (1024 : Int) ≤ (whole : ℚ) / (1 : Nat) := by
      rw [Nat.cast_one, div_one]
      calc (2 : ℚ) ^ (1024 : Int)
        _ ≤ 2 ^ (Nat.log 2 whole : Int) := zpow_le_zpow_right₀ one_le_two (by omega)
        _ = ((2 ^ Nat.log 2 whole : Nat) : ℚ) := by norm_cast
        _ ≤ whole := by exact_mod_cast low
    have infinite := finiteCodes_le_nearestCode someValue Nat.one_pos long
    have beyond : 2 ^ 54 * 2 ^ 970 ≤ whole := le_of_add_le_log someValue above
    exact iff_of_true infinite ((Nat.mul_le_mul_right _ (Nat.sub_le _ _)).trans beyond)

namespace Number

/-- An integer is too large for a double from that middle on, whatever its sign. -/
theorem ofInt?_eq_none_iff {value : Int} : ofInt? value = none ↔ firstInfinite ≤ value.natAbs := by
  have someMiddle : 0 < firstInfinite := by
    unfold firstInfinite
    positivity
  unfold ofInt? ofQuotient
  by_cases isZero : value.natAbs = 0
  · rw [if_pos isZero, isZero]
    exact iff_of_false nofun (Nat.not_le.mpr someMiddle)
  · rw [if_neg isZero, ← finiteCodes_le_nearestCode_whole (Nat.pos_of_ne_zero isZero), ofCode]
    by_cases isFinite : nearestCode value.natAbs 1 < finiteCodes
    · rw [dif_pos isFinite]
      exact iff_of_false nofun (Nat.not_le.mpr isFinite)
    · rw [dif_neg isFinite]
      exact iff_of_true rfl (Nat.le_of_not_lt isFinite)

end Number

end Lox
