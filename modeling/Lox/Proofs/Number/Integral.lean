import Lox.Proofs.Number.StoredText
import Mathlib.Data.Nat.Cast.Field

/-!
# Whole numbers among the doubles

The value of a double is a whole number if dividing out its power of two leaves no remainder. Every
whole number is read as a double of which this holds: up to 53 binary digits it is that double, and
with more digits only doubles come into question that are whole numbers.

So the decimal that stands for any other double has digits behind the point.
-/

namespace Lox

namespace Number

/-- The magnitude of a code as the quotient that its scale gives. -/
theorem magnitude_eq_div (code : Nat) :
    magnitude code =
      (significand code * 2 ^ (scale code).toNat : Nat) / (2 ^ (-scale code).toNat : Nat) := by
  unfold magnitude
  rw [zpow_eq_div]
  push_cast
  ring

/-- What an integral code stands for is its magnitude. -/
theorem wholeValue_eq {code : Nat} (integral : isIntegral code) :
    (wholeValue code : ℚ) = magnitude code := by
  have divides : 2 ^ (-scale code).toNat ∣ significand code :=
    Nat.dvd_of_mod_eq_zero (of_decide_eq_true integral)
  rw [magnitude_eq_div, wholeValue,
    Nat.cast_div (divides.mul_right _) (by positivity)]

/-- A code is integral if its magnitude is a whole number. -/
theorem isIntegral_iff (code : Nat) : isIntegral code ↔ ∃ whole : Nat, magnitude code = whole := by
  refine ⟨fun integral => ⟨_, (wholeValue_eq integral).symm⟩, fun ⟨whole, equal⟩ => ?_⟩
  refine decide_eq_true (Nat.mod_eq_zero_of_dvd ?_)
  obtain isNonneg | isNegative := le_or_gt 0 (scale code)
  · rw [Int.toNat_of_nonpos (Int.neg_nonpos_of_nonneg isNonneg), pow_zero]
    exact one_dvd _
  · rw [magnitude_eq_div, div_eq_iff (by positivity), Int.toNat_of_nonpos isNegative.le, pow_zero,
      mul_one] at equal
    exact ⟨whole, by rw [Nat.mul_comm]; exact_mod_cast equal⟩

/-- Codes from that of the first double on whose neighbour is a whole number away are integral. -/
theorem isIntegral_of_le {code : Nat} (isLarge : 1075 * 2 ^ 52 ≤ code) : isIntegral code := by
  have noPlaces : (-scale code).toNat = 0 := by
    unfold scale
    rw [if_neg (by omega)]
    omega
  unfold isIntegral
  rw [noPlaces, pow_zero, Nat.mod_one]
  rfl

/-- The code of a significand of 53 binary digits on a scale below one is integral if dividing by the
power of two leaves no remainder. -/
theorem isIntegral_of_dvd {significand places : Nat} (low : 2 ^ 52 ≤ significand)
    (high : significand < 2 ^ 53) (isShort : places ≤ 1074) (divides : 2 ^ places ∣ significand) :
    isIntegral ((1074 - places) * 2 ^ 52 + significand) := by
  have isNormal : ¬(1074 - places) * 2 ^ 52 + significand < 2 ^ 52 := by omega
  have isScale : (-scale ((1074 - places) * 2 ^ 52 + significand)).toNat = places := by
    unfold scale
    rw [if_neg isNormal]
    omega
  have isSignificand :
      Number.significand ((1074 - places) * 2 ^ 52 + significand) = significand := by
    unfold Number.significand
    rw [if_neg isNormal]
    omega
  unfold isIntegral
  rw [isScale, isSignificand]
  exact decide_eq_true (Nat.mod_eq_zero_of_dvd divides)

/-- A whole number is read as an integral code. -/
theorem isIntegral_nearestCode {whole : Nat} (someValue : whole ≠ 0) :
    isIntegral (nearestCode whole 1) := by
  have positive := Nat.pos_of_ne_zero someValue
  have isLog : Int.log 2 ((whole : ℚ) / (1 : Nat)) = Nat.log 2 whole := by
    rw [Nat.cast_one, div_one, Int.log_natCast]
  by_cases isShort : Nat.log 2 whole ≤ 52
  · -- The number has as many digits as a significand, with zeros behind it.
    obtain ⟨places, isPlaces⟩ := Nat.exists_eq_add_of_le isShort
    have low : 2 ^ 52 ≤ whole * 2 ^ places := by
      rw [isPlaces, pow_add]
      exact Nat.mul_le_mul_right _ (Nat.pow_log_le_self 2 someValue)
    have high : whole * 2 ^ places < 2 ^ 53 := by
      rw [show 53 = (Nat.log 2 whole).succ + places by omega, pow_add]
      exact Nat.mul_lt_mul_of_pos_right (Nat.lt_pow_succ_log_self one_lt_two whole) (by positivity)
    have equal : (whole : ℚ) / (1 : Nat) = (whole * 2 ^ places : Nat) * 2 ^ (-places : Int) := by
      rw [Nat.cast_one, div_one, Nat.cast_mul, mul_assoc, Nat.cast_pow, Nat.cast_ofNat, ← zpow_natCast,
        ← zpow_add₀ two_ne_zero, add_neg_cancel, zpow_zero, mul_one]
    rw [nearestCode_of_scaled positive Nat.one_pos equal (by rw [isLog]; omega),
      show (-(places : Int) + 1074).toNat = 1074 - places by omega]
    exact isIntegral_of_dvd low high (by omega) (Nat.dvd_mul_left _ _)
  · rw [nearestCode_eq positive Nat.one_pos, isLog]
    refine isIntegral_of_le (Nat.le_add_right_of_le (Nat.mul_le_mul_right _ ?_))
    omega

/-- A decimal without places behind the point is read as an integral code. -/
theorem isIntegral_of_toNumber {d : Decimal} {code : Nat} (isFinite : code < finiteCodes)
    (isRead : d.toNumber false = ofCode false code) (isWhole : 0 ≤ d.exponent) :
    isIntegral code := by
  unfold ofCode at isRead
  rw [dif_pos isFinite] at isRead
  by_cases noDigit : d.digits = 0
  · rw [Decimal.toNumber_eq_zero _ noDigit] at isRead
    obtain rfl : 0 = code := congrArg Fin.val (finite.inj isRead).2
    exact (isIntegral_iff 0).mpr ⟨0, by simp [magnitude, significand]⟩
  · rw [Decimal.toNumber_eq _ noDigit, Int.toNat_of_nonpos (Int.neg_nonpos_of_nonneg isWhole),
      pow_zero] at isRead
    have integral : isIntegral (nearestCode (d.digits * 10 ^ d.exponent.toNat) 1) :=
      isIntegral_nearestCode (Nat.mul_ne_zero noDigit (by positivity))
    unfold ofCode at isRead
    split at isRead
    · have same : nearestCode (d.digits * 10 ^ d.exponent.toNat) 1 = code :=
        congrArg Fin.val (finite.inj isRead).2
      rwa [same] at integral
    · cases isRead

end Number

end Lox
