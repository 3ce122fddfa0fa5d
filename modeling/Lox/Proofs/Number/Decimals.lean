import Lox.Number.Notation
import Lox.Proofs.Number.Rounding

/-!
# The values of decimals and doubles

The double nearest to a decimal depends only on the decimal's value, and a decimal that has a
double's value is read as that double. The decimal which stands for a double in texts is found by
dropping digits for as long as this reading does not change, so it is read as that double too.

A number with an exponent is read without computing powers of ten far beyond all doubles. Nothing
is lost by that, because such values round to infinity or to zero.
-/

namespace Lox

/-- The magnitude that a code stands for. -/
def Number.magnitude (code : Nat) : ℚ :=
  Number.significand code * 2 ^ Number.scale code

/-- The value of a decimal. -/
def Decimal.value (d : Decimal) : ℚ :=
  d.digits * 10 ^ d.exponent

/-- The logarithm of a whole number with a fixed number of binary digits, times a power of two. -/
theorem log_scaled {significand : Nat} (length : Nat) (low : 2 ^ length ≤ significand)
    (high : significand < 2 ^ (length + 1)) (scale : Int) :
    Int.log 2 ((significand : ℚ) * 2 ^ scale) = length + scale := by
  have someValue : 0 < significand := Nat.lt_of_lt_of_le (Nat.two_pow_pos _) low
  have above : (0 : ℚ) < (significand : ℚ) * 2 ^ scale := by positivity
  apply le_antisymm
  · rw [← Int.lt_add_one_iff, ← Int.lt_zpow_iff_log_lt one_lt_two above, Nat.cast_ofNat,
      add_right_comm, zpow_add₀ two_ne_zero]
    gcongr
    exact_mod_cast high
  · rw [← Int.zpow_le_iff_le_log one_lt_two above, Nat.cast_ofNat, zpow_add₀ two_ne_zero]
    gcongr
    exact_mod_cast low

/-- A quotient that has the magnitude of a code rounds to that code. -/
theorem nearestCode_of_magnitude {numerator denominator code : Nat} (someValue : 0 < numerator)
    (positive : 0 < denominator)
    (equal : (numerator : ℚ) / denominator = Number.magnitude code) :
    nearestCode numerator denominator = code := by
  have above : (0 : ℚ) < (numerator : ℚ) / denominator := by positivity
  unfold Number.magnitude Number.significand Number.scale at equal
  by_cases isSubnormal : code < 2 ^ 52
  · rw [if_pos isSubnormal, if_pos isSubnormal] at equal
    have small : (numerator : ℚ) / denominator < 2 ^ (-1022 : Int) := by
      rw [equal, show (-1022 : Int) = (52 : Nat) + -1074 by rfl, zpow_add₀ two_ne_zero]
      gcongr
      exact_mod_cast isSubnormal
    have leading : Int.log 2 ((numerator : ℚ) / denominator) < -1022 :=
      (Int.lt_zpow_iff_log_lt one_lt_two above).mp (by rwa [Nat.cast_ofNat])
    rw [nearestCode_of_scaled someValue positive equal (max_eq_right (by omega))]
    exact Nat.zero_add code
  · rw [if_neg isSubnormal, if_neg isSubnormal] at equal
    have remainder := Nat.mod_lt code (Nat.two_pow_pos 52)
    have leading := congrArg (Int.log 2) equal
    rw [log_scaled 52 (Nat.le_add_right _ _) (by omega)] at leading
    rw [nearestCode_of_scaled someValue positive equal (by omega)]
    omega

namespace Decimal

/-- The value of a decimal as the quotient that it is read from. -/
theorem value_eq_div (d : Decimal) :
    d.value = (d.digits * 10 ^ d.exponent.toNat : Nat) / (10 ^ (-d.exponent).toNat : Nat) := by
  unfold value
  rw [zpow_eq_div]
  push_cast
  ring

/-- A decimal has no value where it has no digit but zeros. -/
theorem value_eq_zero_iff (d : Decimal) : d.value = 0 ↔ d.digits = 0 := by
  unfold value
  simp [zpow_ne_zero]

/-- A decimal with digits is read as the double nearest to the quotient that it stands for. -/
theorem toNumber_eq (negative : Bool) {d : Decimal} (someDigit : d.digits ≠ 0) :
    d.toNumber negative =
      Number.ofCode negative
        (nearestCode (d.digits * 10 ^ d.exponent.toNat) (10 ^ (-d.exponent).toNat)) := by
  unfold toNumber Number.ofQuotient
  rw [if_neg (by positivity)]

/-- A decimal without digits is read as zero. -/
theorem toNumber_eq_zero (negative : Bool) {d : Decimal} (noDigit : d.digits = 0) :
    d.toNumber negative = Number.zero negative := by
  unfold toNumber Number.ofQuotient
  rw [noDigit, Nat.zero_mul, if_pos rfl]

/-- Decimals of one value are read as one number. -/
theorem toNumber_congr (negative : Bool) {d other : Decimal} (equal : d.value = other.value) :
    d.toNumber negative = other.toNumber negative := by
  have zeros : d.digits = 0 ↔ other.digits = 0 := by
    rw [← value_eq_zero_iff, ← value_eq_zero_iff, equal]
  by_cases noDigit : d.digits = 0
  · rw [toNumber_eq_zero negative noDigit, toNumber_eq_zero negative (zeros.mp noDigit)]
  · rw [toNumber_eq negative noDigit, toNumber_eq negative (mt zeros.mpr noDigit)]
    rw [value_eq_div, value_eq_div] at equal
    rw [nearestCode_congr (by positivity) (by positivity) (by positivity) equal]

/-- A decimal that has the magnitude of a code is read as the double of that code. -/
theorem toNumber_of_magnitude (negative : Bool) {d : Decimal} {code : Nat}
    (equal : d.value = Number.magnitude code) :
    d.toNumber negative = Number.ofCode negative code := by
  by_cases noDigit : d.digits = 0
  · have isZero : code = 0 := by
      rw [(value_eq_zero_iff d).mpr noDigit] at equal
      unfold Number.magnitude Number.significand at equal
      have := (mul_eq_zero.mp equal.symm).resolve_right (zpow_ne_zero _ two_ne_zero)
      split at this <;> norm_cast at this
      omega
    rw [toNumber_eq_zero negative noDigit, isZero]
    rfl
  · rw [value_eq_div] at equal
    rw [toNumber_eq negative noDigit,
      nearestCode_of_magnitude (by positivity) (by positivity) equal]

/-- The exact decimal of a code has the magnitude of the code. -/
theorem value_ofCode (code : Nat) : (ofCode code).value = Number.magnitude code := by
  unfold value ofCode Number.magnitude
  dsimp only
  obtain isNonneg | isNegative := le_or_gt 0 (Number.scale code)
  · obtain ⟨power, isPower⟩ := Int.eq_ofNat_of_zero_le isNonneg
    simp [isPower]
  · obtain ⟨power, isPower⟩ := Int.eq_negSucc_of_lt_zero isNegative
    rw [min_eq_left isNegative.le, isPower, Int.toNat_negSucc, pow_zero, mul_one]
    rw [zpow_negSucc, zpow_negSucc, Int.neg_negSucc, Int.toNat_natCast]
    push_cast
    rw [show (10 : ℚ) = 5 * 2 by norm_num, mul_pow]
    field_simp

/-- A neighbour is only given where it is accepted. -/
theorem accepted_of_neighbour? {accepted : Decimal → Bool} {d found : Decimal} {dropped : Nat}
    (isFound : d.neighbour? accepted dropped = some found) : accepted found := by
  unfold neighbour? at isFound
  dsimp only at isFound
  split at isFound <;> cases isFound
  · next acceptedBelow acceptedAbove =>
    -- Rounding decides between two decimals, and here both are accepted.
    unfold nearest
    obtain isDown | isUp := roundQuotient_eq_or d.digits (10 ^ dropped)
    · rw [isDown]
      exact acceptedBelow
    · rw [isUp]
      exact acceptedAbove
  · next acceptedBelow _ => exact acceptedBelow
  · next _ acceptedAbove => exact acceptedAbove

/-- Dropping digits from an accepted decimal ends at an accepted one. -/
theorem accepted_shortened {accepted : Decimal → Bool} {d : Decimal} (isAccepted : accepted d)
    (dropped : Nat) : accepted (d.shortened accepted dropped) := by
  induction dropped with
  | zero => exact isAccepted
  | succ dropped ih =>
    unfold shortened
    split
    · next found isFound => exact accepted_of_neighbour? isFound
    · exact ih

/-- The shortest decimal of a code is read as the double of that code. -/
theorem toNumber_shortest (code : Nat) :
    (shortest code).toNumber false = Number.ofCode false code := by
  let accepted (d : Decimal) : Bool := d.toNumber false = Number.ofCode false code
  have isAccepted : accepted (ofCode code) :=
    decide_eq_true (toNumber_of_magnitude false (value_ofCode code))
  exact of_decide_eq_true (accepted_shortened isAccepted _)

end Decimal

/-- Two codes give one double with either sign, or with neither. -/
theorem Number.ofCode_congr {code other : Nat} (same : ofCode false code = ofCode false other)
    (negative : Bool) : ofCode negative code = ofCode negative other := by
  unfold ofCode at same ⊢
  by_cases isFinite : code < finiteCodes <;> by_cases isFinite' : other < finiteCodes
  · rw [dif_pos isFinite, dif_pos isFinite'] at same ⊢
    rw [(finite.inj same).2]
  · rw [dif_pos isFinite, dif_neg isFinite'] at same
    cases same
  · rw [dif_neg isFinite, dif_pos isFinite'] at same
    cases same
  · rw [dif_neg isFinite, dif_neg isFinite']

/-- The sign of a decimal becomes the sign of the double. -/
theorem Decimal.toNumber_sign {d : Decimal} {code : Nat}
    (isRead : d.toNumber false = Number.ofCode false code) (negative : Bool) :
    d.toNumber negative = Number.ofCode negative code := by
  by_cases noDigit : d.digits = 0
  · rw [toNumber_eq_zero _ noDigit] at isRead ⊢
    have zero : Number.ofCode false 0 = Number.ofCode false code := isRead
    exact Number.ofCode_congr zero negative
  · rw [toNumber_eq _ noDigit] at isRead ⊢
    exact Number.ofCode_congr isRead negative

namespace Decimal

/-- Powers of ten reach far beyond the doubles. -/
theorem two_pow_le_ten_pow : (2 : ℚ) ^ (1200 : Int) ≤ 10 ^ (400 : Int) :=
  calc (2 : ℚ) ^ (1200 : Int)
    _ = (2 ^ (3 : Int)) ^ (400 : Int) := by rw [← zpow_mul]; rfl
    _ ≤ 10 ^ (400 : Int) := zpow_le_zpow_left₀ (by decide) (by norm_num) (by norm_num)

/-- A value lies below the power of ten which its last digit and the number of digits give. -/
theorem value_lt (d : Decimal) :
    d.value < 10 ^ ((Nat.toDigits 10 d.digits).length + d.exponent) := by
  have below : d.digits < 10 ^ (Nat.toDigits 10 d.digits).length :=
    (Nat.length_toDigits_le_iff (by decide) Nat.length_toDigits_pos).mp le_rfl
  unfold value
  rw [zpow_add₀ (by decide)]
  gcongr
  exact_mod_cast below

/-- A value with digits is at least the power of ten which stands for its first digit. -/
theorem le_value {d : Decimal} (someDigit : d.digits ≠ 0) :
    10 ^ ((Nat.toDigits 10 d.digits).length + d.exponent - 1) ≤ d.value := by
  obtain ⟨others, isLength⟩ : ∃ others, (Nat.toDigits 10 d.digits).length = others + 1 :=
    ⟨_, (Nat.sub_add_cancel Nat.length_toDigits_pos).symm⟩
  have atLeast : 10 ^ others ≤ d.digits := by
    cases others with
    | zero => exact Nat.pos_of_ne_zero someDigit
    | succ others =>
      refine Nat.le_of_not_lt fun isBelow => ?_
      have := (Nat.length_toDigits_le_iff (by decide) (Nat.succ_pos others)).mpr isBelow
      omega
  unfold value
  rw [isLength, show ((others + 1 : Nat) : Int) + d.exponent - 1 = others + d.exponent by omega,
    zpow_add₀ (by decide)]
  gcongr
  exact_mod_cast atLeast

/-- A decimal far below all doubles is read as zero. -/
theorem toNumber_of_small (negative : Bool) {d : Decimal} (someDigit : d.digits ≠ 0)
    (isSmall : (Nat.toDigits 10 d.digits).length + d.exponent < -400) :
    d.toNumber negative = Number.zero negative := by
  have tiny := calc d.value
    _ < 10 ^ ((Nat.toDigits 10 d.digits).length + d.exponent) := value_lt d
    _ ≤ 10 ^ (-400 : Int) := zpow_le_zpow_right₀ (by decide) isSmall.le
    _ = (10 ^ (400 : Int))⁻¹ := zpow_neg ..
    _ ≤ (2 ^ (1200 : Int))⁻¹ := inv_anti₀ (by positivity) two_pow_le_ten_pow
    _ = 2 ^ (-1200 : Int) := (zpow_neg ..).symm
    _ ≤ 2 ^ (-1075 : Int) := zpow_le_zpow_right₀ one_le_two (by decide)
  rw [value_eq_div] at tiny
  rw [toNumber_eq negative someDigit, nearestCode_eq_zero (by positivity) (by positivity) tiny]
  rfl

/-- A decimal far above all doubles is read as an infinity. -/
theorem toNumber_of_large (negative : Bool) {d : Decimal} (someDigit : d.digits ≠ 0)
    (isLarge : 400 < (Nat.toDigits 10 d.digits).length + d.exponent) :
    d.toNumber negative = .infinite negative := by
  have huge := calc (2 : ℚ) ^ (1024 : Int)
    _ ≤ 2 ^ (1200 : Int) := zpow_le_zpow_right₀ one_le_two (by decide)
    _ ≤ 10 ^ (400 : Int) := two_pow_le_ten_pow
    _ ≤ 10 ^ ((Nat.toDigits 10 d.digits).length + d.exponent - 1) :=
      zpow_le_zpow_right₀ (by decide) (by omega)
    _ ≤ d.value := le_value someDigit
  rw [value_eq_div] at huge
  have beyond := finiteCodes_le_nearestCode (by positivity) (by positivity) huge
  rw [toNumber_eq negative someDigit, Number.ofCode, dif_neg (Nat.not_lt.mpr beyond)]

end Decimal

/-- Reading a number with an exponent is reading its decimal: what is not computed would round to
infinity or to zero. -/
theorem Number.ofScientific_eq (negative : Bool) (digits fraction : List Char) (exponent : Int) :
    ofScientific negative digits fraction exponent =
      Decimal.toNumber negative
        ⟨Nat.ofDigitChars 10 (digits ++ fraction) 0, exponent - fraction.length⟩ := by
  unfold ofScientific
  dsimp only
  generalize Nat.ofDigitChars 10 (digits ++ fraction) 0 = value
  generalize exponent - (fraction.length : Int) = power
  by_cases noDigit : value = 0
  · rw [if_pos (by simp [noDigit]), Decimal.toNumber_eq_zero (d := ⟨value, power⟩) _ noDigit]
  split
  · next isSmall =>
    simp only [noDigit, decide_false, Bool.false_or, decide_eq_true_eq] at isSmall
    rw [Decimal.toNumber_of_small (d := ⟨value, power⟩) _ noDigit isSmall]
  · split
    · next isLarge =>
      rw [Decimal.toNumber_of_large (d := ⟨value, power⟩) _ noDigit isLarge]
    · rfl

end Lox
