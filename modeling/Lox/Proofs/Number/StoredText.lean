import Lox.Proofs.Number.Decimals
import Mathlib.Data.List.DropRight

/-!
# Numbers in tree files

The text of a finite number has a whole part, and behind it a fraction, an exponent or both. Such
a numeral stands for a decimal, and the numeral that is written for a double is read as that
double, whichever of the forms was chosen for it.

The digits of a decimal can lose the zeros at their end without a change of its value, and they
never begin with a zero. Positional notation moves the point and adds zeros where it needs them.
-/

namespace Lox

/-- The digits of a number that is not zero begin with another digit. -/
theorem head?_toDigits_ne_zero {n : Nat} (positive : n ≠ 0) :
    (Nat.toDigits 10 n).head? ≠ some '0' := by
  induction n using Nat.strongRecOn with
  | ind n ih =>
    rw [Nat.toDigits_eq_if (by decide)]
    split
    · next isDigit =>
      intro isZero
      have value := Nat.toNat_digitChar_sub_48_of_lt_ten isDigit
      rw [Option.some.inj isZero] at value
      exact positive value.symm
    · next isLarge =>
      rw [List.head?_append_of_ne_nil _ Nat.toDigits_ne_nil]
      exact ih (n / 10) (by omega) (by omega)

/-- The digits of a number are a zero alone, or begin with another digit. -/
theorem toDigits_leading (n : Nat) :
    Nat.toDigits 10 n = ['0'] ∨ ∃ first rest, Nat.toDigits 10 n = first :: rest ∧ first ≠ '0' := by
  by_cases isZero : n = 0
  · exact .inl (by rw [isZero]; rfl)
  · obtain ⟨first, rest, isCons⟩ := List.exists_cons_of_ne_nil (Nat.toDigits_ne_nil (n := n) (b := 10))
    have isLeading := head?_toDigits_ne_zero isZero
    rw [isCons] at isLeading
    exact .inr ⟨first, rest, isCons, fun isZero => isLeading (congrArg some isZero)⟩

/-- The digits of a number begin with one. -/
theorem toDigits_eq_cons (n : Nat) :
    ∃ digit others, Nat.toDigits 10 n = digit :: others ∧ digit.isDigit := by
  obtain ⟨digit, others, isCons⟩ := List.exists_cons_of_ne_nil
    (Nat.toDigits_ne_nil (n := n) (b := 10))
  exact ⟨digit, others, isCons, Nat.isDigit_of_mem_toDigits (b := 10) (n := n) (by decide)
    (by decide) (isCons ▸ List.mem_cons_self)⟩

namespace Decimal

/-- What is kept of the digits and the zeros that follow are the digits of the decimal. -/
theorem digits_significant (d : Decimal) :
    ∃ zeros, Nat.toDigits 10 d.digits = d.significant.1 ++ List.replicate zeros '0' ∧
      d.significant.2 = d.exponent + zeros := by
  have parts := List.rdropWhile_append_rtakeWhile (p := fun digit => digit = '0')
    (l := Nat.toDigits 10 d.digits)
  have zeros : (Nat.toDigits 10 d.digits).rtakeWhile (fun digit => digit = '0') =
      List.replicate _ '0' :=
    List.eq_replicate_of_mem fun digit isDropped =>
      of_decide_eq_true (List.mem_rtakeWhile_imp (p := fun digit => digit = '0') isDropped)
  rw [zeros] at parts
  refine ⟨_, parts.symm, ?_⟩
  have lengths := congrArg List.length parts
  rw [List.length_append, List.length_replicate] at lengths
  unfold significant
  dsimp only
  rw [← List.rdropWhile]
  omega

/-- The digits that are kept begin with one that is no zero. -/
theorem significant_cons {d : Decimal} (someDigit : d.digits ≠ 0) :
    ∃ first rest, d.significant.1 = first :: rest ∧ first ≠ '0' ∧
      ∀ digit ∈ first :: rest, digit.isDigit := by
  obtain ⟨zeros, split, -⟩ := digits_significant d
  have leading := head?_toDigits_ne_zero someDigit
  have areDigits (digit : Char) (isKept : digit ∈ d.significant.1) : digit.isDigit :=
    Nat.isDigit_of_mem_toDigits (b := 10) (n := d.digits) (by decide) (by decide)
      (split ▸ List.mem_append_left _ isKept)
  rw [split] at leading
  match kept : d.significant.1 with
  | [] =>
    -- Only zeros were dropped, so the digits would be zeros throughout.
    rw [kept, List.nil_append] at leading split
    cases zeros with
    | zero => exact absurd split Nat.toDigits_ne_nil
    | succ zeros => exact absurd rfl leading
  | first :: rest =>
    rw [kept] at leading areDigits
    exact ⟨first, rest, rfl, fun isZero => leading (congrArg some isZero), areDigits⟩

/-- The digits that are kept have the value of the decimal. -/
theorem value_significant (d : Decimal) :
    value ⟨Nat.ofDigitChars 10 d.significant.1 0, d.significant.2⟩ = d.value := by
  obtain ⟨zeros, split, exponent⟩ := digits_significant d
  have digits := congrArg (Nat.ofDigitChars 10 · 0) split
  simp only [Nat.ofDigitChars_ten_toDigits, Nat.ofDigitChars_append,
    Nat.ofDigitChars_replicate_zero] at digits
  unfold value
  dsimp only
  rw [exponent, digits, zpow_add₀ (by decide)]
  push_cast
  rw [zpow_natCast]
  ring

end Decimal

/-- A numeral of a tree file that is not an integer: digits without needless zeros in front, and a
fraction or an exponent. -/
structure Numeral where
  whole : List Char
  fraction : List Char
  exponent : Option Int
  areDigits : ∀ digit ∈ whole ++ fraction, digit.isDigit
  leading : whole = ['0'] ∨ ∃ first rest, whole = first :: rest ∧ first ≠ '0'
  notInteger : fraction ≠ [] ∨ exponent.isSome

namespace Numeral

/-- The text of an exponent, with a sign and at least two digits. -/
def exponentText (exponent : Int) : List Char :=
  let power := Nat.toDigits 10 exponent.natAbs
  ['e', if exponent < 0 then '-' else '+'] ++ List.replicate (2 - power.length) '0' ++ power

/-- The text of a numeral. -/
def text (numeral : Numeral) : List Char :=
  numeral.whole ++ (if numeral.fraction.isEmpty then [] else '.' :: numeral.fraction) ++
    numeral.exponent.elim [] exponentText

/-- The decimal that a numeral stands for. -/
def decimal (numeral : Numeral) : Decimal :=
  ⟨Nat.ofDigitChars 10 (numeral.whole ++ numeral.fraction) 0,
    numeral.exponent.getD 0 - numeral.fraction.length⟩

/-- The text of a numeral begins with a digit. -/
theorem text_eq_cons (numeral : Numeral) :
    ∃ digit others, numeral.text = digit :: others ∧ digit.isDigit := by
  obtain isZero | ⟨first, more, isWhole, -⟩ := numeral.leading
  · exact ⟨'0', _, by rw [text, isZero]; rfl, rfl⟩
  · refine ⟨first, _, by rw [text, isWhole]; rfl, numeral.areDigits first ?_⟩
    rw [isWhole]
    exact List.mem_cons_self

end Numeral

section Notations

variable {first : Char} {rest : List Char}

/-- Scientific notation is a numeral of the same value. -/
theorem exists_numeral_scientific (isLeading : first ≠ '0')
    (areDigits : ∀ digit ∈ first :: rest, digit.isDigit) (exponent : Int) :
    ∃ numeral : Numeral,
      Number.scientific (first :: rest) (exponent + rest.length) = numeral.text ∧
        numeral.decimal = ⟨Nat.ofDigitChars 10 (first :: rest) 0, exponent⟩ := by
  refine ⟨⟨[first], rest, some (exponent + rest.length), areDigits, .inr ⟨first, [], rfl, isLeading⟩,
    .inr rfl⟩, ?_, ?_⟩
  · simp [Number.scientific, Numeral.text, Numeral.exponentText]
  · simp [Numeral.decimal]

/-- Positional notation of a whole number, with a zero behind the point, is a numeral of the same
value. -/
theorem exists_numeral_whole (isLeading : first ≠ '0')
    (areDigits : ∀ digit ∈ first :: rest, digit.isDigit) {exponent : Int}
    (isNonneg : 0 ≤ exponent) :
    ∃ numeral : Numeral,
      positional (first :: rest) exponent ++ ['.', '0'] = numeral.text ∧
        numeral.decimal.value = Decimal.value ⟨Nat.ofDigitChars 10 (first :: rest) 0, exponent⟩ := by
  refine ⟨⟨first :: rest ++ List.replicate exponent.toNat '0', ['0'], none, ?_,
    .inr ⟨first, _, rfl, isLeading⟩, .inl (List.cons_ne_nil _ _)⟩, ?_, ?_⟩
  · simp only [List.mem_append]
    rintro digit ((isDigit | isZero) | isZero)
    · exact areDigits digit isDigit
    · rw [List.eq_of_mem_replicate isZero]
      rfl
    · rw [List.mem_singleton.mp isZero]
      rfl
  · rw [positional, if_pos isNonneg]
    simp [Numeral.text]
  · obtain ⟨zeros, rfl⟩ := Int.eq_ofNat_of_zero_le isNonneg
    have digits : Nat.ofDigitChars 10 (first :: rest ++ List.replicate zeros '0' ++ ['0']) 0 =
        10 * (10 ^ zeros * Nat.ofDigitChars 10 (first :: rest) 0) := by
      rw [Nat.ofDigitChars_append, Nat.ofDigitChars_append, Nat.ofDigitChars_replicate_zero,
        Nat.ofDigitChars_cons, Nat.ofDigitChars_nil]
      rfl
    have exponent : (none : Option Int).getD 0 - (['0'] : List Char).length = -1 := rfl
    unfold Numeral.decimal Decimal.value
    dsimp only [Int.toNat_natCast]
    rw [digits, exponent, zpow_natCast, zpow_neg_one]
    push_cast
    ring

/-- Of digits with zeros before them, as many as the places behind the point take, just one zero or
the first digit stands before the point. -/
theorem take_padded {places : Nat} {padded : List Char}
    (isPadded : List.replicate (places + 1 - (first :: rest).length) '0' ++ (first :: rest) =
      padded) :
    padded.take (padded.length - places) = ['0'] ∨
      ∃ more, padded.take (padded.length - places) = first :: more := by
  rw [List.length_cons, Nat.add_sub_add_right] at isPadded
  by_cases isShort : rest.length < places
  · refine .inl ?_
    have length : padded.length = places + 1 := by
      rw [← isPadded, List.length_append, List.length_replicate, List.length_cons]
      omega
    obtain ⟨zeros, isZeros⟩ : ∃ zeros, places - rest.length = zeros + 1 :=
      ⟨places - rest.length - 1, by omega⟩
    rw [length, ← isPadded, isZeros, Nat.add_sub_cancel_left, List.replicate_succ]
    rfl
  · refine .inr ⟨rest.take (rest.length - places), ?_⟩
    rw [Nat.sub_eq_zero_of_le (by omega), List.replicate_zero, List.nil_append] at isPadded
    rw [← isPadded, List.length_cons, Nat.sub_add_comm (by omega), List.take_succ_cons]

/-- Positional notation with a fraction is a numeral of the same value and without an exponent. -/
theorem exists_numeral_fraction (isLeading : first ≠ '0')
    (areDigits : ∀ digit ∈ first :: rest, digit.isDigit) {exponent : Int}
    (isNegative : exponent < 0) :
    ∃ numeral : Numeral,
      positional (first :: rest) exponent = numeral.text ∧
        numeral.decimal = ⟨Nat.ofDigitChars 10 (first :: rest) 0, exponent⟩ ∧
        numeral.exponent = none := by
  obtain ⟨others, rfl⟩ := Int.eq_negSucc_of_lt_zero isNegative
  unfold positional
  rw [if_neg (by omega), Int.neg_negSucc, Int.toNat_natCast]
  dsimp only
  generalize isPadded : List.replicate (others + 1 + 1 - (first :: rest).length) '0' ++
    (first :: rest) = padded
  have length : others + 2 ≤ padded.length := by
    rw [← isPadded, List.length_append, List.length_replicate]
    omega
  have digits : Nat.ofDigitChars 10 padded 0 = Nat.ofDigitChars 10 (first :: rest) 0 := by
    rw [← isPadded, Nat.ofDigitChars_append, Nat.ofDigitChars_replicate_zero, Nat.mul_zero]
  have behind : (padded.drop (padded.length - (others + 1))).length = others + 1 := by
    rw [List.length_drop]
    omega
  refine ⟨⟨padded.take (padded.length - (others + 1)), padded.drop (padded.length - (others + 1)),
    none, ?_, ?_, .inl (List.ne_nil_of_length_pos (by omega))⟩, ?_, ?_⟩
  · rw [List.take_append_drop, ← isPadded]
    simp only [List.mem_append]
    rintro digit (isZero | isDigit)
    · rw [List.eq_of_mem_replicate isZero]
      rfl
    · exact areDigits digit isDigit
  · obtain isZero | ⟨more, isFirst⟩ := take_padded isPadded
    · exact .inl isZero
    · exact .inr ⟨first, more, isFirst, isLeading⟩
  · unfold Numeral.text
    rw [if_neg (by rw [List.isEmpty_iff_length_eq_zero, behind]; exact Nat.succ_ne_zero _)]
    exact (List.append_nil _).symm
  · unfold Numeral.decimal
    simp only [List.take_append_drop, digits, behind]
    exact ⟨rfl, trivial⟩

end Notations

/-- The shortest decimal of a code that is not zero has digits. -/
theorem Decimal.digits_shortest_ne_zero {code : Nat} (someValue : code ≠ 0) :
    (shortest code).digits ≠ 0 := by
  intro noDigit
  have isRead := toNumber_shortest code
  rw [toNumber_eq_zero _ noDigit] at isRead
  unfold Number.zero Number.ofCode at isRead
  split at isRead
  · exact someValue (congrArg Fin.val (Number.finite.inj isRead).2).symm
  · cases isRead

/-- The text of every code is a numeral that is read as the double of the code. -/
theorem Number.exists_numeral (code : Nat) :
    ∃ numeral : Numeral, stored code = numeral.text ∧
      ∀ negative, numeral.decimal.toNumber negative = ofCode negative code := by
  unfold stored
  by_cases isZero : code = 0
  · rw [if_pos isZero, isZero]
    exact ⟨⟨['0'], ['0'], none, by simp, .inl rfl, .inl (List.cons_ne_nil _ _)⟩, rfl,
      fun _ => rfl⟩
  rw [if_neg isZero]
  have someDigit := Decimal.digits_shortest_ne_zero isZero
  obtain ⟨first, rest, kept, isLeading, areDigits⟩ := Decimal.significant_cons someDigit
  have value := Decimal.value_significant (Decimal.shortest code)
  rw [kept] at value
  have isRead {numeral : Numeral}
      (equal : numeral.decimal.value = (Decimal.shortest code).value) (negative : Bool) :
      numeral.decimal.toNumber negative = ofCode negative code := by
    rw [Decimal.toNumber_congr negative equal]
    exact Decimal.toNumber_sign (Decimal.toNumber_shortest code) negative
  dsimp only
  rw [kept]
  generalize (Decimal.shortest code).significant.2 = exponent at *
  rw [show exponent + ((first :: rest).length : Int) - 1 = exponent + rest.length by
    rw [List.length_cons]; omega]
  split
  · obtain ⟨numeral, text, decimal⟩ := exists_numeral_scientific isLeading areDigits exponent
    exact ⟨numeral, text, isRead (by rw [decimal, value])⟩
  · split
    · next isNonneg =>
      obtain ⟨numeral, text, equal⟩ := exists_numeral_whole isLeading areDigits isNonneg
      exact ⟨numeral, text, isRead (by rw [equal, value])⟩
    · next isNegative =>
      obtain ⟨numeral, text, decimal, -⟩ :=
        exists_numeral_fraction isLeading areDigits (Int.not_le.mp isNegative)
      exact ⟨numeral, text, isRead (by rw [decimal, value])⟩

end Lox
