import Lox.Json.Reader
import Lox.Proofs.Number.StoredText

/-!
# Written numbers are read back

The reader takes the text of a number as a whole wherever nothing follows that would go on with
the number, and it makes of it the number that was written: a double from each of the notations,
and an integer unless it has too many digits.
-/

namespace Lox.Json

/-- What follows does not begin with a digit. -/
def EndsDigits (rest : Text) : Prop :=
  ∀ c, rest.head? = some (.char c) → c.isDigit = false

/-- What follows would not be taken for more of a number. -/
def EndsNumber (rest : Text) : Prop :=
  EndsDigits rest ∧ ∀ c, rest.head? = some (.char c) → c ∉ ['.', 'e', 'E']

/-- A run of digits is taken up to its end. -/
theorem spanDigits_append {digits : List Char} (areDigits : ∀ digit ∈ digits, digit.isDigit)
    {rest : Text} (ends : EndsDigits rest) :
    spanDigits (Text.ofChars digits ++ rest) = (digits, rest) := by
  induction digits with
  | nil =>
    rw [Text.ofChars, List.map_nil, List.nil_append]
    unfold spanDigits
    split
    · next c _ => rw [if_neg (by simp [ends c rfl])]
    · rfl
  | cons digit digits ih =>
    rw [List.forall_mem_cons] at areDigits
    rw [Text.ofChars, List.map_cons, List.cons_append, spanDigits, if_pos areDigits.1]
    rw [← Text.ofChars, ih areDigits.2]

section Numerals

variable {rest : Text}

/-- Digits are taken up to their end where no needless zero stands in front. -/
theorem readWhole_append {digits : List Char}
    (leading : digits = ['0'] ∨ ∃ first rest, digits = first :: rest ∧ first ≠ '0')
    (areDigits : ∀ digit ∈ digits, digit.isDigit) (ends : EndsDigits rest) :
    readWhole (Text.ofChars digits ++ rest) = some (digits, rest) := by
  obtain rfl | ⟨first, others, rfl, isLeading⟩ := leading
  · rfl
  · unfold readWhole
    split
    · next other same =>
      rw [Text.ofChars, List.map_cons, List.cons_append, List.cons.injEq] at same
      exact absurd (Symbol.char.inj same.1) isLeading
    · rw [spanDigits_append areDigits ends]

/-- A fraction is taken up to its end. -/
theorem readFraction_append {fraction : List Char} (someDigit : fraction ≠ [])
    (areDigits : ∀ digit ∈ fraction, digit.isDigit) (ends : EndsDigits rest) :
    readFraction (.char '.' :: (Text.ofChars fraction ++ rest)) = some (fraction, rest) := by
  obtain ⟨first, others, rfl⟩ := List.exists_cons_of_ne_nil someDigit
  have span := spanDigits_append areDigits ends
  simp only [readFraction, span]

/-- An exponent is taken up to its end. -/
theorem readExponent_append (exponent : Int) (ends : EndsDigits rest) :
    readExponent (Text.ofChars (Numeral.exponentText exponent) ++ rest) =
      some (exponent, rest) := by
  unfold Numeral.exponentText
  dsimp only
  generalize isPadded : List.replicate (2 - (Nat.toDigits 10 exponent.natAbs).length) '0' ++
    Nat.toDigits 10 exponent.natAbs = padded
  have areDigits : ∀ digit ∈ padded, digit.isDigit := by
    rw [← isPadded]
    simp only [List.mem_append]
    rintro digit (isZero | isDigit)
    · rw [List.eq_of_mem_replicate isZero]
      rfl
    · exact Nat.isDigit_of_mem_toDigits (by decide) (by decide) isDigit
  have value : Nat.ofDigitChars 10 padded 0 = exponent.natAbs := by
    rw [← isPadded, Nat.ofDigitChars_append, Nat.ofDigitChars_replicate_zero, Nat.mul_zero,
      Nat.ofDigitChars_ten_toDigits]
  have span := spanDigits_append areDigits ends
  rw [List.append_assoc, isPadded]
  obtain ⟨first, others, rfl⟩ : ∃ first others, padded = first :: others :=
    List.exists_cons_of_ne_nil (isPadded ▸ List.append_ne_nil_of_right_ne_nil _ Nat.toDigits_ne_nil)
  simp only [Text.ofChars, List.map_cons, List.cons_append] at span
  obtain isNegative | isNonneg := Int.lt_or_le exponent 0
  · simp [readExponent, Text.ofChars, isNegative, span, value, abs_of_neg isNegative]
  · simp [readExponent, Text.ofChars, isNonneg.not_gt, span, value, abs_of_nonneg isNonneg]

/-- Without a point there is no fraction. -/
theorem readFraction_eq_none (noPoint : rest.head? ≠ some (.char '.')) :
    readFraction rest = none := by
  unfold readFraction
  split
  · exact absurd rfl noPoint
  · rfl

/-- Behind a number there is no point. -/
theorem EndsNumber.noPoint (ends : EndsNumber rest) : rest.head? ≠ some (.char '.') :=
  fun isFirst => ends.2 '.' isFirst (by decide)

/-- Behind a number there is no exponent. -/
theorem EndsNumber.readExponent_eq_none (ends : EndsNumber rest) : readExponent rest = none := by
  unfold readExponent
  split
  · next letter _ =>
    have differs := ends.2 letter rfl
    rw [if_neg (by simp_all)]
  · rfl

/-- Where there is an exponent it is found, and what stands before it has ended. -/
theorem readExponent_optional (exponent : Option Int) (ends : EndsNumber rest) {source : Text}
    (isSource : source = Text.ofChars (exponent.elim [] Numeral.exponentText) ++ rest) :
    readExponent source = exponent.map (·, rest) ∧ (exponent = none → source = rest) ∧
      EndsDigits source ∧ source.head? ≠ some (.char '.') := by
  rw [isSource]
  cases exponent with
  | none => exact ⟨ends.readExponent_eq_none, fun _ => rfl, ends.1, ends.noPoint⟩
  | some exponent =>
    refine ⟨readExponent_append exponent ends.1, (nomatch ·),
      fun c isFirst => ?_, (nomatch ·)⟩
    obtain rfl := Symbol.char.inj (Option.some.inj isFirst)
    rfl

/-- Where there is a fraction it is found, and what stands before it has ended. -/
theorem readFraction_optional {fraction : List Char}
    (areDigits : ∀ digit ∈ fraction, digit.isDigit) (ends : EndsDigits rest)
    (noPoint : rest.head? ≠ some (.char '.')) {source : Text}
    (isSource : source =
      Text.ofChars (if fraction.isEmpty then [] else '.' :: fraction) ++ rest) :
    readFraction source = (if fraction.isEmpty then none else some (fraction, rest)) ∧
      (fraction.isEmpty → source = rest) ∧ EndsDigits source := by
  rw [isSource]
  cases fraction with
  | nil => exact ⟨readFraction_eq_none noPoint, fun _ => rfl, ends⟩
  | cons digit digits =>
    refine ⟨readFraction_append (List.cons_ne_nil _ _) areDigits ends,
      (nomatch ·), fun c isFirst => ?_⟩
    obtain rfl := Symbol.char.inj (Option.some.inj isFirst)
    rfl

/-- A numeral is read as the number that it stands for. -/
theorem readMagnitude_numeral (negative : Bool) (numeral : Numeral) (ends : EndsNumber rest) :
    readMagnitude negative (Text.ofChars numeral.text ++ rest) =
      .ok (.number (numeral.decimal.toNumber negative), rest) := by
  have text : Text.ofChars numeral.text ++ rest = Text.ofChars numeral.whole ++
      (Text.ofChars (if numeral.fraction.isEmpty then [] else '.' :: numeral.fraction) ++
        (Text.ofChars (numeral.exponent.elim [] Numeral.exponentText) ++ rest)) := by
    simp only [Numeral.text, Text.ofChars, List.map_append, List.append_assoc]
  obtain ⟨tail, isTail⟩ : ∃ tail, tail =
    Text.ofChars (numeral.exponent.elim [] Numeral.exponentText) ++ rest := ⟨_, rfl⟩
  obtain ⟨exponent, noExponent, endsTail, noPoint⟩ :=
    readExponent_optional numeral.exponent ends isTail
  obtain ⟨behind, isBehind⟩ : ∃ behind, behind = Text.ofChars
    (if numeral.fraction.isEmpty then [] else '.' :: numeral.fraction) ++ tail := ⟨_, rfl⟩
  obtain ⟨fraction, noFraction, endsBehind⟩ := readFraction_optional
    (fun digit isDigit => numeral.areDigits digit (List.mem_append_right _ isDigit))
    endsTail noPoint isBehind
  rw [text, ← isTail, ← isBehind]
  unfold readMagnitude
  rw [readWhole_append numeral.leading
    (fun digit isDigit => numeral.areDigits digit (List.mem_append_left _ isDigit)) endsBehind]
  have notInteger := numeral.notInteger
  unfold Numeral.decimal
  cases isFraction : numeral.fraction <;> cases isExponent : numeral.exponent <;>
    simp_all [expected, bind, Except.bind, Number.ofScientific_eq]

/-- The digits of a natural number that is not too long are read as that number. -/
theorem readMagnitude_ofNat (negative : Bool) {n : Nat} (isShort : n < 10 ^ maxDigits)
    (ends : EndsNumber rest) :
    readMagnitude negative (Text.ofNat n ++ rest) =
      .ok (.integer (if negative then -n else n), rest) := by
  have length : ¬maxDigits < (Nat.toDigits 10 n).length :=
    Nat.not_lt.mpr ((Nat.length_toDigits_le_iff (by decide) (by decide)).mpr isShort)
  unfold readMagnitude Text.ofNat
  rw [readWhole_append (toDigits_leading n)
    (fun _ isDigit => Nat.isDigit_of_mem_toDigits (by decide) (by decide) isDigit) ends.1]
  simp [expected, bind, Except.bind, readFraction_eq_none ends.noPoint, ends.readExponent_eq_none,
    ofDigits, length]

/-- A digit, with or without a sign, begins no word. -/
theorem readWord_eq_none {digit : Char} (isDigit : digit.isDigit) :
    readWord (.char digit :: rest) = none ∧ readWord (.char '-' :: .char digit :: rest) = none := by
  have differs (letter : Char) (isLetter : letter.isDigit = false) : letter ≠ digit := by
    rintro rfl
    rw [isDigit] at isLetter
    cases isLetter
  simp [readWord, words, Text.ofString, Text.ofChars, List.isPrefixOf?, differs 'n' rfl,
    differs 't' rfl, differs 'f' rfl, differs 'N' rfl, differs 'I' rfl, differs '-' rfl]

/-- What begins with a digit is read as a number without a sign. -/
theorem readScalar_digit {digit : Char} (isDigit : digit.isDigit) :
    readScalar (.char digit :: rest) = readMagnitude false (.char digit :: rest) := by
  unfold readScalar
  rw [(readWord_eq_none isDigit).1]
  dsimp only
  split
  · next other same =>
    rw [Symbol.char.inj (List.cons.inj same).1] at isDigit
    cases isDigit
  · rfl

/-- What begins with a minus sign and a digit is read as a number with that sign. -/
theorem readScalar_minus {digit : Char} (isDigit : digit.isDigit) :
    readScalar (.char '-' :: .char digit :: rest) = readMagnitude true (.char digit :: rest) := by
  unfold readScalar
  rw [(readWord_eq_none isDigit).2]
  rfl

/-- A magnitude that begins with a digit is read with its sign. -/
theorem readScalar_signed (negative : Bool) {magnitude others : List Char} {digit : Char}
    (isCons : magnitude = digit :: others) (isDigit : digit.isDigit) :
    readScalar (Number.signed negative magnitude ++ rest) =
      readMagnitude negative (Text.ofChars magnitude ++ rest) := by
  rw [isCons]
  cases negative with
  | false => exact readScalar_digit isDigit
  | true => exact readScalar_minus isDigit

/-- The text of an integer that is not too long is read as that integer. -/
theorem readScalar_ofInt {value : Int} (isShort : value.natAbs < 10 ^ maxDigits)
    (ends : EndsNumber rest) :
    readScalar (Text.ofInt value ++ rest) = .ok (.integer value, rest) := by
  cases value with
  | ofNat n =>
    obtain ⟨digit, others, isCons, isDigit⟩ := toDigits_eq_cons n
    exact (readScalar_signed false isCons isDigit).trans (readMagnitude_ofNat false isShort ends)
  | negSucc n =>
    obtain ⟨digit, others, isCons, isDigit⟩ := toDigits_eq_cons (n + 1)
    exact (readScalar_signed true isCons isDigit).trans (readMagnitude_ofNat true isShort ends)

/-- The text of a number is read as that number. -/
theorem readScalar_storedText (value : Number) (ends : EndsNumber rest) :
    readScalar (value.storedText ++ rest) = .ok (.number value, rest) := by
  cases value with
  | nan => rfl
  | infinite negative => cases negative <;> rfl
  | finite negative code =>
    obtain ⟨numeral, text, isRead⟩ := Number.exists_numeral code.val
    obtain ⟨digit, others, isCons, isDigit⟩ := numeral.text_eq_cons
    unfold Number.storedText
    dsimp only
    rw [text, readScalar_signed negative isCons isDigit, readMagnitude_numeral negative numeral ends,
      isRead, Number.ofCode, dif_pos code.isLt]

end Numerals

end Lox.Json
