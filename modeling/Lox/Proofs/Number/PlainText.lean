import Lox.Proofs.Number.Integral
import Lox.Proofs.Token.LexicalForms
import Lox.Proofs.Token.Seams

/-!
# Printed numbers

A number is printed as digits, with a point and more digits behind them where the number is not whole,
and with a minus sign before them where it is negative. As a source this is a number token, behind a
minus where there is a sign, and the literal of the token is the magnitude of the number again.

So two numbers that are printed alike are the same, except that there are several NaNs.
-/

namespace Lox

/-- The digits of a number, and those behind the point if there is one. No needless zero stands before
the point. -/
structure PlainDigits where
  whole : List Char
  fraction : List Char
  areDigits : ∀ digit ∈ whole ++ fraction, digit.isDigit
  leading : whole = ['0'] ∨ ∃ first rest, whole = first :: rest ∧ first ≠ '0'

namespace PlainDigits

/-- The digits as they are written. -/
def text (digits : PlainDigits) : List Char :=
  digits.whole ++ if digits.fraction.isEmpty then [] else '.' :: digits.fraction

/-- The bytes of what is written. -/
def bytes (digits : PlainDigits) : List UInt8 :=
  (Text.ofChars digits.text).encode

/-- There is a digit before the point. -/
theorem whole_eq_cons (digits : PlainDigits) :
    ∃ digit others, digits.whole = digit :: others ∧ digit.isDigit := by
  obtain ⟨digit, others, isWhole⟩ : ∃ digit others, digits.whole = digit :: others := by
    obtain isZero | ⟨first, rest, isWhole, -⟩ := digits.leading
    · exact ⟨_, _, isZero⟩
    · exact ⟨_, _, isWhole⟩
  refine ⟨digit, others, isWhole, digits.areDigits digit (List.mem_append_left _ ?_)⟩
  rw [isWhole]
  exact List.mem_cons_self

end PlainDigits

/-- What holds of the ten digits holds of digits. -/
theorem forall_digit {P : Char → Prop} (holds : ∀ value < 10, P (Char.ofNat (48 + value)))
    {digit : Char} (isDigit : digit.isDigit) : P digit := by
  have bounds : 48 ≤ digit.toNat ∧ digit.toNat ≤ 57 := by
    simpa [Char.isDigit, UInt32.le_iff_toNat_le] using isDigit
  have isCode := holds (digit.toNat - 48) (by omega)
  rwa [Nat.add_sub_cancel' bounds.1, Char.ofNat_toNat] at isCode

/-- A digit is the character of its byte. -/
theorem ofNat_toUInt8 {digit : Char} (isDigit : digit.isDigit) :
    Char.ofNat digit.toUInt8.toNat = digit :=
  forall_digit (P := fun digit => Char.ofNat digit.toUInt8.toNat = digit) (by decide) isDigit

/-- A digit is written with one byte. -/
theorem utf8EncodeChar_digit {digit : Char} (isDigit : digit.isDigit) :
    String.utf8EncodeChar digit = [digit.toUInt8] :=
  forall_digit (P := fun digit => String.utf8EncodeChar digit = [digit.toUInt8]) (by decide) isDigit

/-- The byte of a digit is a digit. -/
theorem isDigit_toUInt8 {digit : Char} (isDigit : digit.isDigit) : Lox.isDigit digit.toUInt8 :=
  forall_digit (P := fun digit => Lox.isDigit digit.toUInt8 = true) (by decide) isDigit

/-- Digits are written with a byte each. -/
theorem encode_digits {digits : List Char} (areDigits : ∀ digit ∈ digits, digit.isDigit) :
    (Text.ofChars digits).encode = digits.map Char.toUInt8 := by
  induction digits with
  | nil => rfl
  | cons digit digits ih =>
    obtain ⟨isDigit, others⟩ := List.forall_mem_cons.mp areDigits
    change String.utf8EncodeChar digit ++ (Text.ofChars digits).encode = _
    rw [utf8EncodeChar_digit isDigit, ih others]
    rfl

/-- The characters of the bytes of digits are the digits. -/
theorem map_ofNat_toUInt8 {digits : List Char} (areDigits : ∀ digit ∈ digits, digit.isDigit) :
    (digits.map Char.toUInt8).map (fun byte => Char.ofNat byte.toNat) = digits := by
  rw [List.map_map]
  exact (List.map_congr_left fun digit isDigit => ofNat_toUInt8 (areDigits digit isDigit)).trans
    (List.map_id' digits)

/-- Bytes that begin with none have no digits at their front. -/
theorem takeWhile_of_head? {more : List UInt8} (ends : ∀ byte ∈ more.head?, ¬isDigit byte) :
    more.takeWhile isDigit = [] := by
  cases more with
  | nil => rfl
  | cons byte more => exact List.takeWhile_cons_of_neg (ends byte rfl)

namespace PlainDigits

variable (digits : PlainDigits)

/-- The bytes behind those of the digits before the point. -/
def fractionBytes : List UInt8 :=
  if digits.fraction.isEmpty then [] else '.'.toUInt8 :: digits.fraction.map Char.toUInt8

/-- The digits before the point are digits. -/
theorem isDigit_whole {byte : UInt8} (isByte : byte ∈ digits.whole.map Char.toUInt8) :
    Lox.isDigit byte := by
  obtain ⟨digit, isDigit, rfl⟩ := List.mem_map.mp isByte
  exact isDigit_toUInt8 (digits.areDigits digit (List.mem_append_left _ isDigit))

/-- The digits behind the point are digits. -/
theorem isDigit_fraction {byte : UInt8} (isByte : byte ∈ digits.fraction.map Char.toUInt8) :
    Lox.isDigit byte := by
  obtain ⟨digit, isDigit, rfl⟩ := List.mem_map.mp isByte
  exact isDigit_toUInt8 (digits.areDigits digit (List.mem_append_right _ isDigit))

/-- What is written has the bytes of its digits, and that of the point. -/
theorem bytes_eq : digits.bytes = digits.whole.map Char.toUInt8 ++ digits.fractionBytes := by
  have whole := encode_digits fun digit isDigit =>
    digits.areDigits digit (List.mem_append_left _ isDigit)
  have fraction := encode_digits fun digit isDigit =>
    digits.areDigits digit (List.mem_append_right _ isDigit)
  unfold bytes text Text.ofChars fractionBytes
  rw [List.map_append]
  rw [Text.encode_append]
  split
  · exact congrArg (· ++ []) whole
  · exact congrArg₂ (· ++ '.'.toUInt8 :: ·) whole fraction

/-- Behind the digits before the point stands none, whatever follows what is written. -/
theorem takeWhile_fractionBytes {more : List UInt8} (ends : ∀ byte ∈ more.head?, ¬isDigit byte) :
    (digits.fractionBytes ++ more).takeWhile isDigit = [] := by
  unfold fractionBytes
  split
  · exact takeWhile_of_head? ends
  · exact List.takeWhile_cons_of_neg (by decide)

/-- The number of a token that is written like this is the number of its digits. -/
theorem ofLexeme_bytes :
    Number.ofLexeme digits.bytes = Number.ofLiteral digits.whole digits.fraction := by
  have nothing : ∀ byte ∈ ([] : List UInt8).head?, ¬isDigit byte := nofun
  have front := digits.takeWhile_fractionBytes nothing
  rw [List.append_nil] at front
  have areDigits : ∀ byte ∈ digits.whole.map Char.toUInt8, Lox.isDigit byte :=
    fun byte => digits.isDigit_whole
  have taken : digits.bytes.takeWhile Lox.isDigit = digits.whole.map Char.toUInt8 := by
    rw [bytes_eq, List.takeWhile_append_of_pos areDigits, front, List.append_nil]
  have dropped : (digits.bytes.dropWhile Lox.isDigit).drop 1 = digits.fraction.map Char.toUInt8 := by
    rw [bytes_eq, List.dropWhile_append_of_pos areDigits]
    unfold fractionBytes
    split
    · next noFraction =>
      rw [List.isEmpty_iff.mp noFraction]
      rfl
    · rw [List.dropWhile_cons_of_neg (by decide)]
      rfl
  unfold Number.ofLexeme
  dsimp only
  rw [taken, dropped, map_ofNat_toUInt8, map_ofNat_toUInt8]
  · exact fun digit isDigit => digits.areDigits digit (List.mem_append_right _ isDigit)
  · exact fun digit isDigit => digits.areDigits digit (List.mem_append_left _ isDigit)

/-- A fraction is taken as a whole. -/
theorem fractionLength_fractionBytes {more : List UInt8} (ends : ∀ byte ∈ more.head?, ¬isDigit byte)
    (noPoint : ∀ byte ∈ more.head?, byte ≠ '.'.toUInt8) :
    Lexeme.fractionLength (digits.fractionBytes ++ more) = digits.fractionBytes.length := by
  unfold fractionBytes
  have areDigits : ∀ byte ∈ digits.fraction.map Char.toUInt8, isDigit byte :=
    fun byte => digits.isDigit_fraction
  generalize digits.fraction = fraction at areDigits ⊢
  cases fraction with
  | nil =>
    change Lexeme.fractionLength more = 0
    unfold Lexeme.fractionLength
    split
    · next point digit rest =>
      rw [if_neg]
      simp [noPoint point rfl]
    · rfl
  | cons digit fraction =>
    obtain ⟨isDigit, others⟩ := List.forall_mem_cons.mp areDigits
    change Lexeme.fractionLength
      ('.'.toUInt8 :: digit.toUInt8 :: (fraction.map Char.toUInt8 ++ more)) = _
    rw [Lexeme.fractionLength, if_pos (by simpa using isDigit), List.takeWhile_append_of_pos others,
      takeWhile_of_head? ends, List.append_nil]
    exact Nat.add_comm 2 _

/-- What is written begins with a digit, and is taken as one number token where no digit and no point
follows. -/
theorem ofBytes_bytes {more : List UInt8} (ends : ∀ byte ∈ more.head?, ¬isDigit byte)
    (noPoint : ∀ byte ∈ more.head?, byte ≠ '.'.toUInt8) :
    ∃ first rest, digits.bytes = first :: rest ∧ isDigit first ∧
      Lexeme.ofBytes first (rest ++ more) = .token .number digits.bytes.length := by
  obtain ⟨digit, others, isWhole, -⟩ := digits.whole_eq_cons
  have areDigits : ∀ byte ∈ digits.whole.map Char.toUInt8, isDigit byte :=
    fun byte => digits.isDigit_whole
  rw [isWhole] at areDigits
  obtain ⟨isFirst, areOthers⟩ := List.forall_mem_cons.mp areDigits
  have isBytes : digits.bytes =
      digit.toUInt8 :: (others.map Char.toUInt8 ++ digits.fractionBytes) := by
    rw [bytes_eq, isWhole]
    rfl
  have noLetter : ¬isLetter digit.toUInt8 :=
    forall_byte (P := fun byte => isDigit byte → ¬isLetter byte) (by decide +kernel) _ isFirst
  refine ⟨_, _, isBytes, isFirst, ?_⟩
  rw [isBytes, List.append_assoc, Lexeme.ofBytes, if_neg noLetter, if_pos isFirst, Lexeme.number,
    List.takeWhile_append_of_pos areOthers, digits.takeWhile_fractionBytes ends, List.append_nil,
    List.drop_left, digits.fractionLength_fractionBytes ends noPoint, List.length_cons,
    List.length_append]
  congr 1
  omega

end PlainDigits

namespace Cursor

variable {cursor : Cursor} {first : UInt8} {rest more : List UInt8} {kind : Kind}

/-- Where a lexeme without a line break is ahead, its token is scanned first. -/
theorem tokens_scanAll (ahead : cursor.rest = first :: (rest ++ more)) (noBlank : ¬isBlank first)
    (noSlash : first ≠ '/'.toUInt8) (noBreak : newline ∉ first :: rest)
    (found : Lexeme.ofBytes first (rest ++ more) = .token kind (first :: rest).length)
    (isToken : kind ≠ .endOfFile) (fuel : Nat) :
    (cursor.scanAll (fuel + 1)).map Scanned.token =
      ⟨kind, first :: rest, cursor.line⟩ ::
        (scanAll fuel ⟨more, cursor.offset + (first :: rest).length, cursor.line⟩).map
          Scanned.token := by
  have scan := scan_of_start ahead noBlank fun isComment => noSlash isComment.1
  have taken : (first :: (rest ++ more)).take (first :: rest).length = first :: rest := by
    rw [← List.cons_append, List.take_left]
  have advanced : cursor.advance (first :: rest).length =
      ⟨more, cursor.offset + (first :: rest).length, cursor.line⟩ := by
    unfold advance
    rw [ahead, taken, ← List.cons_append, List.drop_left, List.count_eq_zero.mpr noBreak]
    rfl
  rw [found, Lexeme.length, taken, advanced] at scan
  rw [scanAll_of_ne_endOfFile (by rw [scan]; exact isToken), scan]
  rfl

end Cursor

/-- No line ends in what is written. -/
theorem PlainDigits.newline_notMem_bytes (digits : PlainDigits) : newline ∉ digits.bytes := by
  have noDigit : ¬isDigit newline := by decide
  rw [digits.bytes_eq, List.mem_append, not_or]
  refine ⟨fun isByte => noDigit (digits.isDigit_whole isByte), ?_⟩
  unfold PlainDigits.fractionBytes
  split
  · exact List.not_mem_nil
  · rw [List.mem_cons, not_or]
    exact ⟨by decide, fun isByte => noDigit (digits.isDigit_fraction isByte)⟩

/-- The tokens of a minus sign where there is one. -/
def signTokens (negative : Bool) : List Token :=
  if negative then [⟨.minus, ['-'.toUInt8], 1⟩] else []

/-- The number token of digits. -/
def PlainDigits.token (digits : PlainDigits) : Token :=
  ⟨.number, digits.bytes, 1⟩

/-- Digits with a sign are scanned as the token of the sign and one number token, if no digit and no
point follows. -/
theorem tokens_signed_append (negative : Bool) (digits : PlainDigits) {more : List UInt8}
    (ends : ∀ byte ∈ more.head?, ¬isDigit byte) (noPoint : ∀ byte ∈ more.head?, byte ≠ '.'.toUInt8) :
    ∃ offset, tokens ((Number.signed negative digits.text).encode ++ more) =
      signTokens negative ++ digits.token ::
        (Cursor.scanAll (more.length + 1) ⟨more, offset, 1⟩).map Scanned.token := by
  obtain ⟨first, rest, isBytes, isFirst, found⟩ := digits.ofBytes_bytes ends noPoint
  have noBlank : ¬isBlank first :=
    forall_byte (P := fun byte => isDigit byte → ¬isBlank byte) (by decide +kernel) _ isFirst
  have noSlash : first ≠ '/'.toUInt8 := by
    rintro rfl
    exact absurd isFirst (by decide)
  have noBreak := digits.newline_notMem_bytes
  rw [isBytes] at found noBreak
  have number (fuel offset : Nat) (enough : more.length < fuel) :
      (Cursor.scanAll (fuel + 1) ⟨digits.bytes ++ more, offset, 1⟩).map Scanned.token =
        digits.token ::
          (Cursor.scanAll (more.length + 1) ⟨more, offset + digits.bytes.length, 1⟩).map
            Scanned.token := by
    have ahead : (⟨digits.bytes ++ more, offset, 1⟩ : Cursor).rest = first :: (rest ++ more) := by
      rw [isBytes]
      rfl
    rw [Cursor.tokens_scanAll ahead noBlank noSlash noBreak found nofun,
      Cursor.scanAll_of_enough enough (Nat.lt_succ_self _), ← isBytes]
    rfl
  cases negative with
  | false =>
    refine ⟨_, number ((digits.bytes ++ more).length) 0 ?_⟩
    rw [isBytes, List.length_append, List.length_cons]
    omega
  | true =>
    have isMinus : ('-', Kind.minus) ∈ singleForms := by decide
    have ahead : (Cursor.ofSource ('-'.toUInt8 :: (digits.bytes ++ more))).rest =
        '-'.toUInt8 :: ([] ++ (digits.bytes ++ more)) := rfl
    have minus := Cursor.tokens_scanAll ahead (by decide) (by decide) (by decide)
      (Lexeme.ofBytes_single isMinus _) (by decide)
    refine ⟨_, (minus _).trans (congrArg _ (number ((digits.bytes ++ more).length) _ ?_))⟩
    rw [isBytes, List.length_append, List.length_cons]
    omega

namespace Number

/-- The text of a whole number is its digits. -/
theorem plain_of_integral {code : Nat} (integral : isIntegral code) :
    ∃ digits : PlainDigits, plain code = digits.text ∧
      digits.whole = Nat.toDigits 10 (wholeValue code) ∧ digits.fraction = [] := by
  refine ⟨⟨Nat.toDigits 10 (wholeValue code), [], ?_, toDigits_leading _⟩, ?_, rfl, rfl⟩
  · rw [List.append_nil]
    exact fun digit isDigit => Nat.isDigit_of_mem_toDigits (by decide) (by decide) isDigit
  · rw [plain, if_pos integral]
    exact (List.append_nil _).symm

/-- The text of a number that is not whole has digits behind the point, and has the value of the
shortest decimal. -/
theorem plain_of_not_integral {code : Nat} (isFinite : code < finiteCodes)
    (notIntegral : ¬isIntegral code) :
    ∃ digits : PlainDigits, plain code = digits.text ∧ digits.fraction ≠ [] ∧
      Decimal.value ⟨Nat.ofDigitChars 10 (digits.whole ++ digits.fraction) 0,
        -digits.fraction.length⟩ = (Decimal.shortest code).value := by
  have isZero : code ≠ 0 := by
    rintro rfl
    exact notIntegral ((isIntegral_iff 0).mpr ⟨0, by simp [magnitude, significand]⟩)
  have value := Decimal.value_significant (Decimal.shortest code)
  obtain ⟨first, rest, kept, isLeading, areDigits⟩ :=
    Decimal.significant_cons (Decimal.digits_shortest_ne_zero isZero)
  have isNegative : (Decimal.shortest code).significant.2 < 0 := by
    have isRead := (Decimal.toNumber_congr false value).trans (Decimal.toNumber_shortest code)
    exact Int.not_le.mp fun isWhole => notIntegral (isIntegral_of_toNumber isFinite isRead isWhole)
  rw [kept] at value
  obtain ⟨numeral, text, decimal, noExponent⟩ :=
    exists_numeral_fraction isLeading areDigits isNegative
  have someFraction : numeral.fraction ≠ [] := numeral.notInteger.resolve_right (by simp [noExponent])
  refine ⟨⟨numeral.whole, numeral.fraction, numeral.areDigits, numeral.leading⟩, ?_, someFraction, ?_⟩
  · rw [plain, if_neg notIntegral]
    dsimp only
    rw [kept, text, Numeral.text, noExponent]
    exact List.append_nil _
  · rw [← value, ← decimal, Numeral.decimal, noExponent]
    exact congrArg _ (by simp)

/-- The digits that a finite number is printed with are those of its magnitude: they are read as it, none
stands behind the point just if it is whole, and then they are all its digits. -/
theorem exists_plainDigits (code : Fin finiteCodes) :
    ∃ digits : PlainDigits, plain code = digits.text ∧
      ofLiteral digits.whole digits.fraction = .finite false code ∧
      (digits.fraction = [] ↔ ∃ whole : Nat, magnitude code = whole) ∧
      ∀ whole : Nat, magnitude code = whole → digits.whole = Nat.toDigits 10 whole := by
  have isCode : ofCode false code = .finite false code := dif_pos code.isLt
  by_cases integral : isIntegral code
  · obtain ⟨digits, text, isWhole, noFraction⟩ := plain_of_integral integral
    have equal := wholeValue_eq integral
    refine ⟨digits, text, ?_, iff_of_true noFraction ⟨_, equal.symm⟩, fun whole isValue => ?_⟩
    · unfold ofLiteral
      rw [noFraction, isWhole, List.append_nil, Nat.ofDigitChars_ten_toDigits, ← isCode]
      refine Decimal.toNumber_of_magnitude false ?_
      simp [Decimal.value, equal]
    · rw [isWhole]
      exact congrArg _ (Nat.cast_injective (equal.trans isValue))
  · obtain ⟨digits, text, someFraction, value⟩ := plain_of_not_integral code.isLt integral
    have notWhole := mt (isIntegral_iff code).mpr integral
    refine ⟨digits, text, ?_, iff_of_false someFraction notWhole, fun whole isValue => ?_⟩
    · unfold ofLiteral
      rw [Decimal.toNumber_congr false value, Decimal.toNumber_shortest, isCode]
    · exact absurd ⟨whole, isValue⟩ notWhole

/-- What is printed for a finite number begins with a digit, behind the sign. -/
theorem plain_eq_cons (code : Fin finiteCodes) :
    ∃ digit others, plain code = digit :: others ∧ digit.isDigit := by
  obtain ⟨digits, text, -⟩ := exists_plainDigits code
  obtain ⟨digit, others, isWhole, isDigit⟩ := digits.whole_eq_cons
  unfold PlainDigits.text at text
  rw [isWhole] at text
  exact ⟨digit, _, text, isDigit⟩

/-- A sign can be told from what stands behind it. -/
theorem signed_inj {negative negative' : Bool} {magnitude magnitude' : List Char}
    (noSign : magnitude.head? ≠ some '-') (noSign' : magnitude'.head? ≠ some '-')
    (same : signed negative magnitude = signed negative' magnitude') :
    negative = negative' ∧ magnitude = magnitude' := by
  have sameChars := List.map_injective_iff.mpr (fun _ _ => Symbol.char.inj) same
  cases negative <;> cases negative'
  · exact ⟨rfl, sameChars⟩
  · rw [show magnitude = '-' :: magnitude' from sameChars] at noSign
    exact absurd rfl noSign
  · rw [show magnitude' = '-' :: magnitude from sameChars.symm] at noSign'
    exact absurd rfl noSign'
  · exact ⟨rfl, (List.cons.inj sameChars).2⟩

/-- Finite numbers that are printed with the same digits have the same magnitude. -/
theorem plain_injective {code code' : Fin finiteCodes} (same : plain code = plain code') :
    code = code' := by
  obtain ⟨digits, text, isRead, -⟩ := exists_plainDigits code
  obtain ⟨digits', text', isRead', -⟩ := exists_plainDigits code'
  have sameBytes : digits.bytes = digits'.bytes := by
    unfold PlainDigits.bytes
    rw [← text, ← text', same]
  rw [← PlainDigits.ofLexeme_bytes] at isRead isRead'
  rw [sameBytes, isRead'] at isRead
  exact (finite.inj isRead).2.symm

/-- Numbers other than NaN that are printed alike are the same. -/
theorem text_injective {x y : Number} (isNumber : x ≠ .nan) (isNumber' : y ≠ .nan)
    (same : x.text = y.text) : x = y := by
  have noSign (code : Fin finiteCodes) : (plain code).head? ≠ some '-' := by
    obtain ⟨digit, others, isCons, isDigit⟩ := plain_eq_cons code
    rw [isCons]
    rintro ⟨⟩
    cases isDigit
  have finite_ne (negative negative' : Bool) (code : Fin finiteCodes) :
      signed negative (plain code) ≠ signed negative' ['i', 'n', 'f'] := by
    intro same
    obtain ⟨digit, others, isCons, isDigit⟩ := plain_eq_cons code
    have sameChars := (signed_inj (noSign code) (by decide) same).2
    rw [isCons] at sameChars
    rw [(List.cons.inj sameChars).1] at isDigit
    cases isDigit
  cases x with
  | nan => exact absurd rfl isNumber
  | infinite negative =>
    cases y with
    | nan => exact absurd rfl isNumber'
    | infinite negative' => rw [(signed_inj (by decide) (by decide) same).1]
    | finite negative' code' => exact absurd same.symm (finite_ne _ _ _)
  | finite negative code =>
    cases y with
    | nan => exact absurd rfl isNumber'
    | infinite negative' => exact absurd same (finite_ne _ _ _)
    | finite negative' code' =>
      obtain ⟨sameSign, sameDigits⟩ := signed_inj (noSign code) (noSign code') same
      rw [sameSign, plain_injective sameDigits]

end Number

/-- The program that is a number as a statement. -/
theorem ofSource_signed (negative : Bool) (digits : PlainDigits) :
    Program.ofSource ((Number.signed negative digits.text).encode ++ [';'.toUInt8]) =
      .ok [.expression
        (if negative then
          .unary ⟨.minus, ['-'.toUInt8], 1⟩ (.literal (.number (Number.ofLexeme digits.bytes)))
        else .literal (.number (Number.ofLexeme digits.bytes)))] := by
  have ends : ∀ byte ∈ [';'.toUInt8].head?, ¬isDigit byte := by rintro byte ⟨⟩; decide
  have noPoint : ∀ byte ∈ [';'.toUInt8].head?, byte ≠ '.'.toUInt8 := by rintro byte ⟨⟩; decide
  obtain ⟨offset, scanned⟩ := tokens_signed_append negative digits ends noPoint
  have behind : (Cursor.scanAll 2 ⟨[';'.toUInt8], offset, 1⟩).map Scanned.token =
      [⟨.semicolon, [';'.toUInt8], 1⟩, ⟨.endOfFile, [], 1⟩] := rfl
  have split : Source.tokens ((Number.signed negative digits.text).encode ++ [';'.toUInt8]) =
      signTokens negative ++ [digits.token, ⟨.semicolon, [';'.toUInt8], 1⟩] := by
    rw [Source.tokens, scanned, List.length_singleton, behind]
    cases negative <;> rfl
  unfold Program.ofSource Source.read
  rw [split]
  cases negative <;> rfl

/-- A finite number is printed with the digits of its magnitude, and digits behind a point if it is not
whole. As a source the text is a number token, with a minus before it for a negative number; the literal
of the token is the number itself or what is to be negated, and it is so in a program. Numbers other than
NaN are printed alike only if they are the same. -/
theorem printed_numbers_read_back :
    (∀ (negative : Bool) (code : Fin finiteCodes), ∃ (digits : PlainDigits) (value : Number),
      let x : Number := .finite negative code
      (x.text = Text.ofChars ((if negative then ['-'] else []) ++ digits.text) ∧
        tokens x.text.encode = signTokens negative ++ [digits.token, ⟨.endOfFile, [], 1⟩]) ∧
      (Literal.ofToken? digits.token = some (.number value) ∧ (if negative then -value else value) = x ∧
        Program.ofSource (x.text.encode ++ [';'.toUInt8]) =
          .ok [.expression
            (if negative then .unary ⟨.minus, ['-'.toUInt8], 1⟩ (.literal (.number value))
            else .literal (.number value))]) ∧
      (digits.fraction ≠ [] ↔ ¬∃ whole : Nat, Number.magnitude code = whole) ∧
      ∀ whole : Nat, Number.magnitude code = whole → digits.whole = Nat.toDigits 10 whole) ∧
    ∀ x y : Number, x ≠ .nan → y ≠ .nan → x.text = y.text → x = y := by
  refine ⟨fun negative code => ?_, fun x y => Number.text_injective⟩
  obtain ⟨digits, text, isRead, isWhole, whole⟩ := Number.exists_plainDigits code
  have isSigned : (Number.finite negative code).text = Number.signed negative digits.text := by
    rw [Number.text, text]
  have isLiteral : Number.ofLexeme digits.bytes = .finite false code :=
    digits.ofLexeme_bytes.trans isRead
  refine ⟨digits, .finite false code, ⟨?_, ?_⟩, ⟨?_, ?_, ?_⟩, not_congr isWhole, whole⟩
  · rw [isSigned]
    cases negative <;> rfl
  · have nothing {P : UInt8 → Prop} : ∀ byte ∈ ([] : List UInt8).head?, P byte := nofun
    obtain ⟨offset, scanned⟩ := tokens_signed_append negative digits nothing nothing
    rw [List.append_nil] at scanned
    rw [isSigned, scanned]
    rfl
  · rw [← isLiteral]
    rfl
  · cases negative <;> rfl
  · rw [isSigned, ofSource_signed, isLiteral]

end Lox
