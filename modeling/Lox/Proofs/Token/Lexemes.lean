import Lox.Proofs.Token.Seams

/-!
# Lexemes by themselves

What is scanned from the bytes of a lexeme alone is that lexeme: a word, a number or an operator ends
where its bytes end, and a string with its closing quote. So a lexeme may be put anywhere before a blank.

A string token is written with quotes around bytes without one.
-/

namespace Lox

/-- A run of bytes is the same when the bytes are cut off behind it. -/
theorem takeWhile_take {test : UInt8 → Bool} {bytes : List UInt8} {count : Nat}
    (enough : (bytes.takeWhile test).length ≤ count) :
    (bytes.take count).takeWhile test = bytes.takeWhile test := by
  induction bytes generalizing count with
  | nil => rw [List.take_nil]
  | cons byte bytes ih =>
    rw [List.takeWhile_cons] at enough ⊢
    split at enough
    · next passes =>
      obtain ⟨count, rfl⟩ := Nat.exists_eq_succ_of_ne_zero (Nat.ne_zero_of_lt enough)
      rw [List.take_succ_cons, List.takeWhile_cons_of_pos passes, if_pos passes,
        ih (Nat.le_of_succ_le_succ enough)]
    · next stops =>
      rw [if_neg stops]
      cases count with
      | zero => rfl
      | succ count => rw [List.take_succ_cons, List.takeWhile_cons_of_neg stops]

namespace Lexeme

/-- A word is one by itself. -/
theorem word_take (first : UInt8) (rest : List UInt8) :
    word first (rest.take ((word first rest).length - 1)) = word first rest := by
  have cut : (rest.take ((word first rest).length - 1)).takeWhile isWordByte =
      rest.takeWhile isWordByte := takeWhile_take (Nat.le_refl _)
  rw [word, cut]
  rfl

/-- A fraction is one by itself. -/
theorem fractionLength_take (bytes : List UInt8) :
    fractionLength (bytes.take (fractionLength bytes)) = fractionLength bytes := by
  match bytes with
  | [] | [_] => rfl
  | point :: digit :: rest =>
    by_cases isFraction : point = '.'.toUInt8 && isDigit digit
    · have length : fractionLength (point :: digit :: rest) = (rest.takeWhile isDigit).length + 2 := by
        rw [fractionLength, if_pos isFraction, Nat.add_comm]
      rw [length, List.take_succ_cons, List.take_succ_cons, fractionLength, if_pos isFraction,
        takeWhile_take (Nat.le_refl _), Nat.add_comm]
    · have length : fractionLength (point :: digit :: rest) = 0 := by
        rw [fractionLength, if_neg isFraction]
      rw [length]
      rfl

/-- A number is one by itself. -/
theorem number_take (rest : List UInt8) :
    number (rest.take ((number rest).length - 1)) = number rest := by
  have length : (number rest).length - 1 = (rest.takeWhile isDigit).length +
      fractionLength (rest.drop (rest.takeWhile isDigit).length) := by
    rw [number, Lexeme.length, Nat.add_assoc, Nat.add_sub_cancel_left]
  have digits : (rest.take ((number rest).length - 1)).takeWhile isDigit = rest.takeWhile isDigit :=
    takeWhile_take (by rw [length]; exact Nat.le_add_right _ _)
  have fraction : (rest.take ((number rest).length - 1)).drop (rest.takeWhile isDigit).length =
      (rest.drop (rest.takeWhile isDigit).length).take
        (fractionLength (rest.drop (rest.takeWhile isDigit).length)) := by
    rw [List.drop_take, length, Nat.add_sub_cancel_left]
  rw [number, digits, fraction, fractionLength_take]
  rfl

/-- A string that is closed is one by itself. -/
theorem string_take {rest : List UInt8} (isClosed : (string rest).IsClosed) :
    string (rest.take ((string rest).length - 1)) = string rest := by
  obtain ⟨inside, more, noQuote, rfl, isString⟩ := string_of_isClosed isClosed
  have cut : (inside ++ '"'.toUInt8 :: more).take (inside.length + 1) = inside ++ ['"'.toUInt8] := by
    rw [List.take_length_add_append]
    rfl
  rw [isString, length, show inside.length + 2 - 1 = inside.length + 1 from rfl, cut,
    string_of_quote noQuote]

/-- A lexeme is one by itself, unless it is trouble. -/
theorem ofBytes_take {first : UInt8} {rest : List UInt8} (isToken : (ofBytes first rest).kind ≠ .error) :
    ofBytes first (rest.take ((ofBytes first rest).length - 1)) = ofBytes first rest := by
  unfold ofBytes at isToken ⊢
  split
  · exact word_take first rest
  · split
    · exact number_take rest
    · next noLetter noDigit =>
      rw [if_neg noLetter, if_neg noDigit] at isToken
      split
      · next isQuote =>
        rw [if_pos isQuote] at isToken
        exact string_take (isClosed_of_kind_ne_error isToken)
      · cases single? first with
        | some kind => rfl
        | none =>
          cases extensible? first with
          | none => rfl
          | some kinds =>
            dsimp only
            split
            · next isEqual =>
              obtain ⟨more, rfl⟩ := List.head?_eq_some_iff.mp isEqual
              rfl
            · rfl

/-- No byte is a string token. -/
theorem single?_ne_string (byte : UInt8) : single? byte ≠ some .string :=
  forall_byte (P := fun byte => single? byte ≠ some .string) (by decide +kernel) byte

/-- No byte with or without an equals sign is a string token. -/
theorem extensible?_ne_string (byte : UInt8) :
    ∀ kinds ∈ extensible? byte, kinds.1 ≠ .string ∧ kinds.2 ≠ .string :=
  forall_byte (P := fun byte => ∀ kinds ∈ extensible? byte, kinds.1 ≠ .string ∧ kinds.2 ≠ .string)
    (by decide +kernel) byte

/-- Only what begins with a quote is a string token. -/
theorem eq_quote_of_kind {first : UInt8} {rest : List UInt8}
    (isString : (ofBytes first rest).kind = .string) : first = '"'.toUInt8 := by
  unfold ofBytes at isString
  split at isString
  · have isWord := ofWord_mem (first :: rest.takeWhile isWordByte)
    rw [show Kind.ofWord _ = _ from isString] at isWord
    exact absurd isWord (by decide)
  · split at isString
    · cases isString
    · split at isString
      · assumption
      · split at isString
        · next isSingle => exact absurd (isSingle.trans (congrArg some isString)) (single?_ne_string first)
        · next plain extended _ isExtensible =>
          have kinds := extensible?_ne_string first (plain, extended) isExtensible
          split at isString
          · exact absurd isString kinds.2
          · exact absurd isString kinds.1
        · cases isString

/-- The bytes of a string token are a quote, bytes without one, and a quote. -/
theorem take_of_kind_string {first : UInt8} {rest : List UInt8}
    (isString : (ofBytes first rest).kind = .string) :
    ∃ inside, '"'.toUInt8 ∉ inside ∧
      (first :: rest).take (ofBytes first rest).length = '"'.toUInt8 :: (inside ++ ['"'.toUInt8]) := by
  obtain rfl := eq_quote_of_kind isString
  have same : ofBytes '"'.toUInt8 rest = string rest := rfl
  rw [same] at isString ⊢
  have isClosed := isClosed_of_kind_ne_error (by rw [isString]; exact nofun)
  obtain ⟨inside, more, noQuote, rfl, found⟩ := string_of_isClosed isClosed
  refine ⟨inside, noQuote, ?_⟩
  rw [found, length, List.take_succ_cons, List.take_length_add_append]
  rfl

end Lexeme

/-- A string token is written with quotes around bytes without one. -/
theorem lexeme_of_kind_string {source : List UInt8} {token : Token} (isToken : token ∈ tokens source)
    (isString : token.kind = .string) :
    ∃ inside, '"'.toUInt8 ∉ inside ∧ token.lexeme = '"'.toUInt8 :: (inside ++ ['"'.toUInt8]) := by
  obtain ⟨scanned, isScanned, rfl⟩ := List.mem_map.mp isToken
  obtain ⟨place, rfl⟩ := Cursor.exists_scan isScanned
  cases ahead : place.skipTrivia.rest with
  | nil =>
    rw [Cursor.scan_of_nil ahead] at isString
    cases isString
  | cons first rest =>
    rw [Cursor.scan_of_cons ahead] at isString ⊢
    obtain ⟨inside, noQuote, taken⟩ := Lexeme.take_of_kind_string isString
    refine ⟨inside, noQuote, ?_⟩
    dsimp only at isString ⊢
    rw [Lexeme.lexeme_of_kind_ne_error (by rw [isString]; exact nofun), taken]

end Lox
