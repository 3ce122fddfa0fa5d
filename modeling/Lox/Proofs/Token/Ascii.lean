import Lox.Proofs.Text.Characters
import Lox.Token.Cursor

/-!
# Tokens of ASCII

Words and operators are made of ASCII bytes, so their texts hold only characters. Of the tokens
that a scan yields only strings may hold other bytes.
-/

namespace Lox

/-- Bytes of ASCII. -/
def AreAscii (bytes : List UInt8) : Prop :=
  ∀ byte ∈ bytes, byte.toNat < 0x80

/-- A byte of ASCII is the encoding of a character. -/
theorem utf8EncodeChar_ascii {byte : UInt8} (isAscii : byte.toNat < 0x80) :
    String.utf8EncodeChar (Char.ofNat byte.toNat) = [byte] := by
  have encoded : ∀ code < 0x80, String.utf8EncodeChar (Char.ofNat code) = [UInt8.ofNat code] := by
    decide
  rw [encoded _ isAscii, UInt8.ofNat_toNat]

/-- ASCII is the encoding of characters. -/
theorem AreAscii.exists_encode {bytes : List UInt8} (areAscii : AreAscii bytes) :
    ∃ chars, (Text.ofChars chars).encode = bytes := by
  induction bytes with
  | nil => exact ⟨[], rfl⟩
  | cons byte bytes ih =>
    obtain ⟨isAscii, others⟩ := List.forall_mem_cons.mp areAscii
    obtain ⟨chars, rest⟩ := ih others
    refine ⟨Char.ofNat byte.toNat :: chars, ?_⟩
    change String.utf8EncodeChar (Char.ofNat byte.toNat) ++ (Text.ofChars chars).encode = _
    rw [utf8EncodeChar_ascii isAscii, rest]
    rfl

/-- ASCII decodes to characters only. -/
theorem AreAscii.onlyChars_decode {bytes : List UInt8} (areAscii : AreAscii bytes) :
    (Text.decode bytes).OnlyChars := by
  obtain ⟨chars, rfl⟩ := areAscii.exists_encode
  rw [Text.decode_encode (Text.onlyChars_ofChars chars)]
  exact Text.onlyChars_ofChars chars

/-- What holds of the codes of bytes holds of bytes. -/
theorem forall_byte {P : UInt8 → Prop} (holds : ∀ code < 0x100, P (UInt8.ofNat code))
    (byte : UInt8) : P byte :=
  UInt8.ofNat_toNat (x := byte) ▸ holds _ byte.toNat_lt

/-- Letters, digits and underscores are ASCII. -/
theorem toNat_lt_of_isWordByte (byte : UInt8) : isWordByte byte → byte.toNat < 0x80 :=
  forall_byte (P := fun byte => isWordByte byte → byte.toNat < 0x80)
    (by decide +kernel) byte

namespace Lexeme

/-- The bytes that are operators by themselves are ASCII. -/
theorem toNat_lt_of_single? (byte : UInt8) : (single? byte).isSome → byte.toNat < 0x80 :=
  forall_byte (P := fun byte => (single? byte).isSome → byte.toNat < 0x80)
    (by decide +kernel) byte

/-- The bytes that begin operators of two bytes are ASCII. -/
theorem toNat_lt_of_extensible? (byte : UInt8) : (extensible? byte).isSome → byte.toNat < 0x80 :=
  forall_byte (P := fun byte => (extensible? byte).isSome → byte.toNat < 0x80)
    (by decide +kernel) byte

/-- A word is ASCII. -/
theorem areAscii_word {first : UInt8} {rest : List UInt8} (isFirst : isLetter first) :
    AreAscii ((word first rest).lexeme ((first :: rest).take (word first rest).length)) := by
  have whole : (first :: rest).take (first :: rest.takeWhile isWordByte).length =
      first :: rest.takeWhile isWordByte := by
    rw [List.length_cons, List.take_succ_cons, List.prefix_iff_eq_take.mp (List.takeWhile_prefix _)]
    simp
  unfold word lexeme length
  dsimp only
  rw [whole]
  intro byte isByte
  refine toNat_lt_of_isWordByte byte ?_
  obtain rfl | isLater := List.mem_cons.mp isByte
  · simp [isWordByte, isFirst]
  · exact List.mem_takeWhile_imp isLater

/-- A scan that finds a quote yields a string or an error. -/
theorem kind_string (rest : List UInt8) :
    (string rest).kind = .string ∨ (string rest).kind = .error := by
  unfold string
  dsimp only
  split
  · exact .inr rfl
  · exact .inl rfl

/-- The bytes of a token are ASCII unless it is a string or a number. -/
theorem areAscii_ofBytes {first : UInt8} {rest : List UInt8}
    (isKept : (ofBytes first rest).kind ≠ .string ∧ (ofBytes first rest).kind ≠ .number ∧
      (ofBytes first rest).kind ≠ .error) :
    AreAscii ((ofBytes first rest).lexeme ((first :: rest).take (ofBytes first rest).length)) := by
  obtain ⟨noString, noNumber, noError⟩ := isKept
  unfold ofBytes at noString noNumber noError ⊢
  split
  · next isWord => exact areAscii_word isWord
  · next noLetter =>
    rw [if_neg noLetter] at noString noNumber noError
    split
    · next isDigit =>
      rw [if_pos isDigit] at noNumber
      exact absurd rfl noNumber
    · next noDigit =>
      rw [if_neg noDigit] at noString noError
      split
      · next isQuote =>
        rw [if_pos isQuote] at noString noError
        obtain isString | isError := kind_string rest
        · exact absurd isString noString
        · exact absurd isError noError
      · next noQuote =>
        rw [if_neg noQuote] at noError
        split
        · next single =>
          have isAscii := toNat_lt_of_single? first (by simp [single])
          simpa [AreAscii, lexeme, length] using isAscii
        · next extensible =>
          have isAscii := toNat_lt_of_extensible? first (by simp [extensible])
          split
          · next isEqual =>
            cases rest with
            | nil => simp at isEqual
            | cons second rest =>
              obtain rfl : second = '='.toUInt8 := by simpa using isEqual
              simpa [AreAscii, lexeme, length] using ⟨isAscii, (by decide : _ < _)⟩
          · simpa [AreAscii, lexeme, length] using isAscii
        · next noSingle noExtensible =>
          simp [noSingle, noExtensible, kind] at noError

end Lexeme

/-- Every scanned token was scanned at some place. -/
theorem Cursor.exists_scan {fuel : Nat} {cursor : Cursor} {scanned : Scanned}
    (isScanned : scanned ∈ cursor.scanAll fuel) : ∃ place : Cursor, place.scan = scanned := by
  induction fuel generalizing cursor with
  | zero => exact absurd isScanned List.not_mem_nil
  | succ fuel ih =>
    rw [scanAll] at isScanned
    split at isScanned
    · exact ⟨cursor, (List.mem_singleton.mp isScanned).symm⟩
    · obtain isFirst | isLater := List.mem_cons.mp isScanned
      · exact ⟨cursor, isFirst.symm⟩
      · exact ih isLater

/-- A scanned token is ASCII unless it is a string or a number. -/
theorem Cursor.areAscii_scan {cursor : Cursor}
    (isKept : cursor.scan.token.kind ≠ .string ∧ cursor.scan.token.kind ≠ .number ∧
      cursor.scan.token.kind ≠ .error) : AreAscii cursor.scan.token.lexeme := by
  unfold scan at isKept ⊢
  dsimp only at isKept ⊢
  split at isKept
  · exact fun _ isByte => absurd isByte List.not_mem_nil
  · next first rest ahead =>
    dsimp only at isKept ⊢
    rw [ahead]
    exact Lexeme.areAscii_ofBytes isKept

/-- The texts of a source's tokens hold only characters unless they are strings or numbers. -/
theorem onlyChars_of_mem_tokens {source : List UInt8} {token : Token}
    (isToken : token ∈ tokens source)
    (isKept : token.kind ≠ .string ∧ token.kind ≠ .number ∧ token.kind ≠ .error) :
    token.text.OnlyChars := by
  obtain ⟨scanned, isScanned, rfl⟩ := List.mem_map.mp isToken
  obtain ⟨place, rfl⟩ := Cursor.exists_scan isScanned
  exact (Cursor.areAscii_scan isKept).onlyChars_decode

end Lox
