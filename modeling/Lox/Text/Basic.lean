/-!
# Text as characters and stray bytes

A program and the strings it computes may hold bytes that are no UTF-8. A text is therefore a
list of symbols, each a character or a single byte that belongs to no well-formed sequence, and
decoding never fails. Tree files can also write half of a surrogate pair, which has no bytes that
decode to it. Joining two texts joins their symbols and never merges them into a character.

Main statements: encoding a decoded byte sequence gives the same bytes back
(`Text.encode_decode`), and encoding takes joined texts to joined bytes (`Text.encode_append`).
-/

namespace Lox

/-- The code of half a surrogate pair, without those codes that stand for stray bytes. -/
structure HalfPair where
  code : Nat
  isHalf : 0xd800 ≤ code ∧ code ≤ 0xdfff ∧ (code < 0xdc80 ∨ 0xdcff < code)
  deriving DecidableEq, Repr

/-- One symbol of a text: a character, a byte outside every well-formed sequence, or half of a
surrogate pair. -/
inductive Symbol where
  | char (c : Char)
  | stray (byte : UInt8)
  | half (pair : HalfPair)
  deriving DecidableEq, Inhabited, Repr

namespace Symbol

/-- The bytes of one symbol. Half a pair gets the three bytes that its code would have, which
are no UTF-8. -/
def encode : Symbol → List UInt8
  | char c => String.utf8EncodeChar c
  | stray byte => [byte]
  | half pair =>
    [0xed, UInt8.ofNat (0x80 + pair.code / 64 % 64), UInt8.ofNat (0x80 + pair.code % 64)]

/-- Whether a symbol is a character. -/
def isChar : Symbol → Bool
  | char _ => true
  | stray _ | half _ => false

/-- Whether a symbol comes from bytes. -/
def hasBytes : Symbol → Bool
  | char _ | stray _ => true
  | half _ => false

end Symbol

/-- Texts are what strings, names and messages are made of. -/
abbrev Text := List Symbol

namespace Text

/-- The text of a list of characters. -/
def ofChars (chars : List Char) : Text :=
  chars.map Symbol.char

/-- The text of a string. -/
def ofString (string : String) : Text :=
  ofChars string.toList

instance : Coe String Text := ⟨ofString⟩

/-- The decimal digits of a natural number. -/
def ofNat (n : Nat) : Text :=
  ofChars (Nat.toDigits 10 n)

/-- The decimal digits of an integer, after a minus sign when it is negative. -/
def ofInt : Int → Text
  | .ofNat n => ofNat n
  | .negSucc n => .char '-' :: ofNat (n + 1)

/-- The bytes of a text. -/
def encode (text : Text) : List UInt8 :=
  text.flatMap Symbol.encode

/-- The number of bytes of a text. -/
def byteLength (text : Text) : Nat :=
  text.encode.length

/-- The character whose UTF-8 sequence the bytes begin with. Truncated and overlong sequences,
surrogates and values above U+10FFFF begin none. -/
def leadingChar? (bytes : List UInt8) : Option Char :=
  (bytes.take 4).toByteArray.utf8DecodeChar? 0

/-- Decoding after a number of bytes that an earlier character has already used. -/
def decodeAfter : (used : Nat) → List UInt8 → Text
  | _, [] => []
  | used + 1, _ :: rest => decodeAfter used rest
  | 0, byte :: rest =>
    match leadingChar? (byte :: rest) with
    | some c => .char c :: decodeAfter (c.utf8Size - 1) rest
    | none => .stray byte :: decodeAfter 0 rest

/-- The text of a byte sequence: well-formed UTF-8 sequences become characters, and every other
byte stays a symbol of its own. -/
def decode (bytes : List UInt8) : Text :=
  decodeAfter 0 bytes

/-- Joining texts joins their bytes. -/
@[simp] theorem encode_append (left right : Text) :
    Text.encode (left ++ right) = left.encode ++ right.encode :=
  List.flatMap_append

/-- A character is found at the front exactly when the bytes begin with its encoding. -/
theorem leadingChar?_eq_some {bytes : List UInt8} {c : Char} (h : leadingChar? bytes = some c) :
    String.utf8EncodeChar c ++ bytes.drop c.utf8Size = bytes := by
  have taken := String.toByteArray_utf8EncodeChar_of_utf8DecodeChar?_eq_some h
  have size : c.utf8Size ≤ 4 := c.utf8Size_le_four
  have front : String.utf8EncodeChar c = bytes.take c.utf8Size := by
    have lists := congrArg (fun b : ByteArray => b.data.toList) taken
    simpa [ByteArray.data_extract, List.take_take, Nat.min_eq_left size] using lists
  rw [front, List.take_append_drop]

/-- Decoding after some used bytes is decoding what follows them. -/
theorem decodeAfter_eq_decode_drop (used : Nat) (bytes : List UInt8) :
    decodeAfter used bytes = decode (bytes.drop used) := by
  induction bytes generalizing used with
  | nil => cases used <;> simp [decode, decodeAfter]
  | cons byte rest ih =>
    cases used with
    | zero => rfl
    | succ used => simpa [decodeAfter] using ih used

/-- Decoding loses no byte and adds none. -/
theorem encode_decode (bytes : List UInt8) : (decode bytes).encode = bytes := by
  induction n : bytes.length using Nat.strongRecOn generalizing bytes with
  | ind n ih =>
    cases bytes with
    | nil => rfl
    | cons byte rest =>
      simp only [decode, decodeAfter]
      split
      · next c found =>
        have whole := leadingChar?_eq_some found
        have positive := c.utf8Size_pos
        rw [decodeAfter_eq_decode_drop]
        change
          String.utf8EncodeChar c ++ (decode (rest.drop (c.utf8Size - 1))).encode = byte :: rest
        rw [ih (rest.drop (c.utf8Size - 1)).length (by simp at n ⊢; omega) _ rfl]
        obtain ⟨size, sizeEq⟩ : ∃ size, c.utf8Size = size + 1 := ⟨c.utf8Size - 1, by omega⟩
        rw [sizeEq] at whole ⊢
        simpa using whole
      · change byte :: (decode rest).encode = byte :: rest
        rw [ih rest.length (by simp at n; omega) rest rfl]

end Text

end Lox
