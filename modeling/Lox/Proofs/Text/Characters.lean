import Lox.Text.Strict
import Mathlib.Data.List.TakeWhile

/-!
# Texts that can be written

A text can be written where all of its symbols can. What bytes decode to can always be turned into
bytes again, and a text of characters survives a file of characters.
-/

namespace Lox.Text

variable {text : Text} {writable : Symbol → Bool}

/-- Different strings are different texts. -/
@[simp]
theorem ofString_inj {left right : String} : ofString left = ofString right ↔ left = right := by
  unfold ofString ofChars
  rw [List.map_inj_right fun _ _ same => Symbol.char.inj same, String.toList_inj]

/-- Comparing texts of strings is comparing the strings. -/
@[simp]
theorem ofString_beq (left right : String) :
    (ofString left == ofString right) = (left == right) := by
  rw [Bool.eq_iff_iff, beq_iff_eq, beq_iff_eq, ofString_inj]

/-- There is no error exactly where every symbol can be written. -/
theorem unwritable?_eq_none_iff :
    text.unwritable? writable = none ↔ ∀ symbol ∈ text, writable symbol := by
  have dropped : text.drop (text.takeWhile writable).length = text.dropWhile writable := by
    have split : (text.takeWhile writable ++ text.dropWhile writable).drop
        (text.takeWhile writable).length = text.dropWhile writable := List.drop_left
    rwa [List.takeWhile_append_dropWhile] at split
  unfold unwritable?
  dsimp only
  rw [dropped, ← List.dropWhile_eq_nil_iff]
  cases text.dropWhile writable <;> simp

/-- A text holds nothing but characters. -/
def OnlyChars (text : Text) : Prop :=
  ∀ symbol ∈ text, symbol.isChar

/-- Nothing keeps a text of characters from a file of characters, and nothing else may go there. -/
theorem storageError?_eq_none_iff : text.storageError? = none ↔ text.OnlyChars :=
  unwritable?_eq_none_iff

/-- A text without symbols holds only characters. -/
@[simp]
theorem onlyChars_nil : OnlyChars [] :=
  fun _ isSymbol => absurd isSymbol List.not_mem_nil

/-- A text holds only characters where its first symbol is one and the others are. -/
@[simp]
theorem onlyChars_cons {symbol : Symbol} {rest : Text} :
    OnlyChars (symbol :: rest) ↔ symbol.isChar ∧ OnlyChars rest :=
  List.forall_mem_cons

/-- Joined texts hold only characters where each of them does. -/
@[simp]
theorem onlyChars_append {left right : Text} :
    OnlyChars (left ++ right) ↔ OnlyChars left ∧ OnlyChars right :=
  List.forall_mem_append

/-- Characters are what the text of characters holds. -/
@[simp]
theorem onlyChars_ofChars (chars : List Char) : OnlyChars (ofChars chars) := by
  intro symbol isSymbol
  obtain ⟨c, -, rfl⟩ := List.mem_map.mp isSymbol
  rfl

/-- The character that bytes were made of is found at their front. -/
theorem leadingChar?_utf8EncodeChar (c : Char) (rest : List UInt8) :
    leadingChar? (String.utf8EncodeChar c ++ rest) = some c := by
  have taken : (String.utf8EncodeChar c ++ rest).take 4 =
      String.utf8EncodeChar c ++ rest.take (4 - c.utf8Size) := by
    rw [List.take_append, String.length_utf8EncodeChar,
      List.take_of_length_le (by rw [String.length_utf8EncodeChar]; exact c.utf8Size_le_four)]
  unfold leadingChar?
  rw [taken, List.toByteArray_append]
  exact ByteArray.utf8DecodeChar?_utf8EncodeChar_append

/-- The bytes of a character are decoded as the character, whatever follows them. -/
theorem decode_utf8EncodeChar_append (c : Char) (rest : List UInt8) :
    decode (String.utf8EncodeChar c ++ rest) = .char c :: decode rest := by
  obtain ⟨byte, more, bytes⟩ : ∃ byte more, String.utf8EncodeChar c = byte :: more :=
    List.exists_cons_of_length_pos (by rw [String.length_utf8EncodeChar]; exact c.utf8Size_pos)
  have size := String.length_utf8EncodeChar c
  have leading := leadingChar?_utf8EncodeChar c rest
  rw [bytes, List.length_cons] at size
  rw [bytes, List.cons_append] at leading ⊢
  rw [decode, decodeAfter, leading]
  dsimp only
  rw [decodeAfter_eq_decode_drop, ← size, Nat.add_sub_cancel, List.drop_left]

/-- A byte with which no character begins is decoded by itself. -/
theorem decode_cons_stray {byte : UInt8} {rest : List UInt8}
    (noChar : leadingChar? (byte :: rest) = none) :
    decode (byte :: rest) = .stray byte :: decode rest := by
  rw [decode, decodeAfter, noChar]
  rfl

/-- Bytes are taken apart into characters and into bytes with which no character begins. -/
@[elab_as_elim]
theorem bytes_induction {motive : List UInt8 → Prop} (nil : motive [])
    (char : ∀ c rest, motive rest → motive (String.utf8EncodeChar c ++ rest))
    (stray : ∀ byte rest, leadingChar? (byte :: rest) = none → motive rest → motive (byte :: rest))
    (bytes : List UInt8) : motive bytes := by
  induction size : bytes.length using Nat.strongRecOn generalizing bytes with
  | ind _ ih =>
    cases bytes with
    | nil => exact nil
    | cons byte rest =>
      cases leading : leadingChar? (byte :: rest) with
      | none => exact stray byte rest leading (ih _ (by simp [← size]) rest rfl)
      | some c =>
        rw [← leadingChar?_eq_some leading]
        have positive := c.utf8Size_pos
        exact char c _ (ih _ (by rw [List.length_drop, ← size]; simp; omega) _ rfl)

/-- Decoding the bytes of characters gives these characters. -/
theorem decode_encode (onlyChars : text.OnlyChars) : decode text.encode = text := by
  induction text with
  | nil => rfl
  | cons symbol rest ih =>
    rw [onlyChars_cons] at onlyChars
    obtain ⟨isChar, others⟩ := onlyChars
    match symbol with
    | .char c => exact (decode_utf8EncodeChar_append c _).trans (congrArg _ (ih others))

/-- What was written to a file of characters is read back from it. -/
theorem read_encode (onlyChars : text.OnlyChars) : read text.encode = .ok text := by
  unfold read
  dsimp only
  rw [decode_encode onlyChars, List.takeWhile_eq_self_iff.mpr onlyChars, byteLength,
    List.drop_length]

/-- What bytes decode to consists of characters and stray bytes. -/
theorem hasBytes_of_mem_decode (bytes : List UInt8) :
    ∀ symbol ∈ decode bytes, symbol.hasBytes := by
  induction bytes using bytes_induction with
  | nil => exact fun _ isSymbol => absurd isSymbol List.not_mem_nil
  | char c rest ih =>
    rw [decode_utf8EncodeChar_append, List.forall_mem_cons]
    exact ⟨rfl, ih⟩
  | stray byte rest noChar ih =>
    rw [decode_cons_stray noChar, List.forall_mem_cons]
    exact ⟨rfl, ih⟩

/-- What bytes decode to can be turned into bytes. -/
theorem byteError?_decode (bytes : List UInt8) : (decode bytes).byteError? = none :=
  unwritable?_eq_none_iff.mpr (hasBytes_of_mem_decode bytes)

end Lox.Text
