import Lox.Execution.Operation
import Lox.Proofs.Reading.RawBytes
import Lox.Proofs.Text.Borders

/-!
# Strings and their bytes

A string counts as the number of its bytes. Joining strings joins their bytes, and so adds these numbers;
a string with half of a surrogate pair has no bytes, and neither has what it is joined to.

Equal strings have the same bytes. The other way round this holds of strings that were decoded from bytes,
as those that a program writes down are, but not of all that it computes: a character that is cut into two
strings does not come back when they are joined.
-/

namespace Lox

namespace Text

/-- The bytes of a text, unless it holds half of a surrogate pair. -/
def bytes? (text : Text) : Option (List UInt8) :=
  if text.byteError? = none then some text.encode else none

variable {left right : Text}

/-- A text has bytes where each of its symbols has some. -/
theorem bytes?_eq_some_iff {text : Text} {bytes : List UInt8} :
    text.bytes? = some bytes ↔ (∀ symbol ∈ text, symbol.hasBytes) ∧ text.encode = bytes := by
  unfold bytes?
  rw [Option.ite_none_right_eq_some, byteError?, unwritable?_eq_none_iff, Option.some_inj]

/-- Joined texts have bytes where both have some, and these are joined then. -/
theorem bytes?_append :
    (left ++ right).bytes? = (do some ((← left.bytes?) ++ (← right.bytes?))) := by
  refine Option.ext fun bytes => ?_
  simp only [bytes?_eq_some_iff, List.forall_mem_append, encode_append, Option.bind_eq_bind,
    Option.bind_eq_some_iff, Option.some.injEq]
  constructor
  · rintro ⟨⟨hasLeft, hasRight⟩, joined⟩
    exact ⟨_, ⟨hasLeft, rfl⟩, _, ⟨hasRight, rfl⟩, joined⟩
  · rintro ⟨_, ⟨hasLeft, rfl⟩, _, ⟨hasRight, rfl⟩, joined⟩
    exact ⟨⟨hasLeft, hasRight⟩, joined⟩

/-- What bytes decode to has these bytes. -/
theorem bytes?_decode (bytes : List UInt8) : (decode bytes).bytes? = some bytes :=
  bytes?_eq_some_iff.mpr ⟨hasBytes_of_mem_decode bytes, encode_decode bytes⟩

/-- Bytes that decode to texts with the same bytes are the same. -/
theorem decode_eq_of_bytes? {bytes bytes' : List UInt8}
    (same : (decode bytes).bytes? = (decode bytes').bytes?) : decode bytes = decode bytes' := by
  rw [bytes?_decode, bytes?_decode, Option.some_inj] at same
  rw [same]

end Text

/-- A string counts as the number of its bytes. -/
theorem Value.asNumber_text {text : Text} {bytes : List UInt8} (hasBytes : text.bytes? = some bytes) :
    (Value.text text).asNumber = pure (Number.ofQuotient false bytes.length 1) := by
  have found := Text.bytes?_eq_some_iff.mp hasBytes
  have noError : text.byteError? = none := Text.unwritable?_eq_none_iff.mpr found.1
  rw [asNumber, byteError?, noError, toNumber?, Text.byteLength, found.2]
  rfl

/-- Strings are equal where they are the same text. -/
theorem Value.equals_text {left right : Text} :
    (Value.text left).equals (.text right) = true ↔ left = right :=
  decide_eq_true_iff

/-- The sum of strings has their bytes, one after the other, and counts as the number of them all. Bytes
that are decoded are the bytes of the text. Equal strings have equal bytes, and so the other way round if
both were decoded, as string literals are. The sum of two decoded strings is what their joint bytes decode
to just if the bytes of no character straddle the border. -/
theorem strings_join_as_bytes :
    (∀ (left right : Text) (lexeme : List UInt8) (line : Int), ∃ sum : Text,
      applyBinary ⟨.plus, lexeme, line⟩ (.text left) (.text right) = Exec.newCell (.text sum) ∧
      sum.bytes? = (do some ((← left.bytes?) ++ (← right.bytes?))) ∧
      ∀ first second, left.bytes? = some first → right.bytes? = some second →
        (Value.text left).asNumber = pure (Number.ofQuotient false first.length 1) ∧
        (Value.text right).asNumber = pure (Number.ofQuotient false second.length 1) ∧
        (Value.text sum).asNumber =
          pure (Number.ofQuotient false (first.length + second.length) 1)) ∧
    (∀ bytes, (Text.decode bytes).bytes? = some bytes) ∧
    (∀ left right : Text, (Value.text left).equals (.text right) = true → left.bytes? = right.bytes?) ∧
    (∀ bytes bytes', (Text.decode bytes).bytes? = (Text.decode bytes').bytes? →
      (Value.text (Text.decode bytes)).equals (.text (Text.decode bytes')) = true) ∧
    (∀ source program, Program.ofSource source = .ok program →
      ∀ text ∈ Node.stringsOfList program, ∃ bytes, text = Text.decode bytes) ∧
    ∀ bytes more, (Value.text (Text.decode bytes ++ Text.decode more)).equals
        (.text (Text.decode (bytes ++ more))) = true ↔ ¬Text.Straddled bytes more := by
  refine ⟨fun left right lexeme line => ⟨left ++ right, rfl, Text.bytes?_append, ?_⟩,
    Text.bytes?_decode, fun left right same => ?_, fun bytes bytes' same => ?_,
    fun source program accepted text isText => ?_, fun bytes more => ?_⟩
  · intro first second isFirst isSecond
    have isSum : (left ++ right).bytes? = some (first ++ second) := by
      rw [Text.bytes?_append, isFirst, isSecond]
      rfl
    have counted := Value.asNumber_text isSum
    rw [List.length_append] at counted
    exact ⟨Value.asNumber_text isFirst, Value.asNumber_text isSecond, counted⟩
  · rw [Value.equals_text.mp same]
  · exact Value.equals_text.mpr (Text.decode_eq_of_bytes? same)
  · obtain ⟨token, -, -, -, inside, -, -, decoded, -⟩ := Source.holds_of_mem_strings accepted isText
    exact ⟨inside, decoded⟩
  · rw [Value.equals_text, eq_comm]
    exact Text.decode_append_iff

end Lox
