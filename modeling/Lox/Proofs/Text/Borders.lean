import Lox.Proofs.Text.Characters
import Mathlib.Data.List.Infix

/-!
# Borders in bytes

Where bytes are cut, a sequence that stands for a character may begin before the cut and end behind it.
It is then decoded as the character from the whole, and byte by byte from the parts. At every other cut
the parts decode to the parts of the text.

No byte but the first of such a sequence can begin one. So no sequence goes on where another one begins.
-/

namespace Lox.Text

variable {bytes more front back : List UInt8} {c : Char}

/-- A character is at the front exactly when the bytes begin with its sequence. -/
theorem leadingChar?_eq_some_iff : leadingChar? bytes = some c ↔ String.utf8EncodeChar c <+: bytes := by
  constructor
  · exact fun isLeading => ⟨_, leadingChar?_eq_some isLeading⟩
  · rintro ⟨rest, rfl⟩
    exact leadingChar?_utf8EncodeChar c rest

/-- The sequence of a character begins before the end of some bytes and ends behind it, in what follows. -/
def Straddled (bytes more : List UInt8) : Prop :=
  ∃ c front back, front ≠ [] ∧ back ≠ [] ∧ String.utf8EncodeChar c = front ++ back ∧
    front <:+ bytes ∧ back <+: more

/-- A sequence that straddles the end of some bytes does so where further bytes stand before them. -/
theorem Straddled.append_left (straddled : Straddled bytes more) (before : List UInt8) :
    Straddled (before ++ bytes) more := by
  obtain ⟨c, front, back, someFront, someBack, split, isSuffix, isPrefix⟩ := straddled
  exact ⟨c, front, back, someFront, someBack, split, isSuffix.trans (List.suffix_append _ _), isPrefix⟩

/-- Where no sequence straddles the end of some bytes, no character comes to their front by what follows. -/
theorem leadingChar?_append_eq_none {byte : UInt8} {rest : List UInt8}
    (noChar : leadingChar? (byte :: rest) = none) (notStraddled : ¬Straddled (byte :: rest) more) :
    leadingChar? (byte :: rest ++ more) = none := by
  rw [Option.eq_none_iff_forall_ne_some] at noChar ⊢
  intro c isLeading
  obtain ⟨after, whole⟩ := leadingChar?_eq_some_iff.mp isLeading
  obtain ⟨inside, isInside, -⟩ | ⟨back, encoded, isFurther⟩ := List.append_eq_append_iff.mp whole
  · exact noChar c (leadingChar?_eq_some_iff.mpr ⟨inside, isInside.symm⟩)
  · by_cases noBack : back = []
    · refine noChar c (leadingChar?_eq_some_iff.mpr ⟨[], ?_⟩)
      rw [encoded, noBack, List.append_nil, List.append_nil]
    · exact notStraddled ⟨c, byte :: rest, back, List.cons_ne_nil _ _, noBack, encoded,
        List.suffix_rfl, ⟨after, isFurther.symm⟩⟩

/-- Bytes may be decoded in parts that meet where no sequence straddles their border. -/
theorem decode_append (notStraddled : ¬Straddled bytes more) :
    decode (bytes ++ more) = decode bytes ++ decode more := by
  induction bytes using bytes_induction with
  | nil => rfl
  | char c rest ih =>
    rw [List.append_assoc, decode_utf8EncodeChar_append, decode_utf8EncodeChar_append, List.cons_append,
      ih fun straddled => notStraddled (straddled.append_left _)]
  | stray byte rest noChar ih =>
    have notAhead := leadingChar?_append_eq_none noChar notStraddled
    rw [List.cons_append] at notAhead ⊢
    rw [decode_cons_stray noChar, decode_cons_stray notAhead, List.cons_append,
      ih fun straddled => notStraddled (straddled.append_left [byte])]

/-- Only at its first byte does the sequence of a character look like the beginning of one. -/
theorem not_isUTF8FirstByte (split : String.utf8EncodeChar c = front ++ back) (someFront : front ≠ [])
    {byte : UInt8} (isByte : byte ∈ back) : ¬byte.IsUTF8FirstByte := by
  obtain ⟨index, isIndex, rfl⟩ := List.getElem_of_mem isByte
  have inside : front.length + index < (String.utf8EncodeChar c).length := by
    rw [split, List.length_append]
    omega
  have isPlace : (String.utf8EncodeChar c)[front.length + index] = back[index] := by
    simp [split]
  rw [← isPlace, UInt8.isUTF8FirstByte_getElem_utf8EncodeChar, Nat.add_eq_zero_iff]
  exact fun isFirst => someFront (List.length_eq_zero_iff.mp isFirst.1)

/-- Nothing straddles a border behind which a sequence may begin. -/
theorem not_straddled_of_isUTF8FirstByte {byte : UInt8} (isFirst : byte.IsUTF8FirstByte)
    (bytes rest : List UInt8) : ¬Straddled bytes (byte :: rest) := by
  rintro ⟨c, front, back, someFront, someBack, split, -, isPrefix⟩
  obtain ⟨first, others, rfl⟩ := List.exists_cons_of_ne_nil someBack
  obtain rfl : first = byte := (List.cons_prefix_cons.mp isPrefix).1
  exact not_isUTF8FirstByte split someFront List.mem_cons_self isFirst

/-- A character does not begin with a part of its sequence. -/
theorem leadingChar?_of_part (split : String.utf8EncodeChar c = front ++ back) (someBack : back ≠ []) :
    leadingChar? front = none := by
  refine Option.eq_none_iff_forall_ne_some.mpr fun c' isLeading => ?_
  have isPrefix := leadingChar?_eq_some_iff.mp isLeading
  have isWhole : String.utf8EncodeChar c' <+: String.utf8EncodeChar c :=
    isPrefix.trans ⟨back, split.symm⟩
  obtain rfl : c = c' := by
    have same := leadingChar?_eq_some_iff.mpr isWhole
    have self := leadingChar?_utf8EncodeChar c []
    rw [List.append_nil] at self
    exact Option.some.inj (self.symm.trans same)
  have shorter := isPrefix.length_le
  rw [split, List.length_append] at shorter
  have longer := List.length_pos_of_ne_nil someBack
  omega

/-- The first byte of a character's sequence begins one. -/
theorem isUTF8FirstByte_of_cons {byte : UInt8} {rest : List UInt8}
    (encoded : String.utf8EncodeChar c = byte :: rest) : byte.IsUTF8FirstByte := by
  have someByte : 0 < (String.utf8EncodeChar c).length := by
    rw [encoded]
    exact Nat.zero_lt_succ _
  have isFirst := (@UInt8.isUTF8FirstByte_getElem_utf8EncodeChar c 0 someByte).mpr rfl
  simpa only [encoded, List.getElem_cons_zero] using isFirst

/-- What a sequence straddles is decoded from its parts otherwise than from the whole. -/
theorem decode_append_ne (straddled : Straddled bytes more) :
    decode (bytes ++ more) ≠ decode bytes ++ decode more := by
  obtain ⟨c, front, back, someFront, someBack, split, ⟨before, rfl⟩, ⟨after, rfl⟩⟩ := straddled
  have noChar := leadingChar?_of_part split someBack
  obtain ⟨byte, rest, rfl⟩ := List.exists_cons_of_ne_nil someFront
  -- The sequence begins with a byte that no other sequence goes on with.
  have notBefore (others : List UInt8) : ¬Straddled before (byte :: others) :=
    not_straddled_of_isUTF8FirstByte (isUTF8FirstByte_of_cons split) before others
  have whole : decode (before ++ byte :: rest ++ (back ++ after)) =
      decode before ++ .char c :: decode after := by
    rw [List.append_assoc, ← List.append_assoc (byte :: rest), ← split, ← decode_utf8EncodeChar_append,
      split]
    exact decode_append (notBefore _)
  rw [whole, decode_append (notBefore rest), decode_cons_stray noChar, List.append_assoc]
  intro same
  cases List.append_cancel_left same

/-- Bytes may be decoded in parts exactly where no sequence straddles the border of the parts. -/
theorem decode_append_iff :
    decode (bytes ++ more) = decode bytes ++ decode more ↔ ¬Straddled bytes more :=
  ⟨fun same straddled => decode_append_ne straddled same, decode_append⟩

end Lox.Text
