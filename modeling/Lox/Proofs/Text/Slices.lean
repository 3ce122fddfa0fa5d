import Lox.Proofs.Text.Borders
import Lox.Proofs.Token.Ascii

/-!
# Slices of bytes and of texts

A byte of ASCII never belongs to a longer sequence, so bytes may be decoded in parts that meet at such
a byte, whatever the parts are made of. What stands between two of them in the bytes decodes to what
stands between two characters in the text.
-/

namespace Lox.Text

/-- A byte of ASCII begins a sequence. -/
theorem isUTF8FirstByte_of_ascii (byte : UInt8) : byte.toNat < 0x80 → byte.IsUTF8FirstByte :=
  forall_byte (P := fun byte => byte.toNat < 0x80 → byte.IsUTF8FirstByte) (by decide +kernel) byte

variable {byte : UInt8} (isAscii : byte.toNat < 0x80)

include isAscii

/-- A byte of ASCII is decoded by itself. -/
theorem decode_cons_ascii (rest : List UInt8) :
    decode (byte :: rest) = .char (Char.ofNat byte.toNat) :: decode rest := by
  have decoded := decode_utf8EncodeChar_append (Char.ofNat byte.toNat) rest
  rwa [utf8EncodeChar_ascii isAscii] at decoded

/-- Bytes may be decoded in parts that meet at a byte of ASCII. -/
theorem decode_append_ascii (bytes more : List UInt8) :
    decode (bytes ++ byte :: more) = decode bytes ++ decode (byte :: more) :=
  decode_append (not_straddled_of_isUTF8FirstByte (isUTF8FirstByte_of_ascii byte isAscii) bytes more)

/-- What stands between two bytes of ASCII decodes to what stands between two characters. -/
theorem decode_between_ascii (bytes : List UInt8) :
    ((decode (byte :: (bytes ++ [byte]))).drop 1).dropLast = decode bytes := by
  rw [decode_cons_ascii isAscii, decode_append_ascii isAscii, decode_cons_ascii isAscii]
  exact List.dropLast_concat

end Lox.Text
