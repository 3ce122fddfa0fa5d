import Lox.Text.Basic
import Lox.Text.Ranges

/-!
# Quoted text

Diagnostics and traces show a text between quotes on one line, with everything that has no shape
of its own written as an escape. The quote is the apostrophe unless the text holds one and no
double quote.
-/

namespace Lox

/-- A hexadecimal number of at least the given width, filled up with zeros. -/
def hexDigits (width n : Nat) : List Char :=
  let digits := Nat.toDigits 16 n
  List.replicate (width - digits.length) '0' ++ digits

/-- The escape of a code, in the shortest of three forms. -/
def codeEscape (code : Nat) : List Char :=
  if code < 0x100 then '\\' :: 'x' :: hexDigits 2 code
  else if code < 0x10000 then '\\' :: 'u' :: hexDigits 4 code
  else '\\' :: 'U' :: hexDigits 8 code

/-- One symbol as it stands between the given quotes. -/
def Symbol.quoted (quote : Char) : Symbol → List Char
  | .char c =>
    if c = '\\' || c = quote then ['\\', c]
    else if c = '\n' then ['\\', 'n']
    else if c = '\r' then ['\\', 'r']
    else if c = '\t' then ['\\', 't']
    else if isShapeless c then codeEscape c.toNat
    else [c]
  | .stray byte => codeEscape (0xdc00 + byte.toNat)
  | .half pair => codeEscape pair.code

/-- The quote that needs no escape where one of the two does not. -/
def Text.quote (text : Text) : Char :=
  if text.contains (.char '\'') && !text.contains (.char '"') then '"' else '\''

/-- A text between quotes. -/
def Text.quoted (text : Text) : Text :=
  ofChars (text.quote :: text.flatMap (Symbol.quoted text.quote) ++ [text.quote])

end Lox
