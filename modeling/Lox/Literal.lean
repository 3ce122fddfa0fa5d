import Lox.Number.Notation
import Lox.Token.Lexeme

/-!
# Literals

The values that a program can write down: nil, truth values, numbers and strings. A string has
no escapes, so its value is what stands between the quotes.
-/

namespace Lox

/-- A value written in a program. -/
inductive Literal where
  | nil
  | bool (value : Bool)
  | number (value : Number)
  | text (value : Text)
  deriving DecidableEq, Inhabited, Repr

/-- The number that the bytes of a number token write. -/
def Number.ofLexeme (lexeme : List UInt8) : Number :=
  let digits (bytes : List UInt8) : List Char := bytes.map fun byte => Char.ofNat byte.toNat
  Number.ofLiteral (digits (lexeme.takeWhile isDigit)) (digits ((lexeme.dropWhile isDigit).drop 1))

/-- The value of a token that is a literal by itself. -/
def Literal.ofToken? (token : Token) : Option Literal :=
  match token.kind with
  | .nilWord => some .nil
  | .trueWord => some (.bool true)
  | .falseWord => some (.bool false)
  | .number => some (.number (Number.ofLexeme token.lexeme))
  | .string => some (.text (Text.decode (token.lexeme.drop 1).dropLast))
  | _ => none

end Lox
