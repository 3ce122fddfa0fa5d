import Lox.Token.Basic

/-!
# Lexemes

Between tokens stand blanks, line breaks and comments that run up to the end of their line. A
token takes the longest run of bytes that has one of the lexical forms. A string that is never
closed takes the rest of the source, and a byte that begins no form stands alone.
-/

namespace Lox

/-- The line break, which alone ends a line. -/
def newline : UInt8 := '\n'.toUInt8

/-- The bytes that may stand between tokens outside comments. -/
def isBlank (byte : UInt8) : Bool :=
  byte = ' '.toUInt8 || byte = '\t'.toUInt8 || byte = '\r'.toUInt8 || byte = newline

/-- Decimal digits. -/
def isDigit (byte : UInt8) : Bool :=
  '0'.toUInt8 ≤ byte && byte ≤ '9'.toUInt8

/-- Letters and the underscore. -/
def isLetter (byte : UInt8) : Bool :=
  ('a'.toUInt8 ≤ byte && byte ≤ 'z'.toUInt8) || ('A'.toUInt8 ≤ byte && byte ≤ 'Z'.toUInt8) ||
    byte = '_'.toUInt8

/-- What a word goes on with after its first letter. -/
def isWordByte (byte : UInt8) : Bool :=
  isLetter byte || isDigit byte

/-- The number of bytes up to the next token, inside or outside a comment. -/
def triviaLength : (inComment : Bool) → List UInt8 → Nat
  | _, [] => 0
  | true, byte :: rest => 1 + triviaLength (byte != newline) rest
  | false, byte :: rest =>
    if isBlank byte then 1 + triviaLength false rest
    else if byte = '/'.toUInt8 && rest.head? = some '/'.toUInt8 then 1 + triviaLength true rest
    else 0

/-- The outcome of looking for a token at the front of some bytes. -/
inductive Lexeme where
  | token (kind : Kind) (length : Nat)
  | unterminated (length : Nat)
  | unexpected
  deriving DecidableEq, Repr

namespace Lexeme

/-- Tokens of one byte that are no beginning of another token. -/
def single? (byte : UInt8) : Option Kind :=
  if byte = '('.toUInt8 then some .leftParen
  else if byte = ')'.toUInt8 then some .rightParen
  else if byte = '\x7b'.toUInt8 then some .leftBrace
  else if byte = '\x7d'.toUInt8 then some .rightBrace
  else if byte = ';'.toUInt8 then some .semicolon
  else if byte = ','.toUInt8 then some .comma
  else if byte = '.'.toUInt8 then some .dot
  else if byte = '-'.toUInt8 then some .minus
  else if byte = '+'.toUInt8 then some .plus
  else if byte = '/'.toUInt8 then some .slash
  else if byte = '*'.toUInt8 then some .star
  else none

/-- Tokens that an equals sign may extend, without and with it. -/
def extensible? (byte : UInt8) : Option (Kind × Kind) :=
  if byte = '!'.toUInt8 then some (.bang, .bangEqual)
  else if byte = '='.toUInt8 then some (.equal, .equalEqual)
  else if byte = '<'.toUInt8 then some (.less, .lessEqual)
  else if byte = '>'.toUInt8 then some (.greater, .greaterEqual)
  else none

/-- The bytes of a fraction: a point with at least one digit after it. -/
def fractionLength : List UInt8 → Nat
  | point :: digit :: rest =>
    if point = '.'.toUInt8 && isDigit digit then 2 + (rest.takeWhile isDigit).length else 0
  | _ => 0

/-- A number from its first digit on. -/
def number (rest : List UInt8) : Lexeme :=
  let whole := (rest.takeWhile isDigit).length
  token .number (1 + whole + fractionLength (rest.drop whole))

/-- A keyword or identifier from its first letter on. -/
def word (first : UInt8) (rest : List UInt8) : Lexeme :=
  let lexeme := first :: rest.takeWhile isWordByte
  token (Kind.ofWord lexeme) lexeme.length

/-- A string after its opening quote. -/
def string (rest : List UInt8) : Lexeme :=
  let inside := (rest.takeWhile (· ≠ '"'.toUInt8)).length
  if (rest.drop inside).isEmpty then unterminated (inside + 1) else token .string (inside + 2)

/-- The token that begins with a byte that is no trivia. -/
def ofBytes (first : UInt8) (rest : List UInt8) : Lexeme :=
  if isLetter first then word first rest
  else if isDigit first then number rest
  else if first = '"'.toUInt8 then string rest
  else
    match single? first, extensible? first with
    | some kind, _ => token kind 1
    | none, some (plain, extended) =>
      if rest.head? = some '='.toUInt8 then token extended 2 else token plain 1
    | none, none => unexpected

/-- The number of bytes that an outcome takes. -/
def length : Lexeme → Nat
  | token _ length => length
  | unterminated length => length
  | unexpected => 1

/-- The kind of the token that reports an outcome. -/
def kind : Lexeme → Kind
  | token kind _ => kind
  | unterminated _ | unexpected => .error

/-- The bytes of the token that reports an outcome: those taken, or the diagnostic. -/
def lexeme (taken : List UInt8) : Lexeme → List UInt8
  | token _ _ => taken
  | unterminated _ => Text.encode "Unterminated string."
  | unexpected => Text.encode "Unexpected character."

end Lexeme

end Lox
