import Lox.Token.Basic

/-!
# Diagnostics

What is wrong with a source that is no program. Each diagnostic holds the token it is about, so
that its line and its lexeme are those of a token of the source.
-/

namespace Lox

/-- The largest number of arguments of a call and of parameters of a function. -/
def maxArguments : Nat := 255

/-- Why a source is no program. -/
inductive Diagnostic where
  | lexical (token : Token)
  | unexpected (token : Token)
  | invalidTarget (token : Token)
  | endOfInput (line : Int)
  | tooManyParameters (last : Token)
  | tooManyArguments (paren : Token)
  deriving DecidableEq, Inhabited, Repr

namespace Diagnostic

/-- The line that a diagnostic names. -/
def line : Diagnostic → Int
  | lexical token | unexpected token | invalidTarget token => token.line
  | endOfInput line => line
  | tooManyParameters token | tooManyArguments token => token.line

/-- The place in its line. -/
def location : Diagnostic → Text
  | lexical _ => []
  | unexpected token | invalidTarget token => (" at '" : Text) ++ token.text ++ "'"
  | endOfInput _ => " at end"
  | tooManyParameters token | tooManyArguments token => (" at '" : Text) ++ token.text ++ "'"

/-- What is wrong there. -/
def reason : Diagnostic → Text
  | lexical token => token.text
  | unexpected _ => "Unexpected token."
  | invalidTarget _ => "Invalid assignment target."
  | endOfInput _ => "Unexpected end of input."
  | tooManyParameters _ =>
    ("Can't have more than " : Text) ++ Text.ofNat maxArguments ++ " parameters."
  | tooManyArguments _ =>
    ("Can't have more than " : Text) ++ Text.ofNat maxArguments ++ " arguments."

/-- The text of a diagnostic. -/
def message (diagnostic : Diagnostic) : Text :=
  ("[line " : Text) ++ Text.ofInt diagnostic.line ++ "] Error" ++ diagnostic.location ++ ": " ++
    diagnostic.reason

end Diagnostic

end Lox
