import Lox.Text.Quoted

/-!
# Tokens

A token is a kind, the bytes it was written with and the line on which it ends. Trouble in a
source text is a token too, whose bytes are the diagnostic, so that whoever reads the tokens
decides when it matters.
-/

namespace Lox

/-- The lexical categories. -/
inductive Kind where
  | leftParen | rightParen | leftBrace | rightBrace | comma | dot | minus | plus | semicolon
  | slash | star
  | bang | bangEqual | equal | equalEqual | greater | greaterEqual | less | lessEqual
  | identifier | string | number
  | andWord | classWord | elseWord | falseWord | forWord | funWord | ifWord | nilWord | orWord
  | printWord | returnWord | superWord | thisWord | trueWord | varWord | whileWord
  | error | endOfFile
  deriving DecidableEq, Inhabited, Repr

namespace Kind

/-- The name under which a kind is stored and shown. -/
def name : Kind → String
  | leftParen => "LEFT_PAREN"
  | rightParen => "RIGHT_PAREN"
  | leftBrace => "LEFT_BRACE"
  | rightBrace => "RIGHT_BRACE"
  | comma => "COMMA"
  | dot => "DOT"
  | minus => "MINUS"
  | plus => "PLUS"
  | semicolon => "SEMICOLON"
  | slash => "SLASH"
  | star => "STAR"
  | bang => "BANG"
  | bangEqual => "BANG_EQUAL"
  | equal => "EQUAL"
  | equalEqual => "EQUAL_EQUAL"
  | greater => "GREATER"
  | greaterEqual => "GREATER_EQUAL"
  | less => "LESS"
  | lessEqual => "LESS_EQUAL"
  | identifier => "IDENTIFIER"
  | string => "STRING"
  | number => "NUMBER"
  | andWord => "AND"
  | classWord => "CLASS"
  | elseWord => "ELSE"
  | falseWord => "FALSE"
  | forWord => "FOR"
  | funWord => "FUN"
  | ifWord => "IF"
  | nilWord => "NIL"
  | orWord => "OR"
  | printWord => "PRINT"
  | returnWord => "RETURN"
  | superWord => "SUPER"
  | thisWord => "THIS"
  | trueWord => "TRUE"
  | varWord => "VAR"
  | whileWord => "WHILE"
  | error => "ERROR"
  | endOfFile => "EOF"

/-- Every kind once. -/
def all : List Kind :=
  [leftParen, rightParen, leftBrace, rightBrace, comma, dot, minus, plus, semicolon, slash, star,
    bang, bangEqual, equal, equalEqual, greater, greaterEqual, less, lessEqual, identifier,
    string, number, andWord, classWord, elseWord, falseWord, forWord, funWord, ifWord, nilWord,
    orWord, printWord, returnWord, superWord, thisWord, trueWord, varWord, whileWord, error,
    endOfFile]

/-- The kind with a name. -/
def ofName? (name : Text) : Option Kind :=
  all.find? fun kind => (kind.name : Text) = name

/-- The words that are no identifiers. -/
def keywords : List (List Char × Kind) :=
  [(['a', 'n', 'd'], andWord),
    (['c', 'l', 'a', 's', 's'], classWord),
    (['e', 'l', 's', 'e'], elseWord),
    (['f', 'a', 'l', 's', 'e'], falseWord),
    (['f', 'o', 'r'], forWord),
    (['f', 'u', 'n'], funWord),
    (['i', 'f'], ifWord),
    (['n', 'i', 'l'], nilWord),
    (['o', 'r'], orWord),
    (['p', 'r', 'i', 'n', 't'], printWord),
    (['r', 'e', 't', 'u', 'r', 'n'], returnWord),
    (['s', 'u', 'p', 'e', 'r'], superWord),
    (['t', 'h', 'i', 's'], thisWord),
    (['t', 'r', 'u', 'e'], trueWord),
    (['v', 'a', 'r'], varWord),
    (['w', 'h', 'i', 'l', 'e'], whileWord)]

/-- The kind of a word. -/
def ofWord (word : List UInt8) : Kind :=
  (keywords.findSome? fun (spelling, kind) =>
    if spelling.map Char.toUInt8 = word then some kind else none).getD identifier

end Kind

/-- A lexeme with its kind and the line on which it ends. -/
structure Token where
  kind : Kind
  lexeme : List UInt8
  line : Int
  deriving DecidableEq, Inhabited, Repr

namespace Token

/-- The lexeme as text, for names and messages. -/
def text (token : Token) : Text :=
  Text.decode token.lexeme

/-- A token as messages about it show it. -/
def shown (token : Token) : Text :=
  (token.kind.name : Text) ++ " " ++ token.text.quoted ++ " (line " ++ Text.ofInt token.line ++ ")"

end Token

end Lox
