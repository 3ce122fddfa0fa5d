import Lox.Node.Basic

/-!
# Values

A program computes nil, truth values, numbers, texts and functions. Values live in cells, which
never change but have an identity: nil and the truth values have one cell each, and every other
value gets a new one where it is computed. A function holds its declaration and nothing of the
scope it was declared in.
-/

namespace Lox

/-- The functions that no program declares: the clock, which every session knows, and those that a host
adds, by the order in which it does. -/
inductive Native where
  | clock
  | hosted (key : Nat)
  deriving DecidableEq, Inhabited, Repr

/-- The parts of a function declaration. -/
structure Declaration where
  name : Token
  parameters : List Token
  body : Program
  deriving Inhabited, Repr

/-- A value. -/
inductive Value where
  | nil
  | bool (value : Bool)
  | number (value : Number)
  | text (value : Text)
  | native (name : Text) (arity : Int) (operation : Native)
  | function (declaration : Declaration)
  deriving Inhabited, Repr

/-- The kinds of values. -/
inductive ValueKind where
  | nil | bool | number | text | native | function
  deriving DecidableEq, Inhabited, Repr

/-- The name of a kind in messages. -/
def ValueKind.name : ValueKind → String
  | nil => "NIL"
  | bool => "BOOL"
  | number => "NUMBER"
  | text => "STRING"
  | native => "BUILTIN_FUNCTION"
  | function => "FUNCTION"

namespace Value

/-- The kind of a value. -/
def kind : Value → ValueKind
  | nil => .nil
  | bool _ => .bool
  | number _ => .number
  | text _ => .text
  | native _ _ _ => .native
  | function _ => .function

/-- The value of a literal. -/
def ofLiteral : Literal → Value
  | .nil => nil
  | .bool value => bool value
  | .number value => number value
  | .text value => text value

/-- Whether a condition with this value holds: only nil and false do not. -/
def truthy : Value → Bool
  | nil => false
  | bool value => value
  | _ => true

/-- The number that a value counts as; a text counts its bytes, and functions have none. -/
def toNumber? : Value → Option Number
  | nil => some (Number.zero false)
  | bool value => some (if value then Number.ofQuotient false 1 1 else Number.zero false)
  | number value => some value
  | text value => some (Number.ofQuotient false value.byteLength 1)
  | native _ _ _ | function _ => none

/-- The text of a value as programs print it. -/
def shown : Value → Text
  | nil => "nil"
  | bool true => "true"
  | bool false => "false"
  | number value => value.text
  | text value => value
  | native _ _ _ => "<native fn>"
  | function declaration => ("<fn " : Text) ++ declaration.name.text ++ ">"

/-- The text of a value in traces, with its kind. -/
def described (value : Value) : Text :=
  ("LoxObject(" : Text) ++ value.kind.name ++ ", " ++ value.shown.quoted ++ ")"

/-- How a host shows what a function is made of. Other values are made of no function. -/
def payload? : Value → Option Text
  | native name _ _ => some (("<builtin " : Text) ++ name ++ ">")
  | function declaration => some (("<function " : Text) ++ declaration.name.text ++ ">")
  | _ => none

/-- Equality: values of one kind with the same content, and no function equals any value. -/
def equals : Value → Value → Bool
  | nil, nil => true
  | bool left, bool right => left = right
  | number left, number right => left.equals right
  | text left, text right => left = right
  | _, _ => false

/-- The number of arguments that a function asks for. -/
def arity? : Value → Option Int
  | native _ arity _ => some arity
  | function declaration => some declaration.parameters.length
  | _ => none

end Value

/-- A place that holds a value and is told apart from other places by its number. -/
structure Cell where
  id : Nat
  value : Value
  deriving Inhabited, Repr

/-- The cell of a value that has one of its own. -/
def Value.sharedCell? : Value → Option Cell
  | nil => some ⟨0, nil⟩
  | bool true => some ⟨1, bool true⟩
  | bool false => some ⟨2, bool false⟩
  | _ => none

/-- The number of the first cell that is not shared. -/
def firstFreshCell : Nat := 3

/-- The cell of nil. -/
def Cell.nil : Cell := ⟨0, .nil⟩

end Lox
