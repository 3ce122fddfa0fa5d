import Lox.Execution.Exec

/-!
# Operations on values

What operators and host functions do once their operands are computed. Arithmetic asks for
numbers, addition also joins texts, and comparison for equality takes any values. A host function
does one thing after another with the cells that it knows.
-/

namespace Lox

/-- A prefix operator applied to a value. -/
def applyUnary (operator : Token) (operand : Value) : Exec Cell :=
  match operator.kind with
  | .bang => Exec.newCell (.bool !operand.truthy)
  | .minus =>
    match operand with
    | .number value => Exec.newCell (.number (-value))
    | _ => Exec.failAt operator.line .operandNotNumber
  | _ => Exec.failDefect (.unsupportedUnary operator)

/-- The value of an operator between two numbers. -/
def arithmetic? : Kind → Number → Number → Option Value
  | .minus, left, right => some (.number (left - right))
  | .star, left, right => some (.number (left * right))
  | .slash, left, right => some (.number (left / right))
  | .greater, left, right => some (.bool (right.less left))
  | .greaterEqual, left, right => some (.bool (right.lessOrEqual left))
  | .less, left, right => some (.bool (left.less right))
  | .lessEqual, left, right => some (.bool (left.lessOrEqual right))
  | _, _, _ => none

/-- The sum of two numbers or the joint text of two texts. -/
def addition? : Value → Value → Option Value
  | .number left, .number right => some (.number (left + right))
  | .text left, .text right => some (.text (left ++ right))
  | _, _ => none

/-- An operator applied to two values. -/
def applyBinary (operator : Token) (left right : Value) : Exec Cell :=
  match operator.kind with
  | .equalEqual => Exec.newCell (.bool (left.equals right))
  | .bangEqual => Exec.newCell (.bool !left.equals right)
  | .plus =>
    match addition? left right with
    | some value => Exec.newCell value
    | none => Exec.failAt operator.line .operandsNotAddable
  | kind =>
    match left, right with
    | .number left, .number right =>
      match arithmetic? kind left right with
      | some value => Exec.newCell value
      | none => Exec.failDefect (.unknownOperator operator)
    | _, _ => Exec.failAt operator.line .operandsNotNumbers

/-- The bindings of parameters to arguments. Of two parameters with one name the later counts,
and arguments left over are ignored. -/
def bindParameters : List Token → List Cell → Bindings → Option Bindings
  | [], _, bound => some bound
  | _ :: _, [], _ => none
  | parameter :: parameters, argument :: arguments, bound =>
    bindParameters parameters arguments (bound.put parameter.text argument)

/-- The argument at a place. -/
def argument (arguments : List Cell) (index : Nat) : Exec Cell :=
  match arguments[index]? with
  | some cell => pure cell
  | none => Exec.failDefect .missingArgument

/-- The function that the host has added under a key. -/
def Context.hostFunction (context : Context) (key : Nat) : HostFunction :=
  context.host[key]?.getD .absent

/-- The cells at some places, if all of them are there. -/
def cellsAt? (known : List Cell) (places : List Nat) : Option (List Cell) :=
  places.mapM (known[·]?)

/-- Does what a host function does next with the cells it knows. Functions are called back as given. -/
def HostAction.run (invoke : Cell → List Cell → Exec Cell) : HostAction → List Cell → Exec Cell
  | answer place, known => argument known place
  | fail error, _ => Exec.fail error.fault
  | create literal next, known => do
    let cell ← Exec.newCell (Value.ofLiteral literal)
    next.run invoke (known ++ [cell])
  | print line next, known => do
    Exec.write line
    next.run invoke known
  | call callee arguments next, known =>
    match cellsAt? known (callee :: arguments) with
    | some (callee :: arguments) => do
      let cell ← invoke callee arguments
      (next (HostView.of (known ++ [cell]))).run invoke (known ++ [cell])
    | _ => Exec.failDefect .missingArgument

/-- Calls a host function with arguments. -/
def HostFunction.run (function : HostFunction) (invoke : Cell → List Cell → Exec Cell)
    (arguments : List Cell) : Exec Cell :=
  (function (HostView.of arguments)).run invoke arguments

end Lox
