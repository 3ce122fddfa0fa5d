import Lox.Node.Shape
import Lox.Text.Strict
import Lox.Value.Basic

/-!
# Faults

A run that does not end normally ends in a fault. A runtime error is the program's own mistake
and names a line. A defect is a tree that no source could have produced, a text in it that cannot
be written to the trace, or a host function that was used in a way only hosts can use it.
-/

namespace Lox

/-- What a program did wrong. -/
inductive Cause where
  | undefinedVariable (name : Text)
  | operandNotNumber
  | operandsNotNumbers
  | operandsNotAddable
  | notCallable
  | arityMismatch (expected : Int) (given : Nat)
  | stackOverflow
  | hostFailure (text : Text)
  deriving DecidableEq, Inhabited, Repr

/-- The text of a cause. -/
def Cause.message : Cause → Text
  | undefinedVariable name => ("Undefined variable '" : Text) ++ name ++ "'."
  | operandNotNumber => "Operand must be a number."
  | operandsNotNumbers => "Operands must be numbers."
  | operandsNotAddable => "Operands must be two numbers or two strings."
  | notCallable => "Can only call functions."
  | arityMismatch expected given =>
    ("Expected " : Text) ++ Text.ofInt expected ++ " arguments but got " ++ Text.ofNat given ++ "."
  | stackOverflow => "Stack overflow."
  | hostFailure text => text

/-- A cause and the line it is reported for, which is 0 where there is none. -/
structure RuntimeError where
  cause : Cause
  line : Int
  deriving DecidableEq, Inhabited, Repr

/-- The text of a runtime error. -/
def RuntimeError.message (error : RuntimeError) : Text :=
  ("line " : Text) ++ Text.ofInt error.line ++ ": " ++ error.cause.message

/-- What was wrong with a tree, a text in it or a host's use of a function. -/
inductive Defect where
  | unsupportedUnary (operator : Token)
  | unknownOperator (operator : Token)
  | notStatement (form : Form)
  | notExpression (form : Form)
  | noNumber (kind : ValueKind)
  | noCall (kind : ValueKind)
  | missingArgument
  | integerTooLarge
  | storage (error : StorageError)
  deriving DecidableEq, Inhabited, Repr

/-- The name of a form in messages. -/
def Form.shown : Form → Text
  | missing => "<class 'NoneType'>"
  | list => "<class 'list'>"
  | node shape => ("<class 'treelox.ast." : Text) ++ shape.name ++ "'>"

/-- The text of a defect. -/
def Defect.message : Defect → Text
  | unsupportedUnary operator => ("unsupported unary operator " : Text) ++ operator.shown
  | unknownOperator operator => ("unknown operator " : Text) ++ operator.shown
  | notStatement form => ("execute: unexpected node type " : Text) ++ form.shown
  | notExpression form => ("evaluate: unexpected node type " : Text) ++ form.shown
  | noNumber kind => (kind.name : Text) ++ " has no numeric value"
  | noCall kind => (kind.name : Text) ++ " is not callable"
  | missingArgument => "list index out of range"
  | integerTooLarge => "int too large to convert to float"
  | storage error => error.message

/-- How a run fails. -/
inductive Fault where
  | runtime (error : RuntimeError)
  | defect (defect : Defect)
  deriving DecidableEq, Inhabited, Repr

/-- The text of a fault. -/
def Fault.message : Fault → Text
  | runtime error => error.message
  | defect found => found.message

end Lox
