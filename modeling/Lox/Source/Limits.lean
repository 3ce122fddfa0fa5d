import Lox.Source.Diagnostic
import Lox.Source.Tree

/-!
# Limits

A call has at most 255 arguments and a function at most 255 parameters. The search for an excess
goes through a source tree from left to right, and through the parts of a call before the call
itself, so that of several excesses the one completed first is reported.
-/

namespace Lox.Source

mutual

/-- The first call in an expression with too many arguments. -/
def Expr.excess? : Expr → Option Diagnostic
  | .literal _ | .variable _ => none
  | .grouping inner => inner.excess?
  | .call callee arguments paren =>
    callee.excess? <|> Expr.excessOfList? arguments <|>
      if maxArguments < arguments.length then some (.tooManyArguments paren) else none
  | .unary _ operand => operand.excess?
  | .binary left _ right | .logical left _ right => left.excess? <|> right.excess?
  | .assign _ value => value.excess?

/-- The first call with too many arguments in some expressions. -/
def Expr.excessOfList? : List Expr → Option Diagnostic
  | [] => none
  | first :: rest => first.excess? <|> Expr.excessOfList? rest

end

/-- The first call with too many arguments in an optional expression. -/
def Expr.excessOfOption? (value : Option Expr) : Option Diagnostic :=
  value.bind Expr.excess?

/-- The first call with too many arguments in the first clause of a loop. -/
def LoopStart.excess? : LoopStart → Option Diagnostic
  | .var _ initializer => Expr.excessOfOption? initializer
  | .expression value => value.excess?

/-- The excess of a parameter list. -/
def parameterExcess? (parameters : List Token) : Option Diagnostic :=
  if maxArguments < parameters.length then parameters.getLast?.map .tooManyParameters else none

mutual

/-- The first excess in a statement. -/
def Stmt.excess? : Stmt → Option Diagnostic
  | .expression value | .print value => value.excess?
  | .var _ initializer => Expr.excessOfOption? initializer
  | .function _ parameters body => parameterExcess? parameters <|> Stmt.excessOfList? body
  | .block body => Stmt.excessOfList? body
  | .ifThen condition thenBranch => condition.excess? <|> thenBranch.excess?
  | .ifElse condition thenBranch elseBranch =>
    condition.excess? <|> thenBranch.excess? <|> elseBranch.excess?
  | .whileLoop condition body => condition.excess? <|> body.excess?
  | .forLoop start condition increment body =>
    start.bind LoopStart.excess? <|> Expr.excessOfOption? condition <|>
      Expr.excessOfOption? increment <|> body.excess?

/-- The first excess in a list of statements. -/
def Stmt.excessOfList? : List Stmt → Option Diagnostic
  | [] => none
  | first :: rest => first.excess? <|> Stmt.excessOfList? rest

end

end Lox.Source
