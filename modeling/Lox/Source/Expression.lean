import Lox.Source.Parse
import Lox.Source.Tree

/-!
# Expressions

Binary operators come in six levels, each of which groups to the left and holds operands of the
next tighter level. Inside those stand prefix operators and calls. An assignment is the loosest
form: its target is a bare name, and it groups to the right.
-/

namespace Lox.Source

/-- A level of binary operators. -/
inductive Level where
  | disjunction | conjunction | equality | comparison | sum | product
  deriving DecidableEq, Inhabited, Repr

namespace Level

/-- The operators of a level. -/
def operators : Level → List Kind
  | disjunction => [.orWord]
  | conjunction => [.andWord]
  | equality => [.bangEqual, .equalEqual]
  | comparison => [.greater, .greaterEqual, .less, .lessEqual]
  | sum => [.minus, .plus]
  | product => [.slash, .star]

/-- The levels from the loosest to the tightest. -/
def all : List Level :=
  [disjunction, conjunction, equality, comparison, sum, product]

/-- The tree of an operator between two operands. -/
def join : Level → Expr → Token → Expr → Expr
  | disjunction | conjunction => .logical
  | equality | comparison | sum | product => .binary

end Level

open Parse

/-- What follows the first operand of a level. -/
def chainRest (level : Level) (operand : Parse Expr) : (fuel : Nat) → Expr → Parse Expr
  | 0, left => pure left
  | fuel + 1, left => do
    match ← accept level.operators with
    | none => pure left
    | some operator => do
      let right ← operand
      chainRest level operand fuel (level.join left operator right)

/-- Operands of a tighter kind with the operators of a level between them. -/
def chain (fuel : Nat) (level : Level) (operand : Parse Expr) : Parse Expr := do
  let left ← operand
  chainRest level operand fuel left

/-- A literal, a name or an expression in parentheses. -/
def primary (nested : Parse Expr) : Parse Expr
  | [] => .error ⟨false, []⟩
  | token :: rest =>
    match Literal.ofToken? token with
    | some value => .ok (.literal value, rest)
    | none =>
      if token.kind = .identifier then .ok (.variable token, rest)
      else if token.kind = .leftParen then
        StateT.run (do
          let inner ← nested
          let _ ← expect .rightParen
          pure (.grouping inner)) rest
      else .error ⟨false, token :: rest⟩

/-- The calls that follow a callee. -/
def callsRest (nested : Parse Expr) : (fuel : Nat) → Expr → Parse Expr
  | 0, callee => pure callee
  | fuel + 1, callee => do
    match ← accept [.leftParen] with
    | none => pure callee
    | some _ => do
      let arguments ← optionalBefore .rightParen (separated nested fuel)
      let paren ← expect .rightParen
      callsRest nested fuel (.call callee (arguments.getD []) paren)

/-- A primary expression and the calls that follow it. -/
def calls (fuel : Nat) (nested : Parse Expr) : Parse Expr := do
  let callee ← primary nested
  callsRest nested fuel callee

/-- The operators that stand before their operand. -/
def prefixOperators : List Kind :=
  [.bang, .minus]

/-- Prefix operators and their operand. -/
def unary (fuel : Nat) (nested : Parse Expr) : Parse Expr := do
  let operators ← acceptAll prefixOperators
  let operand ← calls fuel nested
  pure (operators.foldr Expr.unary operand)

/-- An expression that is no assignment. -/
def operation (fuel : Nat) (nested : Parse Expr) : Parse Expr :=
  Level.all.foldr (chain fuel) (unary fuel nested)

/-- An expression in which those in parentheses, arguments and assigned values are read by the
given reader. -/
def assignment (fuel : Nat) (nested : Parse Expr) : Parse Expr := do
  let target ← operation fuel nested
  if (← peek) = some .equal then
    match target with
    | .variable name => do
      let _ ← expect .equal
      let value ← nested
      pure (.assign name value)
    | _ => failTarget
  else pure target

/-- An expression. -/
def expression : (fuel : Nat) → Parse Expr
  | 0 => fail
  | fuel + 1 => assignment fuel (expression fuel)

end Lox.Source
