import Lox.Literal

/-!
# Source trees

A source tree is a program as its grammar groups it: one constructor for each form, with the
tokens that name things, apply operators or end calls. Loops of the third kind keep their clauses
here; later stages see them only as blocks and plain loops.
-/

namespace Lox.Source

/-- An expression. -/
inductive Expr where
  | literal (value : Literal)
  | variable (name : Token)
  | grouping (inner : Expr)
  | call (callee : Expr) (arguments : List Expr) (paren : Token)
  | unary (operator : Token) (operand : Expr)
  | binary (left : Expr) (operator : Token) (right : Expr)
  | logical (left : Expr) (operator : Token) (right : Expr)
  | assign (name : Token) (value : Expr)
  deriving Inhabited, Repr

/-- What a loop with clauses does before its first round. -/
inductive LoopStart where
  | var (name : Token) (initializer : Option Expr)
  | expression (value : Expr)
  deriving Inhabited, Repr

/-- A statement or declaration. -/
inductive Stmt where
  | expression (value : Expr)
  | print (value : Expr)
  | var (name : Token) (initializer : Option Expr)
  | function (name : Token) (parameters : List Token) (body : List Stmt)
  | block (body : List Stmt)
  | ifThen (condition : Expr) (thenBranch : Stmt)
  | ifElse (condition : Expr) (thenBranch elseBranch : Stmt)
  | whileLoop (condition : Expr) (body : Stmt)
  | forLoop (start : Option LoopStart) (condition increment : Option Expr) (body : Stmt)
  deriving Inhabited, Repr

end Lox.Source
