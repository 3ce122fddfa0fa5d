import Lox.Literal

/-!
# Program trees

What runs is a tree of nodes. A tree may come from a source or from a file, and a file can put
any node, a list of nodes or nothing where an expression or statement belongs, so there is one
type for all of them; running a node in a place where it means nothing is a defect of its own.
-/

namespace Lox

/-- A node of a program tree. Missing parts are `null`. -/
inductive Node where
  | null
  | list (items : List Node)
  | block (statements : List Node)
  | expression (value : Node)
  | function (name : Token) (parameters : List Token) (body : List Node)
  | conditional (condition thenBranch elseBranch : Node)
  | print (value : Node)
  | var (name : Token) (initializer : Node)
  | loop (condition body : Node)
  | assign (name : Token) (value : Node)
  | binary (left : Node) (operator : Token) (right : Node)
  | call (callee : Node) (paren : Token) (arguments : List Node)
  | grouping (inner : Node)
  | literal (value : Literal)
  | logical (left : Node) (operator : Token) (right : Node)
  | unary (operator : Token) (operand : Node)
  | variable (name : Token)
  deriving Inhabited, Repr

/-- A program is a list of statements. -/
abbrev Program := List Node

end Lox
