import Lox.Node.Basic
import Lox.Source.Tree

/-!
# From source trees to program trees

All forms but one have a node of their own. A loop with clauses becomes a loop inside a block: the
block holds the first clause, and the loop's body is a block of the body and the last clause.
Clauses that are absent add no block, and an absent condition always holds.
-/

namespace Lox.Source

mutual

/-- The node of an expression. -/
def Expr.node : Expr → Node
  | .literal value => .literal value
  | .variable name => .variable name
  | .grouping inner => .grouping inner.node
  | .call callee arguments paren => .call callee.node paren (Expr.nodes arguments)
  | .unary operator operand => .unary operator operand.node
  | .binary left operator right => .binary left.node operator right.node
  | .logical left operator right => .logical left.node operator right.node
  | .assign name value => .assign name value.node

/-- The nodes of some expressions. -/
def Expr.nodes : List Expr → List Node
  | [] => []
  | first :: rest => first.node :: Expr.nodes rest

end

/-- The node of an optional expression. -/
def Expr.optionalNode (value : Option Expr) : Node :=
  (value.map Expr.node).getD .null

/-- The statement of the first clause of a loop. -/
def LoopStart.node : LoopStart → Node
  | .var name initializer => .var name (Expr.optionalNode initializer)
  | .expression value => .expression value.node

/-- The nodes that a loop with clauses stands for. -/
def loopNode (start : Option LoopStart) (condition increment : Option Expr) (body : Node) : Node :=
  let round :=
    match increment with
    | none => body
    | some value => .block [body, .expression value.node]
  let loop := Node.loop ((condition.map Expr.node).getD (.literal (.bool true))) round
  match start with
  | none => loop
  | some first => .block [first.node, loop]

mutual

/-- The node of a statement. -/
def Stmt.node : Stmt → Node
  | .expression value => .expression value.node
  | .print value => .print value.node
  | .var name initializer => .var name (Expr.optionalNode initializer)
  | .function name parameters body => .function name parameters (Stmt.nodes body)
  | .block body => .block (Stmt.nodes body)
  | .ifThen condition thenBranch => .conditional condition.node thenBranch.node .null
  | .ifElse condition thenBranch elseBranch =>
    .conditional condition.node thenBranch.node elseBranch.node
  | .whileLoop condition body => .loop condition.node body.node
  | .forLoop start condition increment body => loopNode start condition increment body.node

/-- The nodes of some statements. -/
def Stmt.nodes : List Stmt → Program
  | [] => []
  | first :: rest => first.node :: Stmt.nodes rest

end

end Lox.Source
