import Lox.Node.Basic

/-!
# Shapes of nodes

The fifteen kinds of node that a program tree is made of, with the names under which they are
stored. A missing node and a list of nodes have no shape.
-/

namespace Lox

/-- The kind of a node. -/
inductive Shape where
  | block | expression | function | conditional | print | var | loop
  | assign | binary | call | grouping | literal | logical | unary | variable
  deriving DecidableEq, Inhabited, Repr

namespace Shape

/-- The name of a shape. -/
def name : Shape → String
  | block => "Block"
  | expression => "Expression"
  | function => "Function"
  | conditional => "If"
  | print => "Print"
  | var => "Var"
  | loop => "While"
  | assign => "Assign"
  | binary => "Binary"
  | call => "Call"
  | grouping => "Grouping"
  | literal => "Literal"
  | logical => "Logical"
  | unary => "Unary"
  | .variable => "Variable"

/-- Every shape once. -/
def all : List Shape :=
  [block, expression, function, conditional, print, var, loop, assign, binary, call, grouping,
    literal, logical, unary, .variable]

/-- The shape with a name. -/
def ofName? (name : Text) : Option Shape :=
  all.find? fun shape => (shape.name : Text) = name

end Shape

/-- What stands in a place for a node: nothing, a list of nodes, or a node of some shape. -/
inductive Form where
  | missing
  | list
  | node (shape : Shape)
  deriving DecidableEq, Inhabited, Repr

/-- The form of a node. -/
def Node.form : Node → Form
  | .null => .missing
  | .list _ => .list
  | .block _ => .node .block
  | .expression _ => .node .expression
  | .function _ _ _ => .node .function
  | .conditional _ _ _ => .node .conditional
  | .print _ => .node .print
  | .var _ _ => .node .var
  | .loop _ _ => .node .loop
  | .assign _ _ => .node .assign
  | .binary _ _ _ => .node .binary
  | .call _ _ _ => .node .call
  | .grouping _ => .node .grouping
  | .literal _ => .node .literal
  | .logical _ _ _ => .node .logical
  | .unary _ _ => .node .unary
  | .variable _ => .node .variable

end Lox
