import Lox.Json.Basic
import Lox.Node.Shape

/-!
# Program trees as JSON

A stored tree is an object for each node, with its type and its parts by name; tokens are kept
whole. A missing node is null and a list of nodes an array.

Only nodes and lists are stored. Of anything else the first is reported, with the name of its type.
-/

namespace Lox

/-- The stored form of a token. -/
def Token.toJson (token : Token) : Json :=
  .object [("kind", .text token.kind.name), ("lexeme", .text token.text),
    ("line", .integer token.line)]

/-- The stored form of a literal. -/
def Literal.toJson : Literal → Json
  | .nil => .null
  | .bool value => .bool value
  | .number value => .number value
  | .text value => .text value

namespace Node

/-- An object with a type and further fields. -/
def stored (type : String) (fields : List (Text × Json)) : Json :=
  .object (("type", .text type) :: fields)

mutual

/-- The stored form of a node. -/
def toJson : Node → Json
  | .null => .null
  | .list items => .array (toJsonList items)
  | .block statements => stored Shape.block.name [("statements", .array (toJsonList statements))]
  | .expression value => stored Shape.expression.name [("expression", value.toJson)]
  | .function name parameters body =>
    stored Shape.function.name
      [("name", name.toJson), ("params", .array (parameters.map Token.toJson)),
        ("body", .array (toJsonList body))]
  | .conditional condition thenBranch elseBranch =>
    stored Shape.conditional.name
      [("condition", condition.toJson), ("then_branch", thenBranch.toJson),
        ("else_branch", elseBranch.toJson)]
  | .print value => stored Shape.print.name [("expression", value.toJson)]
  | .var name initializer =>
    stored Shape.var.name [("name", name.toJson), ("initializer", initializer.toJson)]
  | .loop condition body =>
    stored Shape.loop.name [("condition", condition.toJson), ("body", body.toJson)]
  | .assign name value =>
    stored Shape.assign.name [("name", name.toJson), ("value", value.toJson)]
  | .binary left operator right =>
    stored Shape.binary.name
      [("left", left.toJson), ("operator", operator.toJson), ("right", right.toJson)]
  | .call callee paren arguments =>
    stored Shape.call.name
      [("callee", callee.toJson), ("paren", paren.toJson),
        ("arguments", .array (toJsonList arguments))]
  | .grouping inner => stored Shape.grouping.name [("expression", inner.toJson)]
  | .literal value => stored Shape.literal.name [("value", value.toJson)]
  | .logical left operator right =>
    stored Shape.logical.name
      [("left", left.toJson), ("operator", operator.toJson), ("right", right.toJson)]
  | .unary operator operand =>
    stored Shape.unary.name [("operator", operator.toJson), ("right", operand.toJson)]
  | .variable name => stored Shape.variable.name [("name", name.toJson)]

/-- The stored forms of some nodes. -/
def toJsonList : List Node → List Json
  | [] => []
  | first :: rest => first.toJson :: toJsonList rest

end

end Node

/-- What is neither a node nor a list, by its type. -/
inductive Unstored where
  | text | integer | number | bool | object | token
  deriving DecidableEq, Inhabited, Repr

namespace Unstored

/-- The name of a type in messages. -/
def name : Unstored → String
  | text => "str"
  | integer => "int"
  | number => "float"
  | bool => "bool"
  | object => "dict"
  | token => "Token"

/-- Why it is not stored. -/
def message (type : Unstored) : Text :=
  ("Unsupported node for serialization: " : Text) ++ type.name

end Unstored

/-- What may be given to be stored. -/
inductive Storable where
  | node (node : Node)
  | list (items : List Storable)
  | other (type : Unstored)
  deriving Inhabited, Repr

namespace Storable

mutual

/-- The stored form, if there is one. -/
def toJson : Storable → Except Unstored Json
  | .node tree => .ok tree.toJson
  | .list items => do .ok (.array (← toJsonList items))
  | .other type => .error type

/-- The stored forms of all items, if all of them have one. -/
def toJsonList : List Storable → Except Unstored (List Json)
  | [] => .ok []
  | first :: rest => do
    let stored ← first.toJson
    .ok (stored :: (← toJsonList rest))

end

/-- Nodes that are given one by one are stored as a list of nodes is. -/
theorem toJson_list_map_node (nodes : List Node) :
    (list (nodes.map node)).toJson = .ok (Node.list nodes).toJson := by
  have items : toJsonList (nodes.map node) = .ok (Node.toJsonList nodes) := by
    induction nodes with
    | nil => rfl
    | cons first rest ih =>
      rw [List.map_cons, toJsonList, toJson, ih, Node.toJsonList]
      rfl
  rw [toJson, items, Node.toJson]
  rfl

end Storable

/-- The stored form of a program. -/
def Program.toJson (program : Program) : Json :=
  Node.stored "Program" [("body", .array (Node.toJsonList program))]

end Lox
