import Lox.Node.Stored
import Lox.Proofs.Json.Characters
import Lox.Proofs.Json.RoundTrip
import Mathlib.Tactic.Tauto

/-!
# Tokens and strings of program trees

A tree keeps the tokens that name things, apply operators or end calls. All integers of a stored
tree are the lines of these tokens, because literals are stored as doubles, and all of its strings
are names of the format, texts of these tokens, or string literals of the program.
-/

namespace Lox

namespace Node

mutual

/-- The tokens that a node keeps, in the order in which they are stored. -/
def tokens : Node → List Token
  | .null | .literal _ => []
  | .list items => tokensOfList items
  | .block statements => tokensOfList statements
  | .expression value | .print value | .grouping value => value.tokens
  | .function name parameters body => name :: parameters ++ tokensOfList body
  | .conditional condition thenBranch elseBranch =>
    condition.tokens ++ thenBranch.tokens ++ elseBranch.tokens
  | .var name value | .assign name value => name :: value.tokens
  | .loop condition body => condition.tokens ++ body.tokens
  | .binary left operator right | .logical left operator right =>
    left.tokens ++ operator :: right.tokens
  | .call callee paren arguments => callee.tokens ++ paren :: tokensOfList arguments
  | .unary operator operand => operator :: operand.tokens
  | .variable name => [name]

/-- The tokens that some nodes keep. -/
def tokensOfList : List Node → List Token
  | [] => []
  | first :: rest => first.tokens ++ tokensOfList rest

end

mutual

/-- The string literals of a node, in the order in which they are stored. -/
def strings : Node → List Text
  | .literal (.text value) => [value]
  | .null | .literal _ | .variable _ => []
  | .list items => stringsOfList items
  | .block statements => stringsOfList statements
  | .expression value | .print value | .grouping value => value.strings
  | .function _ _ body => stringsOfList body
  | .conditional condition thenBranch elseBranch =>
    condition.strings ++ thenBranch.strings ++ elseBranch.strings
  | .var _ value | .assign _ value => value.strings
  | .loop condition body => condition.strings ++ body.strings
  | .binary left _ right | .logical left _ right => left.strings ++ right.strings
  | .call callee _ arguments => callee.strings ++ stringsOfList arguments
  | .unary _ operand => operand.strings

/-- The string literals of some nodes. -/
def stringsOfList : List Node → List Text
  | [] => []
  | first :: rest => first.strings ++ stringsOfList rest

end

end Node

/-- The only integer of a stored token is its line. -/
theorem Token.integers_toJson (token : Token) : token.toJson.integers = [token.line] :=
  rfl

/-- The integers of stored tokens are their lines. -/
theorem Token.integersOfItems_toJson (tokens : List Token) :
    Json.integersOfItems (tokens.map Token.toJson) = tokens.map Token.line := by
  induction tokens with
  | nil => rfl
  | cons token tokens ih =>
    rw [List.map_cons, Json.integersOfItems, integers_toJson, ih]
    rfl

/-- A stored literal has no integers. -/
theorem Literal.integers_toJson (literal : Literal) : literal.toJson.integers = [] := by
  cases literal <;> rfl

namespace Node

section

attribute [local simp] toJson tokens stored Json.integers Json.integersOfFields
  Json.integersOfItems Token.integers_toJson Token.integersOfItems_toJson
  Literal.integers_toJson toJsonList tokensOfList

mutual

/-- The integers of a stored node are the lines of its tokens. -/
theorem integers_toJson : (node : Node) → node.toJson.integers = node.tokens.map Token.line
  | .null => rfl
  | .list items => by simp [integersOfItems_toJsonList items]
  | .block statements => by simp [integersOfItems_toJsonList statements]
  | .expression value => by simp [integers_toJson value]
  | .function name parameters body => by simp [integersOfItems_toJsonList body]
  | .conditional condition thenBranch elseBranch => by
    simp [integers_toJson condition, integers_toJson thenBranch, integers_toJson elseBranch]
  | .print value => by simp [integers_toJson value]
  | .var name initializer => by simp [integers_toJson initializer]
  | .loop condition body => by simp [integers_toJson condition, integers_toJson body]
  | .assign name value => by simp [integers_toJson value]
  | .binary left operator right => by simp [integers_toJson left, integers_toJson right]
  | .call callee paren arguments => by
    simp [integers_toJson callee, integersOfItems_toJsonList arguments]
  | .grouping inner => by simp [integers_toJson inner]
  | .literal value => by simp
  | .logical left operator right => by simp [integers_toJson left, integers_toJson right]
  | .unary operator operand => by simp [integers_toJson operand]
  | .variable name => by simp

/-- The integers of stored nodes are the lines of their tokens. -/
theorem integersOfItems_toJsonList : (nodes : List Node) →
    Json.integersOfItems (toJsonList nodes) = (tokensOfList nodes).map Token.line
  | [] => rfl
  | first :: rest => by simp [integers_toJson first, integersOfItems_toJsonList rest]

end

end

end Node

/-- The integers of a stored program are the lines of its tokens. -/
theorem Program.integers_toJson (program : Program) :
    program.toJson.integers = (Node.tokensOfList program).map Token.line := by
  simp [Program.toJson, Node.stored, Json.integers, Json.integersOfFields,
    Node.integersOfItems_toJsonList]

/-- A stored token holds only characters where its text does. -/
theorem Token.allOnlyChars_toJson (token : Token) :
    AllOnlyChars token.toJson.texts ↔ token.text.OnlyChars := by
  simp [toJson, Json.texts, Json.textsOfFields]

/-- Stored tokens hold only characters where their texts do. -/
theorem Token.allOnlyChars_toJson_list (tokens : List Token) :
    AllOnlyChars (Json.textsOfItems (tokens.map Token.toJson)) ↔
      AllOnlyChars (tokens.map Token.text) := by
  induction tokens with
  | nil => simp [Json.textsOfItems]
  | cons token tokens ih => simp [Json.textsOfItems, allOnlyChars_toJson, ih]

namespace Node

section

attribute [local simp] toJson tokens strings stored Json.texts Json.textsOfFields
  Json.textsOfItems Token.allOnlyChars_toJson Token.allOnlyChars_toJson_list
  toJsonList tokensOfList stringsOfList

mutual

/-- A stored node holds only characters where its string literals and the texts of its tokens do. -/
theorem allOnlyChars_toJson : (node : Node) →
    (AllOnlyChars node.toJson.texts ↔
      AllOnlyChars (node.tokens.map Token.text) ∧ AllOnlyChars node.strings)
  | .null => by simp
  | .list items => by simp [allOnlyChars_toJsonList items]
  | .block statements => by simp [allOnlyChars_toJsonList statements]
  | .expression value => by simp [allOnlyChars_toJson value]
  | .function name parameters body => by simp [allOnlyChars_toJsonList body, and_assoc]
  | .conditional condition thenBranch elseBranch => by
    simp [allOnlyChars_toJson condition, allOnlyChars_toJson thenBranch,
      allOnlyChars_toJson elseBranch]
    tauto
  | .print value => by simp [allOnlyChars_toJson value]
  | .var name initializer => by simp [allOnlyChars_toJson initializer, and_assoc]
  | .loop condition body => by
    simp [allOnlyChars_toJson condition, allOnlyChars_toJson body]
    tauto
  | .assign name value => by simp [allOnlyChars_toJson value, and_assoc]
  | .binary left operator right => by
    simp [allOnlyChars_toJson left, allOnlyChars_toJson right]
    tauto
  | .call callee paren arguments => by
    simp [allOnlyChars_toJson callee, allOnlyChars_toJsonList arguments]
    tauto
  | .grouping inner => by simp [allOnlyChars_toJson inner]
  | .literal value => by cases value <;> simp [Literal.toJson]
  | .logical left operator right => by
    simp [allOnlyChars_toJson left, allOnlyChars_toJson right]
    tauto
  | .unary operator operand => by simp [allOnlyChars_toJson operand, and_assoc]
  | .variable name => by simp

/-- Stored nodes hold only characters where their string literals and tokens do. -/
theorem allOnlyChars_toJsonList : (nodes : List Node) →
    (AllOnlyChars (Json.textsOfItems (toJsonList nodes)) ↔
      AllOnlyChars ((tokensOfList nodes).map Token.text) ∧ AllOnlyChars (stringsOfList nodes))
  | [] => by simp
  | first :: rest => by
    simp [allOnlyChars_toJson first, allOnlyChars_toJsonList rest]
    tauto

end

end

end Node

/-- A stored program holds only characters where its string literals and tokens do. -/
theorem Program.allOnlyChars_toJson (program : Program) :
    AllOnlyChars program.toJson.texts ↔
      AllOnlyChars ((Node.tokensOfList program).map Token.text) ∧
        AllOnlyChars (Node.stringsOfList program) := by
  simp [Program.toJson, Node.stored, Json.texts, Json.textsOfFields, Node.allOnlyChars_toJsonList]

end Lox
