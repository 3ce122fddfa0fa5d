import Lox.Node.Stored
import Lox.Text.Strict

/-!
# Loading stored trees

Loading reads the parts of a node in a fixed order, each completely before the next, and stops at
the first defect. Parts that a type of node does not have are ignored, and so is the order of the
fields. Only the alternative of a conditional and the initializer of a variable may be missing.
-/

namespace Lox

/-- Why a JSON value is no program tree. -/
inductive LoadError where
  | missing (field : String)
  | unknownKind (name : Text)
  | unknownType (shown : Text)
  | notProgram
  | notObject
  | notRooted
  | integerTooLarge
  | bytes (error : StorageError)
  | malformed
  deriving DecidableEq, Repr

/-- The text of a load error. -/
def LoadError.message : LoadError → Text
  | missing field => field
  | unknownKind name => name
  | unknownType shown => ("Unknown AST node type: " : Text) ++ shown
  | notProgram => "Invalid AST object: expected a Program"
  | notObject => "Invalid AST object"
  | notRooted => "The tree is no object"
  | integerTooLarge => "An integer is too large for a number"
  | bytes error => error.message
  | malformed => "A part has the wrong form"

/-- A field that has to be there. -/
def Json.require (name : String) (object : Json) : Except LoadError Json :=
  match object.field? name with
  | some value => .ok value
  | none => .error (.missing name)

/-- The kind that a stored name stands for. -/
def Kind.load : Json → Except LoadError Kind
  | .text name =>
    match Kind.ofName? name with
    | some kind => .ok kind
    | none => .error (.unknownKind name)
  | _ => .error .malformed

/-- The bytes that a stored lexeme stands for. -/
def Json.lexemeBytes : Json → Except LoadError (List UInt8)
  | .text lexeme =>
    match lexeme.byteError? with
    | some error => .error (.bytes error)
    | none => .ok lexeme.encode
  | _ => .error .malformed

/-- The token that an object stores. -/
def Token.load (object : Json) : Except LoadError Token := do
  let kind ← Kind.load (← object.require "kind")
  let lexeme ← (← object.require "lexeme").lexemeBytes
  match ← object.require "line" with
  | .integer line => .ok ⟨kind, lexeme, line⟩
  | _ => .error .malformed

/-- The tokens that an array stores. -/
def Token.loadList : Json → Except LoadError (List Token)
  | .array items => items.mapM Token.load
  | _ => .error .malformed

/-- The literal that a JSON value stores. All numbers are doubles, integers included. -/
def Literal.load : Json → Except LoadError Literal
  | .null => .ok .nil
  | .bool value => .ok (.bool value)
  | .integer value =>
    match Number.ofInt? value with
    | some double => .ok (.number double)
    | none => .error .integerTooLarge
  | .number value => .ok (.number value)
  | .text value => .ok (.text value)
  | .array _ | .object _ => .error .malformed

/-- A number as the message about an unknown type shows it. -/
def Number.shownType : Number → Text
  | .nan => "nan"
  | .infinite negative => Number.signed negative ['i', 'n', 'f']
  | number => number.storedText

/-- An unknown type as the message about it shows it. -/
def Json.shownType : Option Json → Text
  | none | some .null => "None"
  | some (.bool true) => "True"
  | some (.bool false) => "False"
  | some (.integer value) => Text.ofInt value
  | some (.number value) => value.shownType
  | some (.text value) => value
  | some (.array _) | some (.object _) => []

/-- The shape that the type of an object names. -/
def Shape.load (object : Json) : Except LoadError Shape :=
  let type := object.field? "type"
  let named :=
    match type with
    | some (.text name) => Shape.ofName? name
    | _ => none
  match named with
  | some shape => .ok shape
  | none => .error (.unknownType (Json.shownType type))

/-- The fields of an object, each loaded as a node whether or not its object needs one there. -/
abbrev LoadedFields := List (Text × Except LoadError Node)

namespace LoadedFields

/-- A node that may be missing. -/
def optional (fields : LoadedFields) (name : String) : Except LoadError Node :=
  (fields.reverse.lookup (name : Text)).getD (.ok .null)

/-- A node that has to be there. -/
def required (fields : LoadedFields) (name : String) : Except LoadError Node :=
  (fields.reverse.lookup (name : Text)).getD (.error (.missing name))

/-- A list of nodes that has to be there. -/
def requiredList (fields : LoadedFields) (name : String) : Except LoadError (List Node) := do
  match ← fields.required name with
  | .list items => .ok items
  | _ => .error .malformed

end LoadedFields

namespace Node

/-- The node of an object, given its loaded fields. -/
def assemble (object : Json) (fields : LoadedFields) : Except LoadError Node := do
  let token (name : String) : Except LoadError Token := do Token.load (← object.require name)
  match ← Shape.load object with
  | .block => .block <$> fields.requiredList "statements"
  | .expression => .expression <$> fields.required "expression"
  | .function =>
    .function <$> token "name" <*> (do Token.loadList (← object.require "params")) <*>
      fields.requiredList "body"
  | .conditional =>
    .conditional <$> fields.required "condition" <*> fields.required "then_branch" <*>
      fields.optional "else_branch"
  | .print => .print <$> fields.required "expression"
  | .var => .var <$> token "name" <*> fields.optional "initializer"
  | .loop => .loop <$> fields.required "condition" <*> fields.required "body"
  | .assign => .assign <$> token "name" <*> fields.required "value"
  | .binary => .binary <$> fields.required "left" <*> token "operator" <*> fields.required "right"
  | .call =>
    .call <$> fields.required "callee" <*> token "paren" <*> fields.requiredList "arguments"
  | .grouping => .grouping <$> fields.required "expression"
  | .literal => .literal <$> (do Literal.load (← object.require "value"))
  | .logical =>
    .logical <$> fields.required "left" <*> token "operator" <*> fields.required "right"
  | .unary => .unary <$> token "operator" <*> fields.required "right"
  | .variable => .variable <$> token "name"

mutual

/-- The node that a JSON value stores. -/
def load : Json → Except LoadError Node
  | .null => .ok .null
  | .array items => .list <$> loadList items
  | .object fields => assemble (.object fields) (loadFields fields)
  | .bool _ | .integer _ | .number _ | .text _ => .error .notObject

/-- The nodes that some JSON values store. -/
def loadList : List Json → Except LoadError (List Node)
  | [] => .ok []
  | first :: rest => do
    let node ← load first
    let nodes ← loadList rest
    .ok (node :: nodes)

/-- What the fields of an object store, where they are nodes. -/
def loadFields : List (Text × Json) → LoadedFields
  | [] => []
  | (name, value) :: rest => (name, load value) :: loadFields rest

end

end Node

/-- The program that a JSON value stores. -/
def Program.load (object : Json) : Except LoadError Program :=
  match object, object.field? "type" with
  | .object fields, some (.text type) =>
    if type = ("Program" : Text) then (Node.loadFields fields).requiredList "body"
    else .error .notProgram
  | .object _, _ => .error .notProgram
  | _, _ => .error .notRooted

end Lox
