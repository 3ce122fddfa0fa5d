import Lox.Number.Notation
import Lox.Text.Basic

/-!
# JSON values and their text

Tree files are JSON. Integers are kept apart from other numbers because they are read as doubles
only where a tree asks for one. A written text has no escapes beyond those that JSON demands, so
characters outside ASCII stand for themselves.
-/

namespace Lox

/-- A JSON value; an object keeps its fields in the order in which they were written. -/
inductive Json where
  | null
  | bool (value : Bool)
  | integer (value : Int)
  | number (value : Number)
  | text (value : Text)
  | array (items : List Json)
  | object (fields : List (Text × Json))
  deriving Inhabited, Repr

namespace Json

/-- The value of a field: of two fields with one name the later counts. -/
def field? (name : Text) : Json → Option Json
  | .object fields => fields.reverse.lookup name
  | _ => none

/-- How a written value is spread over lines. -/
inductive Layout where
  | compact
  | indented
  deriving DecidableEq, Repr

/-- What stands before an item at a depth. -/
def Layout.lineBreak : Layout → (depth : Nat) → Text
  | .compact, _ => []
  | .indented, depth => .char '\n' :: List.replicate (2 * depth) (.char ' ')

/-- What stands between a field's name and its value. -/
def Layout.colon : Layout → Text
  | .compact => [.char ':']
  | .indented => [.char ':', .char ' ']

/-- One symbol inside a JSON string. -/
def escaped : Symbol → Text
  | .stray byte => [.stray byte]
  | .half pair => [.half pair]
  | .char c =>
    Text.ofChars <|
      if c = '"' || c = '\\' then ['\\', c]
      else if c = '\n' then ['\\', 'n']
      else if c = '\r' then ['\\', 'r']
      else if c = '\t' then ['\\', 't']
      else if c = '\x08' then ['\\', 'b']
      else if c = '\x0c' then ['\\', 'f']
      else if c.toNat < 0x20 then
        ['\\', 'u', '0', '0', Nat.digitChar (c.toNat / 16), Nat.digitChar (c.toNat % 16)]
      else [c]

/-- A JSON string. -/
def quoted (value : Text) : Text :=
  .char '"' :: value.flatMap escaped ++ [.char '"']

mutual

/-- The text of a value whose items stand one level below the given depth. -/
def render (layout : Layout) (depth : Nat) : Json → Text
  | .null => "null"
  | .bool true => "true"
  | .bool false => "false"
  | .integer value => Text.ofInt value
  | .number value => value.storedText
  | .text value => quoted value
  | .array [] => "[]"
  | .array (first :: rest) =>
    .char '[' :: layout.lineBreak (depth + 1) ++ render layout (depth + 1) first ++
      renderItems layout (depth + 1) rest ++ layout.lineBreak depth ++ [.char ']']
  | .object [] => "\x7b\x7d"
  | .object ((name, value) :: rest) =>
    .char '\x7b' :: layout.lineBreak (depth + 1) ++ quoted name ++ layout.colon ++
      render layout (depth + 1) value ++ renderFields layout (depth + 1) rest ++
      layout.lineBreak depth ++ [.char '\x7d']

/-- The items after the first, each behind a comma. -/
def renderItems (layout : Layout) (depth : Nat) : List Json → Text
  | [] => []
  | item :: rest =>
    .char ',' :: layout.lineBreak depth ++ render layout depth item ++
      renderItems layout depth rest

/-- The fields after the first, each behind a comma. -/
def renderFields (layout : Layout) (depth : Nat) : List (Text × Json) → Text
  | [] => []
  | (name, value) :: rest =>
    .char ',' :: layout.lineBreak depth ++ quoted name ++ layout.colon ++
      render layout depth value ++ renderFields layout depth rest

end

mutual

/-- The strings of a value and the names of its fields, in the order in which they are written. -/
def texts : Json → List Text
  | .text value => [value]
  | .array items => textsOfItems items
  | .object fields => textsOfFields fields
  | .null | .bool _ | .integer _ | .number _ => []

/-- The strings of some items. -/
def textsOfItems : List Json → List Text
  | [] => []
  | item :: rest => item.texts ++ textsOfItems rest

/-- The strings of some fields, each name before its value. -/
def textsOfFields : List (Text × Json) → List Text
  | [] => []
  | (name, value) :: rest => name :: value.texts ++ textsOfFields rest

end

end Json

end Lox
