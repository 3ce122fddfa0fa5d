import Lox.Node.Load

/-!
# The fields of stored trees

A stored program is an object whose fields hold nodes, tokens and literals, and these have fields in turn.
One table says which fields an object has, in the order in which they are read, and what each of them
holds.

Loading an object reads the fields of the table and no others. What is loaded depends only on what these
hold, and loading fails for the first field that cannot be read.
-/

namespace Lox

/-- The slots of a stored program, by what their values are read as. -/
inductive Slot where
  | program | node | nodes | token | tokens | kind | lexeme | line | literal
  deriving DecidableEq

/-- A field by its name, with its slot and whether it has to be there. -/
structure Field where
  name : String
  slot : Slot
  required : Bool
  deriving DecidableEq

/-- A field that has to be there. -/
abbrev Field.needed (name : String) (slot : Slot) : Field :=
  ⟨name, slot, true⟩

/-- A field that may be missing. -/
abbrev Field.optional (name : String) (slot : Slot) : Field :=
  ⟨name, slot, false⟩

/-- The fields of a node, in the order in which they are read. -/
def Shape.fields : Shape → List Field
  | .block => [.needed "statements" .nodes]
  | .expression | .print | .grouping => [.needed "expression" .node]
  | .function => [.needed "name" .token, .needed "params" .tokens, .needed "body" .nodes]
  | .conditional =>
    [.needed "condition" .node, .needed "then_branch" .node, .optional "else_branch" .node]
  | .var => [.needed "name" .token, .optional "initializer" .node]
  | .loop => [.needed "condition" .node, .needed "body" .node]
  | .assign => [.needed "name" .token, .needed "value" .node]
  | .binary | .logical => [.needed "left" .node, .needed "operator" .token, .needed "right" .node]
  | .call => [.needed "callee" .node, .needed "paren" .token, .needed "arguments" .nodes]
  | .literal => [.needed "value" .literal]
  | .unary => [.needed "operator" .token, .needed "right" .node]
  | .variable => [.needed "name" .token]

/-- The only field of a program besides its type. -/
def Program.fields : List Field :=
  [.needed "body" .nodes]

/-- The fields of a token, in the order in which they are read. -/
def Token.fields : List Field :=
  [.needed "kind" .kind, .needed "lexeme" .lexeme, .needed "line" .line]

/-- The type of an object. -/
def Json.type? (object : Json) : Option Text :=
  match object.field? "type" with
  | some (.text type) => some type
  | _ => none

/-- The fields that are read of an object, which its type decides unless it is a token. -/
def Slot.fields (slot : Slot) (object : Json) : List Field :=
  match slot with
  | .program => if object.type? = some ("Program" : Text) then Program.fields else []
  | .node =>
    match object.type?.bind Shape.ofName? with
    | some shape => shape.fields
    | none => []
  | .token => Token.fields
  | _ => []

/-- What holds of every table of fields holds of the fields of any object. -/
theorem Slot.forall_fields {P : List Field → Prop} (program : P Program.fields)
    (node : ∀ shape : Shape, P shape.fields) (token : P Token.fields) (others : P []) (slot : Slot)
    (object : Json) : P (slot.fields object) := by
  fun_cases fields slot object <;> simp_all

/-- What the items of an array hold. -/
def Slot.item? : Slot → Option Slot
  | .node | .nodes => some .node
  | .tokens => some .token
  | _ => none

/-- What is loaded from a slot. -/
abbrev Slot.Loaded : Slot → Type
  | .program => Program
  | .node => Node
  | .nodes => List Node
  | .token => Token
  | .tokens => List Token
  | .kind => Kind
  | .lexeme => List UInt8
  | .line => Int
  | .literal => Literal

/-- The nodes that an array stores. -/
def Node.loadItems (json : Json) : Except LoadError (List Node) := do
  match ← load json with
  | .list items => .ok items
  | _ => .error .malformed

/-- The line that an integer stores. -/
def Json.loadLine : Json → Except LoadError Int
  | .integer line => .ok line
  | _ => .error .malformed

namespace Slot

/-- Loads the value in a slot. -/
def load : (slot : Slot) → Json → Except LoadError slot.Loaded
  | program, json => Program.load json
  | node, json => Node.load json
  | nodes, json => Node.loadItems json
  | token, json => Token.load json
  | tokens, json => Token.loadList json
  | kind, json => Kind.load json
  | lexeme, json => json.lexemeBytes
  | line, json => json.loadLine
  | literal, json => Literal.load json

/-- What stands for a missing value; only nodes may be missing. -/
def blank : (slot : Slot) → slot.Loaded
  | program | nodes | tokens | lexeme => []
  | node => Node.null
  | token => default
  | kind => default
  | line => default
  | literal => default

end Slot

/-- Reads a field of an object. -/
def Field.read (field : Field) (object : Json) : Except LoadError field.slot.Loaded :=
  match object.field? field.name with
  | some value => field.slot.load value
  | none => if field.required then .error (.missing field.name) else .ok field.slot.blank

/-- What is loaded from some fields. -/
def Field.Loaded : List Field → Type
  | [] => Unit
  | field :: fields => field.slot.Loaded × Loaded fields

/-- Reads some fields of an object, one after the other. -/
def Field.readAll (object : Json) : (fields : List Field) → Except LoadError (Loaded fields)
  | [] => .ok ()
  | field :: fields => do
    let first ← field.read object
    let rest ← readAll object fields
    .ok (first, rest)

section

variable {α : Type} {object : Json} {first second third : Field}

/-- What is made of one field. -/
theorem Field.map_readAll_one (make : Loaded [first] → α) :
    make <$> readAll object [first] = (fun a => make (a, ())) <$> first.read object := by
  unfold readAll
  cases first.read object <;> rfl

/-- What is made of two fields. -/
theorem Field.map_readAll_two (make : Loaded [first, second] → α) :
    make <$> readAll object [first, second] =
      (fun a b => make (a, b, ())) <$> first.read object <*> second.read object := by
  unfold readAll readAll
  cases first.read object <;> cases second.read object <;> rfl

/-- What is made of three fields. -/
theorem Field.map_readAll_three (make : Loaded [first, second, third] → α) :
    make <$> readAll object [first, second, third] =
      (fun a b c => make (a, b, c, ())) <$> first.read object <*> second.read object <*>
        third.read object := by
  unfold readAll readAll readAll
  cases first.read object <;> cases second.read object <;> cases third.read object <;> rfl

end

/-- The node that is made of what the fields of a shape hold. -/
def Shape.build : (shape : Shape) → Field.Loaded shape.fields → Node
  | .block, (statements, ()) => .block statements
  | .expression, (value, ()) => .expression value
  | .function, (name, parameters, body, ()) => .function name parameters body
  | .conditional, (condition, thenBranch, elseBranch, ()) =>
    .conditional condition thenBranch elseBranch
  | .print, (value, ()) => .print value
  | .var, (name, initializer, ()) => .var name initializer
  | .loop, (condition, body, ()) => .loop condition body
  | .assign, (name, value, ()) => .assign name value
  | .binary, (left, operator, right, ()) => .binary left operator right
  | .call, (callee, paren, arguments, ()) => .call callee paren arguments
  | .grouping, (inner, ()) => .grouping inner
  | .literal, (value, ()) => .literal value
  | .logical, (left, operator, right, ()) => .logical left operator right
  | .unary, (operator, operand, ()) => .unary operator operand
  | .variable, (name, ()) => .variable name

section Reading

variable {object : Json} {fields : List (Text × Json)}

/-- Where each value is replaced, a field is found with what its value is replaced by. -/
theorem Json.lookup_map {α : Type} (replace : Json → α) (name : Text) :
    (fields.map fun field => (field.1, replace field.2)).reverse.lookup name =
      ((Json.object fields).field? name).map replace := by
  rw [← List.map_reverse, field?]
  induction fields.reverse with
  | nil => rfl
  | cons field fields ih =>
    rw [List.map_cons, List.lookup_cons, List.lookup_cons, ih]
    split <;> rfl

/-- What a field is found with stands behind its name. -/
theorem Json.mem_of_field? {name : Text} {value : Json}
    (isField : (Json.object fields).field? name = some value) : (name, value) ∈ fields := by
  obtain ⟨later, earlier, isReversed, -⟩ := List.lookup_eq_some_iff.mp isField
  rw [← List.mem_reverse, isReversed]
  exact List.mem_append_right _ List.mem_cons_self

/-- The loaded fields of an object are those that it has. -/
theorem Node.lookup_loadFields (name : Text) :
    (loadFields fields).reverse.lookup name = ((Json.object fields).field? name).map load := by
  have mapped : loadFields fields = fields.map fun field => (field.1, load field.2) := by
    induction fields with
    | nil => rfl
    | cons field fields ih => rw [loadFields, ih, List.map_cons]
  rw [mapped, Json.lookup_map]

/-- Loading a required node reads its field. -/
theorem LoadedFields.required_eq_read (name : String) :
    (Node.loadFields fields).required name = (Field.needed name .node).read (.object fields) := by
  unfold required Field.read
  rw [Node.lookup_loadFields]
  dsimp only
  cases (Json.object fields).field? name <;> rfl

/-- Loading a node that may be missing reads its field. -/
theorem LoadedFields.optional_eq_read (name : String) :
    (Node.loadFields fields).optional name = (Field.optional name .node).read (.object fields) := by
  unfold optional Field.read
  rw [Node.lookup_loadFields]
  dsimp only
  cases (Json.object fields).field? name <;> rfl

/-- Loading a list of nodes reads its field. -/
theorem LoadedFields.requiredList_eq_read (name : String) :
    (Node.loadFields fields).requiredList name =
      (Field.needed name .nodes).read (.object fields) := by
  unfold requiredList required Field.read
  rw [Node.lookup_loadFields]
  dsimp only
  cases (Json.object fields).field? name <;> rfl

/-- Loading the value of a required field reads the field. -/
theorem Json.require_bind_eq_read (name : String) (slot : Slot) :
    (object.require name >>= slot.load) = (Field.needed name slot).read object := by
  unfold require Field.read
  dsimp only
  cases object.field? name <;> rfl

/-- The token that is made of what its fields hold. -/
def Token.build : Field.Loaded Token.fields → Token
  | (kind, lexeme, line, ()) => ⟨kind, lexeme, line⟩

/-- Loading a token reads its fields. -/
theorem Token.load_eq_readAll :
    Token.load object = Token.build <$> Field.readAll object Token.fields := by
  refine Eq.trans ?_ (Field.map_readAll_three _).symm
  simp only [← Json.require_bind_eq_read, Slot.load, seq_eq_bind_map, ← bind_pure_comp, bind_assoc,
    pure_bind]
  unfold load
  refine bind_congr fun _ => bind_congr fun kind => bind_congr fun _ => bind_congr fun lexeme =>
    bind_congr fun line => ?_
  cases line <;> rfl

/-- The shape of an object is the one that its type names. -/
theorem Shape.load_eq : Shape.load object =
    match object.type?.bind Shape.ofName? with
    | some shape => .ok shape
    | none => .error (.unknownType (Json.shownType (object.field? "type"))) := by
  unfold Shape.load Json.type?
  cases object.field? "type" with
  | none => rfl
  | some type => cases type <;> rfl

/-- Loading a program reads its statements. -/
theorem Program.load_eq_read : Program.load (.object fields) =
    if (Json.object fields).type? = some ("Program" : Text) then
      (Field.needed "body" .nodes).read (.object fields)
    else .error .notProgram := by
  unfold Program.load Json.type?
  rw [← LoadedFields.requiredList_eq_read]
  cases (Json.object fields).field? "type" with
  | none => rfl
  | some type => cases type <;> simp

/-- Loading a node reads the fields of its shape. -/
theorem Node.load_eq_readAll : load (.object fields) =
    match (Json.object fields).type?.bind Shape.ofName? with
    | some shape => shape.build <$> Field.readAll (.object fields) shape.fields
    | none => .error (.unknownType (Json.shownType ((Json.object fields).field? "type"))) := by
  have token (name : String) : (do Token.load (← (Json.object fields).require name)) = _ :=
    Json.require_bind_eq_read name .token
  have tokens (name : String) : (do Token.loadList (← (Json.object fields).require name)) = _ :=
    Json.require_bind_eq_read name .tokens
  have literal (name : String) : (do Literal.load (← (Json.object fields).require name)) = _ :=
    Json.require_bind_eq_read name .literal
  unfold load assemble
  rw [Shape.load_eq]
  cases (Json.object fields).type?.bind Shape.ofName? with
  | none => rfl
  | some shape =>
    simp only [LoadedFields.required_eq_read, LoadedFields.optional_eq_read,
      LoadedFields.requiredList_eq_read, token, tokens, literal]
    cases shape with
    | block | expression | print | grouping | literal | «variable» =>
      refine Eq.trans ?_ (Field.map_readAll_one _).symm
      rfl
    | var | loop | assign | unary =>
      refine Eq.trans ?_ (Field.map_readAll_two _).symm
      rfl
    | function | conditional | binary | call | logical =>
      refine Eq.trans ?_ (Field.map_readAll_three _).symm
      rfl

/-- Fields that hold the same in two objects are read alike. -/
theorem Field.readAll_congr {object' : Json} {fields : List Field}
    (same : ∀ field ∈ fields, field.read object = field.read object') :
    readAll object fields = readAll object' fields := by
  induction fields with
  | nil => rfl
  | cons field fields ih =>
    rw [List.forall_mem_cons] at same
    rw [readAll, readAll, same.1, ih same.2]

end Reading

/-- Loading nodes loads each of them. -/
theorem Node.loadList_eq_mapM (items : List Json) : loadList items = items.mapM load := by
  induction items with
  | nil => rfl
  | cons item items ih =>
    rw [loadList, ih, List.mapM_cons]
    rfl

/-- The slots of objects. -/
def Slot.IsObject (slot : Slot) : Prop :=
  slot = .program ∨ slot = .node ∨ slot = .token

/-- What is loaded from an object depends only on its type and on what its fields hold. -/
theorem Slot.load_congr {slot : Slot} {fields fields' : List (Text × Json)} (isObject : slot.IsObject)
    (type : (Json.object fields).field? "type" = (Json.object fields').field? "type")
    (same : ∀ field ∈ slot.fields (.object fields),
      field.read (.object fields) = field.read (.object fields')) :
    slot.load (.object fields) = slot.load (.object fields') := by
  have sameType : (Json.object fields).type? = (Json.object fields').type? := by
    unfold Json.type?
    rw [type]
  obtain rfl | rfl | rfl := isObject
  · rw [load, load, Program.load_eq_read, Program.load_eq_read, ← sameType]
    unfold Slot.fields at same
    split
    · next isProgram =>
      rw [if_pos isProgram] at same
      exact same _ List.mem_cons_self
    · rfl
  · rw [load, load, Node.load_eq_readAll, Node.load_eq_readAll, ← sameType, ← type]
    unfold Slot.fields at same
    split
    · next shape isShape =>
      rw [isShape] at same
      rw [Field.readAll_congr same]
    · rfl
  · rw [load, load, Token.load_eq_readAll, Token.load_eq_readAll]
    exact congrArg _ (Field.readAll_congr same)

end Lox
