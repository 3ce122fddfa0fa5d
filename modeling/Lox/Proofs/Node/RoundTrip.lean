import Lox.Node.Load
import Lox.Proofs.Text.Characters
import Mathlib.Data.List.Basic

/-!
# Stored trees load back

Every tree is stored so that loading gives the same tree again, with the same tokens and literals,
wherever nothing or a list stands in place of a node. So no two programs are stored alike, and what
was loaded once is stored and loaded from then on without a change.

Loading finds the type of a stored node by its name, and the parts by theirs; a token comes back
because the bytes of its lexeme survive being written as text.
-/

namespace Lox

/-- Among items whose names differ each is found by its name. -/
theorem find?_name {α : Type} (name : α → String) {items : List α}
    (distinct : (items.map name).Nodup) {item : α} (isItem : item ∈ items) :
    items.find? (fun other => decide ((name other : Text) = name item)) = some item := by
  induction items with
  | nil => exact absurd isItem List.not_mem_nil
  | cons first rest ih =>
    rw [List.map_cons, List.nodup_cons] at distinct
    rw [List.find?_cons]
    obtain rfl | isLater := List.mem_cons.mp isItem
    · simp
    · have differs : name first ≠ name item := fun same =>
        distinct.1 (same ▸ List.mem_map_of_mem isLater)
      simpa [differs] using ih distinct.2 isLater

/-- Every kind has a name of its own. -/
theorem Kind.ofName?_name (kind : Kind) : Kind.ofName? kind.name = some kind :=
  find?_name Kind.name (by decide +kernel) (by cases kind <;> decide)

/-- Every shape has a name of its own. -/
theorem Shape.ofName?_name (shape : Shape) : Shape.ofName? shape.name = some shape :=
  find?_name Shape.name (by decide +kernel) (by cases shape <;> decide)

/-- The text of a lexeme stands for its bytes. -/
theorem Json.lexemeBytes_text (token : Token) :
    Json.lexemeBytes (.text token.text) = .ok token.lexeme := by
  unfold Json.lexemeBytes Token.text
  dsimp only
  rw [Text.byteError?_decode, Text.encode_decode]

/-- A stored token loads back. -/
theorem Token.load_toJson (token : Token) : Token.load token.toJson = .ok token := by
  have kind : token.toJson.require "kind" = .ok (.text token.kind.name) := by
    simp [Json.require, Token.toJson, Json.field?, List.lookup_cons]
  have lexeme : token.toJson.require "lexeme" = .ok (.text token.text) := by
    simp [Json.require, Token.toJson, Json.field?, List.lookup_cons]
  have line : token.toJson.require "line" = .ok (.integer token.line) := by
    simp [Json.require, Token.toJson, Json.field?]
  unfold Token.load Kind.load
  simp only [kind, lexeme, line, Json.lexemeBytes_text, Kind.ofName?_name, bind, Except.bind]

/-- Stored tokens load back. -/
theorem Token.loadList_toJson (tokens : List Token) :
    Token.loadList (.array (tokens.map Token.toJson)) = .ok tokens := by
  unfold Token.loadList
  dsimp only
  induction tokens with
  | nil => rfl
  | cons token tokens ih =>
    rw [List.map_cons, List.mapM_cons, Token.load_toJson, ih]
    rfl

/-- A stored literal loads back. -/
theorem Literal.load_toJson (literal : Literal) : Literal.load literal.toJson = .ok literal := by
  cases literal <;> rfl

/-- The type of a stored node is found, whatever its parts are. -/
theorem Shape.load_stored (shape : Shape) {parts : List (Text × Json)}
    (untyped : ∀ part ∈ parts, part.1 ≠ Text.ofString "type") :
    Shape.load (Node.stored shape.name parts) = .ok shape := by
  have others : parts.reverse.lookup (Text.ofString "type") = none :=
    List.lookup_eq_none_iff.mpr fun part isPart =>
      bne_iff_ne.mpr (untyped part (List.mem_reverse.mp isPart)).symm
  have type : (Node.stored shape.name parts).field? "type" = some (.text shape.name) := by
    rw [Node.stored, Json.field?, List.reverse_cons, List.lookup_append, others]
    simp
  simp only [Shape.load, type, Shape.ofName?_name]

namespace Node

section

attribute [local simp] LoadedFields.requiredList LoadedFields.required LoadedFields.optional
  Json.require Json.field? stored loadFields load List.lookup_cons bind Except.bind

mutual

/-- A stored node loads back. -/
theorem load_toJson : (node : Node) → load node.toJson = .ok node
  | .null => rfl
  | .list items => by
    rw [toJson, load, loadList_toJsonList items]
    rfl
  | .block statements => by
    unfold toJson stored load assemble
    rw [← stored, Shape.load_stored .block (by simp)]
    simp [loadList_toJsonList statements]
  | .expression value => by
    unfold toJson stored load assemble
    rw [← stored, Shape.load_stored .expression (by simp)]
    simp [load_toJson value]
  | .function name parameters body => by
    unfold toJson stored load assemble
    rw [← stored, Shape.load_stored .function (by simp)]
    simp [Token.load_toJson name, Token.loadList_toJson parameters, loadList_toJsonList body]
    rfl
  | .conditional condition thenBranch elseBranch => by
    unfold toJson stored load assemble
    rw [← stored, Shape.load_stored .conditional (by simp)]
    simp [load_toJson condition, load_toJson thenBranch, load_toJson elseBranch]
    rfl
  | .print value => by
    unfold toJson stored load assemble
    rw [← stored, Shape.load_stored .print (by simp)]
    simp [load_toJson value]
  | .var name initializer => by
    unfold toJson stored load assemble
    rw [← stored, Shape.load_stored .var (by simp)]
    simp [Token.load_toJson name, load_toJson initializer]
    rfl
  | .loop condition body => by
    unfold toJson stored load assemble
    rw [← stored, Shape.load_stored .loop (by simp)]
    simp [load_toJson condition, load_toJson body]
    rfl
  | .assign name value => by
    unfold toJson stored load assemble
    rw [← stored, Shape.load_stored .assign (by simp)]
    simp [Token.load_toJson name, load_toJson value]
    rfl
  | .binary left operator right => by
    unfold toJson stored load assemble
    rw [← stored, Shape.load_stored .binary (by simp)]
    simp [Token.load_toJson operator, load_toJson left, load_toJson right]
    rfl
  | .call callee paren arguments => by
    unfold toJson stored load assemble
    rw [← stored, Shape.load_stored .call (by simp)]
    simp [Token.load_toJson paren, load_toJson callee, loadList_toJsonList arguments]
    rfl
  | .grouping inner => by
    unfold toJson stored load assemble
    rw [← stored, Shape.load_stored .grouping (by simp)]
    simp [load_toJson inner]
  | .literal value => by
    unfold toJson stored load assemble
    rw [← stored, Shape.load_stored .literal (by simp)]
    simp [Literal.load_toJson value]
  | .logical left operator right => by
    unfold toJson stored load assemble
    rw [← stored, Shape.load_stored .logical (by simp)]
    simp [Token.load_toJson operator, load_toJson left, load_toJson right]
    rfl
  | .unary operator operand => by
    unfold toJson stored load assemble
    rw [← stored, Shape.load_stored .unary (by simp)]
    simp [Token.load_toJson operator, load_toJson operand]
    rfl
  | .«variable» name => by
    unfold toJson stored load assemble
    rw [← stored, Shape.load_stored .«variable» (by simp)]
    simp [Token.load_toJson name]

/-- Stored nodes load back. -/
theorem loadList_toJsonList : (nodes : List Node) → loadList (toJsonList nodes) = .ok nodes
  | [] => rfl
  | first :: rest => by
    rw [toJsonList, loadList, load_toJson first, loadList_toJsonList rest]
    rfl

end

end

end Node

/-- A stored program loads back. -/
theorem Program.load_toJson (program : Program) : Program.load program.toJson = .ok program := by
  have type : program.toJson.field? "type" = some (.text "Program") := by
    simp [Program.toJson, Node.stored, Json.field?, List.lookup_cons]
  unfold Program.load
  rw [type]
  simp [Program.toJson, Node.stored, LoadedFields.requiredList, LoadedFields.required,
    Node.loadFields, Node.load, bind, Except.bind, Node.loadList_toJsonList program]

/-- What is stored loads back, nodes and programs alike. So storing what was loaded and loading that
again changes nothing, and different trees are stored differently. -/
theorem stored_trees_load_back :
    (∀ node : Node, Node.load node.toJson = .ok node) ∧
      (∀ program : Program, Program.load program.toJson = .ok program) ∧
      (∀ json, (do Node.toJson <$> Node.load (← Node.toJson <$> Node.load json)) =
        Node.toJson <$> Node.load json) ∧
      (∀ json, (do Program.toJson <$> Program.load (← Program.toJson <$> Program.load json)) =
        Program.toJson <$> Program.load json) ∧
      Function.Injective Node.toJson ∧ Function.Injective Program.toJson := by
  refine ⟨Node.load_toJson, Program.load_toJson, fun json => ?_, fun json => ?_,
    fun node other same => ?_, fun program other same => ?_⟩
  · cases Node.load json with
    | error => rfl
    | ok node => exact congrArg (Node.toJson <$> ·) (Node.load_toJson node)
  · cases Program.load json with
    | error => rfl
    | ok program => exact congrArg (Program.toJson <$> ·) (Program.load_toJson program)
  · have loaded := congrArg Node.load same
    rw [Node.load_toJson, Node.load_toJson] at loaded
    exact Except.ok.inj loaded
  · have loaded := congrArg Program.load same
    rw [Program.load_toJson, Program.load_toJson] at loaded
    exact Except.ok.inj loaded

end Lox
