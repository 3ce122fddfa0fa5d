import Lox.Json.Basic
import Lox.Proofs.Text.Characters

/-!
# Values of characters

The text of a value holds nothing but characters where its strings and the names of its fields
hold nothing else. Escaping never makes a character of another symbol, so a string that holds such
a symbol cannot be written to a file of characters.
-/

namespace Lox

/-- The text of a string holds only characters. -/
@[simp]
theorem Text.onlyChars_ofString (string : String) : OnlyChars (ofString string) :=
  onlyChars_ofChars _

/-- Texts hold nothing but characters. -/
def AllOnlyChars (texts : List Text) : Prop :=
  ∀ text ∈ texts, text.OnlyChars

/-- No text holds anything. -/
@[simp]
theorem allOnlyChars_nil : AllOnlyChars [] :=
  fun _ isText => absurd isText List.not_mem_nil

/-- Texts hold only characters where the first and the others do. -/
@[simp]
theorem allOnlyChars_cons {first : Text} {rest : List Text} :
    AllOnlyChars (first :: rest) ↔ first.OnlyChars ∧ AllOnlyChars rest :=
  List.forall_mem_cons

/-- Texts hold only characters where those of both parts do. -/
@[simp]
theorem allOnlyChars_append {left right : List Text} :
    AllOnlyChars (left ++ right) ↔ AllOnlyChars left ∧ AllOnlyChars right :=
  List.forall_mem_append

namespace Json

/-- An escaped symbol is made of characters where it is one. -/
theorem onlyChars_escaped (symbol : Symbol) :
    (escaped symbol).OnlyChars ↔ symbol.isChar := by
  cases symbol <;> simp [escaped, Symbol.isChar]

/-- A string is written with characters alone where it holds nothing else. -/
theorem onlyChars_quoted (value : Text) : (quoted value).OnlyChars ↔ value.OnlyChars := by
  have escapes : Text.OnlyChars (value.flatMap escaped) ↔ value.OnlyChars := by
    induction value with
    | nil => simp
    | cons symbol value ih => simp [onlyChars_escaped, ih]
  simp [quoted, escapes, Symbol.isChar]

/-- Some string of a value cannot be written where it holds another symbol than a character. -/
theorem findSome?_storageError? (texts : List Text) :
    (texts.findSome? fun value => (quoted value).storageError?) = none ↔ AllOnlyChars texts := by
  rw [List.findSome?_eq_none_iff]
  exact forall₂_congr fun value _ => Text.storageError?_eq_none_iff.trans (onlyChars_quoted value)

section

variable (layout : Layout) (depth : Nat)

/-- A layout is made of characters. -/
@[simp]
theorem onlyChars_lineBreak : (layout.lineBreak depth).OnlyChars := by
  cases layout with
  | compact => exact Text.onlyChars_nil
  | indented =>
    rw [Layout.lineBreak, Text.onlyChars_cons]
    exact ⟨rfl, fun symbol isBlank => by rw [List.eq_of_mem_replicate isBlank]; rfl⟩

/-- What stands behind a field's name is made of characters. -/
@[simp]
theorem onlyChars_colon : layout.colon.OnlyChars := by
  cases layout <;> simp [Layout.colon, Symbol.isChar]

/-- An integer is written with characters. -/
@[simp]
theorem onlyChars_ofInt (value : Int) : (Text.ofInt value).OnlyChars := by
  cases value <;> simp [Text.ofInt, Text.ofNat, Symbol.isChar]

/-- A number is written with characters. -/
@[simp]
theorem onlyChars_storedText (value : Number) : value.storedText.OnlyChars := by
  cases value <;> exact Text.onlyChars_ofChars _

attribute [local simp] render renderItems renderFields texts textsOfItems textsOfFields
  Symbol.isChar onlyChars_quoted

mutual

/-- The text of a value holds only characters where its strings do. -/
theorem onlyChars_render (depth : Nat) :
    (json : Json) → AllOnlyChars json.texts → (render layout depth json).OnlyChars
  | .null, _ | .bool true, _ | .bool false, _ | .integer _, _ | .number _, _ | .array [], _
  | .object [], _ => by simp
  | .text value, onlyChars => by simpa using onlyChars
  | .array (item :: others), onlyChars => by
    simp only [texts, textsOfItems, allOnlyChars_append] at onlyChars
    simp [onlyChars_render (depth + 1) item onlyChars.1,
      onlyChars_renderItems (depth + 1) others onlyChars.2]
  | .object ((name, value) :: others), onlyChars => by
    simp only [texts, textsOfFields, List.cons_append, allOnlyChars_cons,
      allOnlyChars_append] at onlyChars
    simp [onlyChars.1, onlyChars_render (depth + 1) value onlyChars.2.1,
      onlyChars_renderFields (depth + 1) others onlyChars.2.2]

/-- The text of further items holds only characters where their strings do. -/
theorem onlyChars_renderItems (depth : Nat) :
    (items : List Json) → AllOnlyChars (textsOfItems items) →
      (renderItems layout depth items).OnlyChars
  | [], _ => by simp
  | item :: others, onlyChars => by
    simp only [textsOfItems, allOnlyChars_append] at onlyChars
    simp [onlyChars_render depth item onlyChars.1, onlyChars_renderItems depth others onlyChars.2]

/-- The text of further fields holds only characters where their strings do. -/
theorem onlyChars_renderFields (depth : Nat) :
    (fields : List (Text × Json)) → AllOnlyChars (textsOfFields fields) →
      (renderFields layout depth fields).OnlyChars
  | [], _ => by simp
  | (name, value) :: others, onlyChars => by
    simp only [textsOfFields, List.cons_append, allOnlyChars_cons,
      allOnlyChars_append] at onlyChars
    simp [onlyChars.1, onlyChars_render depth value onlyChars.2.1,
      onlyChars_renderFields depth others onlyChars.2.2]

end

end

end Json

end Lox
