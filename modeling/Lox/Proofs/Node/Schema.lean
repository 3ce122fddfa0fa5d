import Lox.Proofs.Node.Agreement
import Lox.Proofs.Node.Places
import Lox.Proofs.Node.RoundTrip

/-!
# Which trees can be loaded

A tree meets the schema where its root is a program, each node has a known type and each token a known
kind, each object has the fields that it has to have, and no integer literal is too large. Such a tree is
loaded unless the text of a lexeme stands for no bytes, as half of a surrogate pair does.

A tree that cannot be loaded is refused for its first defect. Neither the order of fields nor fields that
are not read make any difference.
-/

namespace Lox

namespace Json

variable {json : Json}

/-- All values that reading comes to are of the sort that their slots ask for. -/
def FitsSlots (json : Json) : Prop :=
  ∀ slot value, json.Reached slot value → slot.fits value

/-- A tree has the types, fields, kinds and integers that the format asks for. -/
structure MeetsSchema (json : Json) : Prop where
  isProgram : json.type? = some ("Program" : Text)
  isKnown : ∀ fields, json.Reached .node (.object fields) →
    ∃ shape : Shape, (object fields).type? = some (shape.name : Text)
  isComplete : ∀ slot fields, json.Reached slot (.object fields) →
    ∀ field ∈ slot.fields (.object fields), field.required → (object fields).field? field.name ≠ none
  isKind : ∀ name, json.Reached .kind (.text name) → ∃ kind : Kind, name = (kind.name : Text)
  isInRange : ∀ value, json.Reached .literal (.integer value) → value.natAbs < Number.firstInfinite

/-- The text of each lexeme stands for bytes. -/
def LexemesHaveBytes (json : Json) : Prop :=
  ∀ lexeme, json.Reached .lexeme (.text lexeme) → ∀ symbol ∈ lexeme, symbol.hasBytes

end Json

/-- Something is found by a name just if an item has this name. -/
theorem isSome_find?_name {α : Type} (name : α → String) (items : List α) (searched : Text) :
    (items.find? fun item => decide ((name item : Text) = searched)).isSome ↔
      ∃ item ∈ items, searched = (name item : Text) := by
  simp only [List.find?_isSome, decide_eq_true_eq]
  exact exists_congr fun item => and_congr_right fun _ => eq_comm

/-- A kind is known just by its name. -/
theorem Kind.isSome_ofName? {name : Text} :
    (Kind.ofName? name).isSome ↔ ∃ kind : Kind, name = (kind.name : Text) := by
  refine (isSome_find?_name Kind.name all name).trans (exists_congr fun kind => ?_)
  exact and_iff_right (by cases kind <;> decide)

/-- A shape is known just by its name. -/
theorem Shape.isSome_ofName? {name : Text} :
    (Shape.ofName? name).isSome ↔ ∃ shape : Shape, name = (shape.name : Text) := by
  refine (isSome_find?_name Shape.name all name).trans (exists_congr fun shape => ?_)
  exact and_iff_right (by cases shape <;> decide)

namespace Place

/-- Whether a place holds a lexeme. -/
def isLexeme : Place → Bool
  | .found .lexeme _ => true
  | _ => false

/-- A program is in order by its type. -/
theorem defect?_program {object : Json} :
    (found .program object).defect? = none ↔ object.type? = some ("Program" : Text) := by
  rw [defect?]
  split <;> simp [*]

/-- A node is in order by its type. -/
theorem defect?_node {fields : List (Text × Json)} : (found .node (.object fields)).defect? = none ↔
    ∃ shape : Shape, (Json.object fields).type? = some (shape.name : Text) := by
  rw [defect?]
  cases (Json.object fields).type? with
  | none => simp
  | some type =>
    simp only [Option.some_inj, ← Shape.isSome_ofName?, Option.bind_some]
    split <;> simp [*]

/-- A kind is in order by its name. -/
theorem defect?_kind {name : Text} : (found .kind (.text name)).defect? = none ↔
    ∃ kind : Kind, name = (kind.name : Text) := by
  rw [defect?, ← Kind.isSome_ofName?]
  split <;> simp [*]

/-- An integer literal is in order if it is not too large. -/
theorem defect?_literal {value : Int} : (found .literal (.integer value)).defect? = none ↔
    value.natAbs < Number.firstInfinite := by
  rw [defect?]
  split <;> simp_all

/-- A lexeme is in order if each of its symbols has bytes. -/
theorem defect?_lexeme {lexeme : Text} : (found .lexeme (.text lexeme)).defect? = none ↔
    ∀ symbol ∈ lexeme, symbol.hasBytes := by
  rw [defect?, Option.map_eq_none_iff]
  exact Text.unwritable?_eq_none_iff

end Place

namespace Json

variable {json : Json}

/-- Only the root is read as a program. -/
theorem Reached.eq_root {slot : Slot} {value : Json} (isReached : json.Reached slot value)
    (isProgram : slot = .program) : value = json := by
  cases isReached with
  | root => rfl
  | @field slot' object _ field _ isField =>
    have noProgram := Slot.forall_fields (P := fun fields => ∀ field ∈ fields, field.slot ≠ .program)
      (by decide) (fun shape => by cases shape <;> decide) (by decide) (by decide) slot' object
    exact absurd isProgram (noProgram field isField)
  | @item slot' _ _ _ _ isItem =>
    subst isProgram
    cases slot' <;> cases isItem

/-- A tree meets the schema where no place but those of lexemes has a defect. -/
theorem meetsSchema_iff : json.MeetsSchema ↔
    ∀ place ∈ json.places .program, place.isLexeme = false → place.defect? = none := by
  constructor
  · intro meets place isPlace notLexeme
    have holds := holds_of_mem_places .root isPlace
    cases place with
    | missing name =>
      obtain ⟨slot, fields, field, isReached, isField, required, absent, -⟩ := holds
      exact absurd absent (meets.isComplete slot fields isReached field isField required)
    | found slot value =>
      cases slot with
      | program =>
        obtain rfl := Reached.eq_root holds rfl
        exact Place.defect?_program.mpr meets.isProgram
      | node =>
        cases value with
        | object fields => exact Place.defect?_node.mpr (meets.isKnown fields holds)
        | _ => rfl
      | kind =>
        cases value with
        | text name => exact Place.defect?_kind.mpr (meets.isKind name holds)
        | _ => rfl
      | literal =>
        cases value with
        | integer value => exact Place.defect?_literal.mpr (meets.isInRange value holds)
        | _ => rfl
      | lexeme => cases notLexeme
      | _ => rfl
  · intro sound
    have noDefect {slot : Slot} {value : Json} (isReached : json.Reached slot value)
        (notLexeme : slot ≠ .lexeme) : (Place.found slot value).defect? = none := by
      refine sound _ (reached_iff.mp isReached) ?_
      cases slot <;> first | rfl | exact absurd rfl notLexeme
    constructor
    case isProgram => exact Place.defect?_program.mp (noDefect .root (by decide))
    case isKnown =>
      exact fun fields isReached => Place.defect?_node.mp (noDefect isReached (by decide))
    case isComplete =>
      intro slot fields isReached field isField required absent
      have isPlace : .missing field.name ∈ (object fields).placesAt field := by
        unfold placesAt
        rw [absent, if_pos required]
        exact List.mem_cons_self
      have isAmong := places_subset (reached_iff.mp isReached) (placesAt_subset isField isPlace)
      cases sound _ isAmong rfl
    case isKind => exact fun name isReached => Place.defect?_kind.mp (noDefect isReached (by decide))
    case isInRange =>
      exact fun value isReached => Place.defect?_literal.mp (noDefect isReached (by decide))

/-- The lexemes of a tree have bytes where no place of one has a defect. -/
theorem lexemesHaveBytes_iff : json.LexemesHaveBytes ↔
    ∀ place ∈ json.places .program, place.isLexeme = true → place.defect? = none := by
  constructor
  · intro haveBytes place isPlace isLexeme
    cases place with
    | missing => cases isLexeme
    | found slot value =>
      cases slot with
      | lexeme =>
        cases value with
        | text lexeme =>
          exact Place.defect?_lexeme.mpr (haveBytes lexeme (reached_iff.mpr isPlace))
        | _ => rfl
      | _ => cases isLexeme
  · intro sound lexeme isReached
    exact Place.defect?_lexeme.mp (sound _ (reached_iff.mp isReached) rfl)

/-- Values are of the sort that their slots ask for where this holds in all places. -/
theorem fitsSlots_iff : json.FitsSlots ↔ ∀ place ∈ json.places .program, place.fits := by
  constructor
  · intro fits place isPlace
    cases place with
    | missing => rfl
    | found slot value => exact fits slot value (reached_iff.mpr isPlace)
  · exact fun fits slot value isReached => fits _ (reached_iff.mp isReached)

end Json

/-- A tree whose values are of the right sorts is loaded just if it meets the schema and its lexemes stand
for bytes. It fails with an error just if this is that of the first defect, where each object is read before
its fields and each field completely before the next. A tree that differs only in the order of fields and
in fields that are not read has the same result or the same error. -/
theorem loading_follows_schema (json : Json) (fits : json.FitsSlots) :
    ((∃ program, Program.load json = .ok program) ↔ json.MeetsSchema ∧ json.LexemesHaveBytes) ∧
    (∀ error, Program.load json = .error error ↔
      (json.places .program).findSome? Place.defect? = some error) ∧
    ∀ json', Json.Agree .program json json' → Program.load json' = Program.load json := by
  have first : LoadError.of? (Program.load json) = (json.places .program).findSome? Place.defect? :=
    Json.of?_load (Json.fitsSlots_iff.mp fits)
  refine ⟨?_, fun error => ?_, fun json' agree => agree.load_eq.symm⟩
  · rw [← LoadError.of?_eq_none_iff, first, List.findSome?_eq_none_iff, Json.meetsSchema_iff,
      Json.lexemesHaveBytes_iff]
    constructor
    · intro sound
      exact ⟨fun place isPlace _ => sound place isPlace, fun place isPlace _ => sound place isPlace⟩
    · rintro ⟨others, lexemes⟩ place isPlace
      cases isLexeme : place.isLexeme
      · exact others place isPlace isLexeme
      · exact lexemes place isPlace isLexeme
  · rw [← first, LoadError.of?_eq_some_iff]

/-- The stored declaration of a variable whose name has a lexeme, behind other fields of the program. -/
def storedDeclaration (others : List (Text × Json)) (lexeme : Text) : Json :=
  let name : Json :=
    .object [("kind", .text "IDENTIFIER"), ("lexeme", .text lexeme), ("line", .integer 1)]
  let statement : Json := .object [("type", .text "Var"), ("name", name)]
  let fields : List (Text × Json) := [("type", .text "Program"), ("body", .array [statement])]
  .object (others ++ fields)

/-- The declaration of `a` is loaded, and a field that is not read changes nothing. -/
theorem loading_follows_schema_declaration :
    (storedDeclaration [] "a").FitsSlots ∧
      (∃ program, Program.load (storedDeclaration [] "a") = .ok program) ∧
      Program.load (storedDeclaration [("note", .null)] "a") =
        Program.load (storedDeclaration [] "a") := by
  have fits : (storedDeclaration [] "a").FitsSlots := Json.fitsSlots_iff.mpr (by decide +kernel)
  have meets : (storedDeclaration [] "a").MeetsSchema := Json.meetsSchema_iff.mpr (by decide +kernel)
  have haveBytes : (storedDeclaration [] "a").LexemesHaveBytes :=
    Json.lexemesHaveBytes_iff.mpr (by decide +kernel)
  have agree : Json.Agree .program (storedDeclaration [] "a") (storedDeclaration [("note", .null)] "a") :=
    .symm (.unread (.inl rfl) [] .null _ (by decide +kernel) (by decide +kernel))
  obtain ⟨loaded, -, same⟩ := loading_follows_schema _ fits
  exact ⟨fits, loaded.mpr ⟨meets, haveBytes⟩, same _ agree⟩

/-- A tree with half of a surrogate pair for a lexeme meets the schema and is refused. -/
theorem half_of_pair_is_refused :
    let half : Symbol := .half ⟨0xd800, by decide⟩
    (storedDeclaration [] [half]).FitsSlots ∧ (storedDeclaration [] [half]).MeetsSchema ∧
      Program.load (storedDeclaration [] [half]) = .error (.bytes (.unwritable 0 half 1)) := by
  intro half
  have fits : ∀ place ∈ (storedDeclaration [] [half]).places .program, place.fits := by decide +kernel
  refine ⟨Json.fitsSlots_iff.mpr fits, Json.meetsSchema_iff.mpr (by decide +kernel), ?_⟩
  exact LoadError.of?_eq_some_iff.mp ((Json.of?_load fits).trans (by decide +kernel))

end Lox
