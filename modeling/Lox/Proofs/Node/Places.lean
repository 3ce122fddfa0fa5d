import Lox.Proofs.Node.Fields
import Lox.Proofs.Number.Range

/-!
# The places of stored trees

Reading a stored tree comes to one place after the other: to each object or array before what is in it, and
to what a field or an item holds completely before the next. A field that is missing has a place too, if it
has to be there.

Each place is in order or has a defect, which depends on this place alone. Where no value is of a wrong sort
for its slot, loading fails for the first defect that reading comes to, and succeeds if it comes to none.
-/

namespace Lox

/-- A place that reading a tree comes to: a required field that is missing, or a value in a slot. -/
inductive Place where
  | missing (name : String)
  | found (slot : Slot) (value : Json)

namespace Json

/-- What holds of the items of an array and of the values of fields holds of all JSON values, if it holds of
those without items and fields. -/
theorem induction {motive : Json → Prop} (null : motive .null) (bool : ∀ value, motive (.bool value))
    (integer : ∀ value, motive (.integer value)) (number : ∀ value, motive (.number value))
    (text : ∀ value, motive (.text value))
    (array : ∀ items, (∀ item ∈ items, motive item) → motive (.array items))
    (object : ∀ fields, (∀ field ∈ fields, motive field.2) → motive (.object fields)) (json : Json) :
    motive json :=
  @rec motive (fun items => ∀ item ∈ items, motive item) (fun fields => ∀ field ∈ fields, motive field.2)
    (fun field => motive field.2) null bool integer number text array object nofun
    (fun _ _ first rest => List.forall_mem_cons.mpr ⟨first, rest⟩) nofun
    (fun _ _ first rest => List.forall_mem_cons.mpr ⟨first, rest⟩) (fun _ _ value => value) json

mutual

/-- The places of a JSON value in a slot, in the order in which they are read. -/
def places : Json → Slot → List Place
  | .array items, slot =>
    .found slot (.array items) ::
      match slot.item? with
      | some item => placesOfItems items item
      | none => []
  | .object fields, slot =>
    .found slot (.object fields) ::
      (slot.fields (.object fields)).flatMap fun field =>
        match (placesOfFields fields).reverse.lookup (field.name : Text) with
        | some inside => inside field.slot
        | none => if field.required then [.missing field.name] else []
  | json, slot => [.found slot json]

/-- The places of some items. -/
def placesOfItems : List Json → Slot → List Place
  | [], _ => []
  | item :: items, slot => item.places slot ++ placesOfItems items slot

/-- The places of what the fields of an object hold. -/
def placesOfFields : List (Text × Json) → List (Text × (Slot → List Place))
  | [] => []
  | (name, value) :: fields => (name, value.places) :: placesOfFields fields

end

/-- The places of a field. -/
def placesAt (object : Json) (field : Field) : List Place :=
  match object.field? field.name with
  | some value => value.places field.slot
  | none => if field.required then [.missing field.name] else []

variable {fields : List (Text × Json)} {items : List Json} {slot : Slot}

/-- The places of an object are its own and those of its fields. -/
theorem places_object : (object fields).places slot =
    .found slot (.object fields) ::
      (slot.fields (.object fields)).flatMap (placesAt (.object fields)) := by
  have mapped : placesOfFields fields = fields.map fun field => (field.1, field.2.places) := by
    induction fields with
    | nil => rfl
    | cons field fields ih => rw [placesOfFields, ih, List.map_cons]
  rw [places]
  congr 2
  funext field
  rw [mapped, lookup_map, placesAt]
  cases (object fields).field? field.name <;> rfl

/-- The places of an array are its own and those of its items. -/
theorem places_array : (array items).places slot =
    .found slot (.array items) ::
      match slot.item? with
      | some item => items.flatMap fun value => value.places item
      | none => [] := by
  have each (item : Slot) :
      placesOfItems items item = items.flatMap fun value => value.places item := by
    induction items with
    | nil => rfl
    | cons value items ih => rw [placesOfItems, ih, List.flatMap_cons]
  rw [places]
  cases slot.item? with
  | none => rfl
  | some item => simp only [each]

/-- The first place of a JSON value is its own. -/
theorem mem_places_self (json : Json) (slot : Slot) : .found slot json ∈ json.places slot := by
  cases json with
  | array => exact List.mem_cons_self
  | object => exact List.mem_cons_self
  | _ => exact List.mem_singleton.mpr rfl

/-- What reading a tree comes to, from the root through fields and items. -/
inductive Reached (root : Json) : Slot → Json → Prop where
  | root : Reached root .program root
  | field {slot : Slot} {object value : Json} {field : Field} (isReached : Reached root slot object)
      (isField : field ∈ slot.fields object) (isValue : object.field? field.name = some value) :
      Reached root field.slot value
  | item {slot item : Slot} {items : List Json} {value : Json}
      (isReached : Reached root slot (.array items)) (isItem : slot.item? = some item)
      (isValue : value ∈ items) : Reached root item value

/-- What a place says of a tree: that reading comes to a value there, or to an object without a field that
it has to have. -/
def Holds (root : Json) : Place → Prop
  | .found slot value => root.Reached slot value
  | .missing name => ∃ slot fields field, root.Reached slot (.object fields) ∧
      field ∈ slot.fields (.object fields) ∧ field.required = true ∧
      (object fields).field? field.name = none ∧ field.name = name

variable {root json value : Json}

/-- Reading comes to the places of what it comes to. -/
theorem holds_of_mem_places (isReached : root.Reached slot json) {place : Place}
    (isPlace : place ∈ json.places slot) : root.Holds place := by
  induction json using induction generalizing slot place with
  | array items ih =>
    rw [places_array, List.mem_cons] at isPlace
    obtain rfl | isInside := isPlace
    · exact isReached
    · split at isInside
      · next item isItem =>
        obtain ⟨value, isValue, isInside⟩ := List.mem_flatMap.mp isInside
        exact ih value isValue (.item isReached isItem isValue) isInside
      · cases isInside
  | object fields ih =>
    rw [places_object, List.mem_cons] at isPlace
    obtain rfl | isInside := isPlace
    · exact isReached
    · obtain ⟨field, isField, isInside⟩ := List.mem_flatMap.mp isInside
      unfold placesAt at isInside
      split at isInside
      · next value isValue =>
        exact ih _ (mem_of_field? isValue) (.field isReached isField isValue) isInside
      · next absent =>
        split at isInside
        · next required =>
          rw [List.mem_singleton.mp isInside]
          exact ⟨slot, _, field, isReached, isField, required, absent, rfl⟩
        · cases isInside
  | _ =>
    rw [List.mem_singleton.mp isPlace]
    exact isReached

/-- The places of a field are among those of its object. -/
theorem placesAt_subset {field : Field} (isField : field ∈ slot.fields (.object fields)) :
    (object fields).placesAt field ⊆ (object fields).places slot := by
  rw [places_object]
  exact fun place isPlace => List.mem_cons_of_mem _ (List.mem_flatMap.mpr ⟨field, isField, isPlace⟩)

/-- The places of what stands in a place are among those around it. -/
theorem places_subset {inner : Slot} (isPlace : .found inner value ∈ json.places slot) :
    value.places inner ⊆ json.places slot := by
  induction json using induction generalizing slot with
  | array items ih =>
    rw [places_array, List.mem_cons] at isPlace
    obtain isSame | isInside := isPlace
    · cases isSame
      exact List.Subset.refl _
    · rw [places_array]
      refine List.subset_cons_of_subset _ ?_
      split at isInside
      · next item isItem =>
        obtain ⟨value', isValue, isInside⟩ := List.mem_flatMap.mp isInside
        exact fun place isPlace =>
          List.mem_flatMap.mpr ⟨value', isValue, ih value' isValue isInside isPlace⟩
      · cases isInside
  | object fields ih =>
    rw [places_object, List.mem_cons] at isPlace
    obtain isSame | isInside := isPlace
    · cases isSame
      exact List.Subset.refl _
    · obtain ⟨field, isField, isInside⟩ := List.mem_flatMap.mp isInside
      refine List.Subset.trans ?_ (placesAt_subset isField)
      unfold placesAt at isInside ⊢
      split at isInside
      · next value' isValue => exact ih _ (mem_of_field? isValue) isInside
      · split at isInside
        · cases List.mem_singleton.mp isInside
        · cases isInside
  | _ =>
    cases List.mem_singleton.mp isPlace
    exact List.Subset.refl _

/-- Reading comes to just the values that have a place. -/
theorem reached_iff : root.Reached slot value ↔ .found slot value ∈ root.places .program := by
  refine ⟨fun isReached => ?_, holds_of_mem_places .root⟩
  induction isReached with
  | root => exact mem_places_self root .program
  | @field slot object value field _ isField isValue ih =>
    cases object with
    | object fields =>
      refine places_subset ih (placesAt_subset isField ?_)
      unfold placesAt
      rw [isValue]
      exact mem_places_self value field.slot
    | _ => cases isValue
  | @item slot item items value _ isItem isValue ih =>
    refine places_subset ih ?_
    rw [places_array, isItem]
    exact List.mem_cons_of_mem _ (List.mem_flatMap.mpr ⟨value, isValue, mem_places_self value item⟩)

end Json

/-- The first that is found in lists put together is the first found in any of them. -/
theorem findSome?_flatMap {α β γ : Type} {items : List α} {spread : α → List β} {find : β → Option γ}
    {findIn : α → Option γ} (same : ∀ item ∈ items, findIn item = (spread item).findSome? find) :
    items.findSome? findIn = (items.flatMap spread).findSome? find := by
  induction items with
  | nil => rfl
  | cons item items ih =>
    rw [List.forall_mem_cons] at same
    rw [List.flatMap_cons, List.findSome?_append, List.findSome?_cons, ← same.1, ← ih same.2]
    cases findIn item <;> rfl

namespace LoadError

variable {α β : Type}

/-- The error of a result. -/
def of? : Except LoadError α → Option LoadError
  | .ok _ => none
  | .error error => some error

/-- A result is an error where it has this error. -/
theorem of?_eq_some_iff {result : Except LoadError α} {error : LoadError} :
    of? result = some error ↔ result = .error error := by
  cases result <;> simp [of?]

/-- A result without an error is a success. -/
theorem of?_eq_none_iff {result : Except LoadError α} :
    of? result = none ↔ ∃ value, result = .ok value := by
  cases result <;> simp [of?]

/-- What is made of a success makes no difference to the error. -/
theorem of?_map (make : α → β) (result : Except LoadError α) : of? (make <$> result) = of? result := by
  cases result <;> rfl

/-- Loading items fails for the first that cannot be loaded. -/
theorem of?_mapM (load : Json → Except LoadError α) (items : List Json) :
    of? (items.mapM load) = items.findSome? fun item => of? (load item) := by
  induction items with
  | nil => rfl
  | cons item items ih =>
    rw [List.mapM_cons, List.findSome?_cons, ← ih]
    cases load item with
    | error => rfl
    | ok value => cases items.mapM load <;> rfl

/-- Reading fields fails for the first that cannot be read. -/
theorem of?_readAll (object : Json) (fields : List Field) :
    of? (Field.readAll object fields) = fields.findSome? fun field => of? (field.read object) := by
  induction fields with
  | nil => rfl
  | cons field fields ih =>
    rw [Field.readAll, List.findSome?_cons, ← ih]
    cases field.read object with
    | error => rfl
    | ok value => cases Field.readAll object fields <;> rfl

end LoadError

/-- Whether the type of an object is a text, if it has one. -/
def Json.hasTextType (object : Json) : Bool :=
  match object.field? "type" with
  | none | some (.text _) => true
  | _ => false

/-- Whether a value is of the sort that a slot asks for. -/
def Slot.fits : Slot → Json → Bool
  | .program, .object fields | .node, .object fields => (Json.object fields).hasTextType
  | .node, .null | .node, .array _ | .nodes, .array _ | .tokens, .array _ => true
  | .token, .object _ | .kind, .text _ | .lexeme, .text _ | .line, .integer _ => true
  | .literal, .null | .literal, .bool _ | .literal, .integer _ | .literal, .number _
  | .literal, .text _ => true
  | _, _ => false

/-- Whether the value of a place is of the sort that its slot asks for. -/
def Place.fits : Place → Bool
  | .missing _ => true
  | .found slot value => slot.fits value

/-- The defect of a place, if it has one. -/
def Place.defect? : Place → Option LoadError
  | .missing name => some (.missing name)
  | .found .program object =>
    if object.type? = some ("Program" : Text) then none else some .notProgram
  | .found .node (.object fields) =>
    let type := (Json.object fields).type?
    if (type.bind Shape.ofName?).isSome then none else some (.unknownType (type.getD "None"))
  | .found .kind (.text name) => if (Kind.ofName? name).isSome then none else some (.unknownKind name)
  | .found .lexeme (.text lexeme) => lexeme.byteError?.map .bytes
  | .found .literal (.integer value) =>
    if Number.firstInfinite ≤ value.natAbs then some .integerTooLarge else none
  | .found _ _ => none

section

variable {fields : List (Text × Json)} {items : List Json} {slot : Slot}

/-- An object is shown by its type where that is a text, and as having none otherwise. -/
theorem Json.shownType_eq {object : Json} (isText : object.hasTextType) :
    Json.shownType (object.field? "type") = object.type?.getD "None" := by
  unfold hasTextType at isText
  unfold type?
  cases isType : object.field? "type" with
  | none => rfl
  | some type =>
    rw [isType] at isText
    cases type with
    | text => rfl
    | _ => cases isText

/-- Loading an object fails for its own defect, or else for the first field that cannot be read. -/
theorem Slot.of?_load_object (fits : slot.fits (.object fields)) :
    LoadError.of? (slot.load (.object fields)) =
      ((Place.found slot (.object fields)).defect?.or <|
        (slot.fields (.object fields)).findSome? fun field =>
          LoadError.of? (field.read (.object fields))) := by
  cases slot with
  | program =>
    rw [load, Program.load_eq_read, Place.defect?, Slot.fields]
    split <;> simp [Program.fields, LoadError.of?]
  | node =>
    rw [load, Node.load_eq_readAll, Place.defect?, Json.shownType_eq fits, Slot.fields]
    cases (Json.object fields).type?.bind Shape.ofName? with
    | none => rfl
    | some shape => simp [LoadError.of?_map, LoadError.of?_readAll]
  | token =>
    rw [load, Token.load_eq_readAll, LoadError.of?_map, LoadError.of?_readAll]
    rfl
  | _ => cases fits

/-- Loading an array fails for the first item that cannot be loaded. -/
theorem Slot.of?_load_array (fits : slot.fits (.array items)) :
    ∃ item, slot.item? = some item ∧ LoadError.of? (slot.load (.array items)) =
      items.findSome? fun value => LoadError.of? (item.load value) := by
  have nodes : LoadError.of? (Node.load (.array items)) =
      items.findSome? fun value => LoadError.of? (Node.load value) := by
    rw [Node.load, Node.loadList_eq_mapM, LoadError.of?_map, LoadError.of?_mapM]
  cases slot with
  | node => exact ⟨.node, rfl, nodes⟩
  | nodes =>
    refine ⟨.node, rfl, Eq.trans ?_ nodes⟩
    rw [load, Node.loadItems, Node.load]
    cases Node.loadList items <;> rfl
  | tokens => exact ⟨.token, rfl, LoadError.of?_mapM Token.load items⟩
  | _ => cases fits

/-- Loading a value without items and fields fails for the defect of its place. -/
theorem Slot.of?_load_leaf {json : Json} (noArray : ∀ items, json ≠ .array items)
    (noObject : ∀ fields, json ≠ .object fields) (fits : slot.fits json) :
    LoadError.of? (slot.load json) = (Place.found slot json).defect? := by
  cases json with
  | null =>
    cases slot with
    | node | literal => rfl
    | _ => cases fits
  | bool value =>
    cases slot with
    | literal => rfl
    | _ => cases fits
  | integer value =>
    cases slot with
    | line => rfl
    | literal =>
      simp only [load, Literal.load, Place.defect?, ← Number.ofInt?_eq_none_iff]
      cases Number.ofInt? value <;> rfl
    | _ => cases fits
  | number value =>
    cases slot with
    | literal => rfl
    | _ => cases fits
  | text value =>
    cases slot with
    | kind =>
      rw [load, Kind.load, Place.defect?]
      cases Kind.ofName? value <;> rfl
    | lexeme =>
      rw [load, Json.lexemeBytes, Place.defect?]
      cases value.byteError? <;> rfl
    | literal => rfl
    | _ => cases fits
  | array items => exact absurd rfl (noArray items)
  | object fields => exact absurd rfl (noObject fields)

/-- Where no value is of a wrong sort, loading fails for the first defect that reading comes to. -/
theorem Json.of?_load {json : Json} (fits : ∀ place ∈ json.places slot, place.fits) :
    LoadError.of? (slot.load json) = (json.places slot).findSome? Place.defect? := by
  have ownFits : slot.fits json := fits _ (mem_places_self json slot)
  induction json using Json.induction generalizing slot with
  | array items ih =>
    obtain ⟨item, isItem, first⟩ := Slot.of?_load_array ownFits
    have isPlaces : (Json.array items).places slot =
        .found slot (.array items) :: items.flatMap fun value => value.places item := by
      rw [places_array, isItem]
    have noDefect : (Place.found slot (.array items)).defect? = none := by
      cases slot <;> first | rfl | cases ownFits
    rw [isPlaces] at fits ⊢
    rw [first, List.findSome?_cons, noDefect]
    refine findSome?_flatMap fun value isValue => ?_
    have inside : ∀ place ∈ value.places item, place.fits := fun place isPlace =>
      fits place (List.mem_cons_of_mem _ (List.mem_flatMap.mpr ⟨value, isValue, isPlace⟩))
    exact ih value isValue inside (inside _ (mem_places_self value item))
  | object fields ih =>
    rw [Slot.of?_load_object ownFits, places_object, List.findSome?_cons]
    -- Where the object itself has a defect, no field of it is read.
    cases (Place.found slot (.object fields)).defect? with
    | some error => rfl
    | none =>
      refine findSome?_flatMap fun field isField => ?_
      have inside := fun place isPlace => fits place (placesAt_subset isField isPlace)
      unfold Field.read placesAt at *
      cases isValue : (object fields).field? field.name with
      | none => cases field.required <;> rfl
      | some value =>
        rw [isValue] at inside
        exact ih _ (mem_of_field? isValue) inside (inside _ (mem_places_self value field.slot))
  | _ =>
    have own := Slot.of?_load_leaf (by simp) (by simp) ownFits
    exact own.trans List.findSome?_singleton.symm

end

end Lox
