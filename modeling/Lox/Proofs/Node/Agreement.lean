import Lox.Proofs.Node.Fields
import Lox.Proofs.Text.Characters
import Mathlib.Data.List.Perm.Basic

/-!
# Stored trees that differ only in what is not read

An object is read by the names of its fields, and only those fields are read that its type has. So two
trees agree where one is made from the other by changing the order of fields, or by adding and removing
fields that are not read, in any places and as often as one likes.

Trees that agree are loaded as the same program or fail with the same error.
-/

namespace Lox

namespace Slot

variable {slot : Slot} {object : Json} {field field' : Field}

/-- The fields of an object are told apart by their names. -/
theorem eq_of_mem_fields (isField : field ∈ slot.fields object) (isField' : field' ∈ slot.fields object)
    (same : field.name = field'.name) : field = field' :=
  forall_fields (P := fun fields => ∀ field ∈ fields, ∀ field' ∈ fields,
      field.name = field'.name → field = field')
    (by decide) (fun shape => by cases shape <;> decide) (by decide) (by decide) slot object
    field isField field' isField' same

/-- No field that is read is the type. -/
theorem name_ne_type (isField : field ∈ slot.fields object) : field.name ≠ "type" :=
  forall_fields (P := fun fields => ∀ field ∈ fields, field.name ≠ "type")
    (by decide) (fun shape => by cases shape <;> decide) (by decide) (by decide) slot object
    field isField

/-- Only objects have fields that are read. -/
theorem isObject_of_mem_fields (isField : field ∈ slot.fields object) : slot.IsObject := by
  cases slot with
  | program => exact .inl rfl
  | node => exact .inr (.inl rfl)
  | token => exact .inr (.inr rfl)
  | _ => cases isField

end Slot

namespace Json

variable {fields fields' before after : List (Text × Json)} {name other : Text} {value : Json}

/-- Of two parts of an object the later has precedence. -/
theorem field?_append : (object (fields ++ fields')).field? name =
    ((object fields').field? name).or ((object fields).field? name) := by
  simp only [field?, List.reverse_append, List.lookup_append]

/-- A field has its value unless a later one has the same name. -/
theorem field?_insert : (object (before ++ (other, value) :: after)).field? name =
    ((object after).field? name).or
      (if name = other then some value else (object before).field? name) := by
  rw [← List.singleton_append, field?_append, field?_append, Option.or_assoc]
  congr 1
  by_cases same : name = other
  · simp [field?, same]
  · simp [field?, List.lookup_cons, beq_eq_false_iff_ne.mpr same, same]

/-- Where all names are different a field has the value that stands behind its name. -/
theorem field?_eq_some_iff (distinct : (fields.map Prod.fst).Nodup) :
    (object fields).field? name = some value ↔ (name, value) ∈ fields := by
  refine ⟨mem_of_field?, fun isField => ?_⟩
  obtain ⟨before, after, rfl⟩ := List.append_of_mem isField
  rw [List.map_append, List.map_cons] at distinct
  have notLater : name ∉ after.map Prod.fst :=
    (List.nodup_cons.mp (List.nodup_append.mp distinct).2.1).1
  have noLater : (object after).field? name = none := by
    refine List.lookup_eq_none_iff.mpr fun field isLater => bne_iff_ne.mpr ?_
    rintro rfl
    exact notLater (List.mem_map_of_mem (List.mem_reverse.mp isLater))
  rw [field?_insert, noLater, if_pos rfl, Option.none_or]

/-- The order of fields with different names does not matter. -/
theorem field?_perm (distinct : (fields.map Prod.fst).Nodup) (reordered : fields.Perm fields') :
    (object fields).field? name = (object fields').field? name := by
  have distinct' : (fields'.map Prod.fst).Nodup := (reordered.map _).nodup distinct
  refine Option.ext fun value => ?_
  rw [field?_eq_some_iff distinct, field?_eq_some_iff distinct', reordered.mem_iff]

/-- Two JSON values agree in a slot: they differ only in the order of fields, and in fields that are not
read. -/
inductive Agree : Slot → Json → Json → Prop where
  | refl (slot : Slot) (json : Json) : Agree slot json json
  | symm {slot : Slot} {json json' : Json} (first : Agree slot json json') : Agree slot json' json
  | trans {slot : Slot} {json json' json'' : Json} (first : Agree slot json json')
      (second : Agree slot json' json'') : Agree slot json json''
  | order {slot : Slot} {fields fields' : List (Text × Json)}
      (distinct : (fields.map Prod.fst).Nodup) (reordered : fields.Perm fields') :
      Agree slot (.object fields) (.object fields')
  | unread {slot : Slot} (isObject : slot.IsObject) (before : List (Text × Json)) {name : Text}
      (value : Json) (after : List (Text × Json)) (noType : name ≠ ("type" : Text))
      (noField : ∀ field ∈ slot.fields (.object (before ++ after)), name ≠ field.name) :
      Agree slot (.object (before ++ (name, value) :: after)) (.object (before ++ after))
  | field {slot : Slot} {field : Field} (before : List (Text × Json)) {value value' : Json}
      (after : List (Text × Json))
      (isField : field ∈ slot.fields (.object (before ++ ((field.name : Text), value) :: after)))
      (inside : Agree field.slot value value') :
      Agree slot (.object (before ++ ((field.name : Text), value) :: after))
        (.object (before ++ ((field.name : Text), value') :: after))
  | item {slot item : Slot} (isItem : slot.item? = some item) (before : List Json) {value value' : Json}
      (after : List Json) (inside : Agree item value value') :
      Agree slot (.array (before ++ value :: after)) (.array (before ++ value' :: after))

end Json

namespace Field

variable {field : Field} {object object' : Json}

/-- A field is read alike where it has the same value. -/
theorem read_congr (same : object.field? field.name = object'.field? field.name) :
    field.read object = field.read object' := by
  unfold read
  rw [same]

end Field

/-- Where objects have the same fields the same is loaded from them, whatever they are taken for. -/
theorem Slot.load_of_field? {slot : Slot} {fields fields' : List (Text × Json)}
    (same : ∀ name, (Json.object fields).field? name = (Json.object fields').field? name) :
    slot.load (.object fields) = slot.load (.object fields') := by
  have asObject {slot : Slot} (isObject : slot.IsObject) :=
    Slot.load_congr isObject (same "type") fun field _ => Field.read_congr (same field.name)
  cases slot with
  | program => exact asObject (.inl rfl)
  | node => exact asObject (.inr (.inl rfl))
  | nodes =>
    have asNode : Node.load _ = Node.load _ := asObject (.inr (.inl rfl))
    rw [load, load, Node.loadItems, asNode]
    rfl
  | token => exact asObject (.inr (.inr rfl))
  | _ => rfl

/-- Where an item of an array is loaded alike, so is the array. -/
theorem Slot.load_of_item {slot item : Slot} (isItem : slot.item? = some item) (before : List Json)
    {value value' : Json} (after : List Json) (same : item.load value = item.load value') :
    slot.load (.array (before ++ value :: after)) = slot.load (.array (before ++ value' :: after)) := by
  have sameList {α : Type} {loadItem : Json → Except LoadError α}
      (same : loadItem value = loadItem value') :
      (before ++ value :: after).mapM loadItem = (before ++ value' :: after).mapM loadItem := by
    rw [List.mapM_append, List.mapM_append, List.mapM_cons, List.mapM_cons, same]
  have asNodes (same : Node.load value = Node.load value') :
      Node.load (.array (before ++ value :: after)) = Node.load (.array (before ++ value' :: after)) := by
    rw [Node.load, Node.load, Node.loadList_eq_mapM, Node.loadList_eq_mapM, sameList same]
  cases slot with
  | node =>
    cases isItem
    exact asNodes same
  | nodes =>
    cases isItem
    rw [load, load, Node.loadItems, asNodes same]
    rfl
  | tokens =>
    cases isItem
    exact sameList same
  | _ => cases isItem

/-- What agrees is loaded alike. -/
theorem Json.Agree.load_eq {slot : Slot} {json json' : Json} (agree : Agree slot json json') :
    slot.load json = slot.load json' := by
  induction agree with
  | refl => rfl
  | symm _ ih => exact ih.symm
  | trans _ _ ih ih' => exact ih.trans ih'
  | order distinct reordered => exact Slot.load_of_field? fun name => field?_perm distinct reordered
  | unread isObject before value after noType noField =>
    refine (Slot.load_congr isObject ?_ fun field isField => Field.read_congr ?_).symm
    · rw [field?_insert, if_neg noType.symm, field?_append]
    · rw [field?_insert, if_neg (noField field isField).symm, field?_append]
  | @field slot field before value value' after isField inside ih =>
    have elsewhere {name : Text} (differs : name ≠ field.name) :
        (object (before ++ ((field.name : Text), value) :: after)).field? name =
          (object (before ++ ((field.name : Text), value') :: after)).field? name := by
      rw [field?_insert, field?_insert, if_neg differs, if_neg differs]
    refine Slot.load_congr (Slot.isObject_of_mem_fields isField) (elsewhere ?_) fun other isOther => ?_
    · exact fun isType => Slot.name_ne_type isField (Text.ofString_inj.mp isType).symm
    · by_cases same : other.name = field.name
      · cases Slot.eq_of_mem_fields isOther isField same
        unfold Field.read
        rw [field?_insert, field?_insert, if_pos rfl, if_pos rfl]
        -- A later field of the same name counts instead, and it is the same in both.
        cases (object after).field? field.name with
        | none => exact ih
        | some later => rfl
      · exact Field.read_congr (elsewhere fun sameText => same (Text.ofString_inj.mp sameText))
  | item isItem before after inside ih => exact Slot.load_of_item isItem before after ih

end Lox
