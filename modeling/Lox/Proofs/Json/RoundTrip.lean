import Lox.Proofs.Json.Numbers
import Lox.Proofs.Json.Strings

/-!
# Written values are read back

Reading the text of a value gives the value, in either layout: numbers and strings come back
exactly, and the blanks of a layout only stand where the reader passes over them. Only integers
with too many digits are refused, so a value is read back where it holds none.

The reader's fuel counts steps. A step that takes no symbol is followed by one that does, so twice
the length of a value's text is enough for it.
-/

namespace Lox.Json

mutual

/-- The integers of a value, in the order in which they are written. -/
def integers : Json → List Int
  | .integer value => [value]
  | .array items => integersOfItems items
  | .object fields => integersOfFields fields
  | .null | .bool _ | .number _ | .text _ => []

/-- The integers of some items. -/
def integersOfItems : List Json → List Int
  | [] => []
  | item :: rest => item.integers ++ integersOfItems rest

/-- The integers of some fields. -/
def integersOfFields : List (Text × Json) → List Int
  | [] => []
  | (_, value) :: rest => value.integers ++ integersOfFields rest

end

/-- Integers that the reader does not refuse. -/
def AreShort (integers : List Int) : Prop :=
  ∀ value ∈ integers, value.natAbs < 10 ^ maxDigits

section Blanks

variable (layout : Layout) (depth : Nat) (source : Text)

/-- Passing over blanks passes over the blanks of a layout. -/
theorem skipBlanks_lineBreak : skipBlanks (layout.lineBreak depth ++ source) = skipBlanks source := by
  cases layout with
  | compact => rfl
  | indented =>
    have blanks (count : Nat) :
        skipBlanks (List.replicate count (.char ' ') ++ source) = skipBlanks source := by
      induction count with
      | zero => rfl
      | succ count ih => exact ih
    exact blanks _

/-- A colon is found, and what stands between it and a value is passed over. -/
theorem skipBlanks_colon :
    ∃ after, skipBlanks (layout.colon ++ source) = .char ':' :: after ∧
      skipBlanks after = skipBlanks source := by
  cases layout with
  | compact => exact ⟨source, rfl, rfl⟩
  | indented => exact ⟨.char ' ' :: source, rfl, rfl⟩

/-- A value is read in the same way behind blanks. -/
theorem readValue_congr {source other : Text} (same : skipBlanks source = skipBlanks other)
    (fuel : Nat) : readValue fuel source = readValue fuel other := by
  cases fuel with
  | zero => rfl
  | succ fuel => rw [readValue, readValue, same]

/-- Items are read in the same way behind blanks. -/
theorem readItems_congr {source other : Text} (same : skipBlanks source = skipBlanks other)
    (fuel : Nat) : readItems fuel source = readItems fuel other := by
  cases fuel with
  | zero => rfl
  | succ fuel => rw [readItems, readItems, readValue_congr same]

/-- Fields are read in the same way behind blanks. -/
theorem readFields_congr {source other : Text} (same : skipBlanks source = skipBlanks other)
    (fuel : Nat) : readFields fuel source = readFields fuel other := by
  cases fuel with
  | zero => rfl
  | succ fuel => rw [readFields, readFields, same]

end Blanks

section Scalars

variable (layout : Layout) (depth : Nat) {rest : Text}

/-- The values without parts that are no strings. -/
def isScalar : Json → Bool
  | .null | .bool _ | .integer _ | .number _ => true
  | .text _ | .array _ | .object _ => false

/-- The characters with which the texts of such values begin. -/
def startsScalar (first : Char) : Bool :=
  first.isDigit || first ∈ ['-', 'n', 't', 'f', 'N', 'I']

/-- A magnitude begins with its sign or with its first digit. -/
theorem signed_eq_cons (negative : Bool) {magnitude others : List Char} {digit : Char}
    (isCons : magnitude = digit :: others) (starts : startsScalar digit) :
    ∃ first tail, Number.signed negative magnitude = .char first :: tail ∧ startsScalar first := by
  cases negative with
  | false => exact ⟨digit, _, by rw [isCons]; rfl, starts⟩
  | true => exact ⟨'-', _, rfl, rfl⟩

/-- The text of a scalar begins with one of these characters. -/
theorem render_scalar_eq_cons {json : Json} (scalar : json.isScalar) :
    ∃ first tail, render layout depth json = .char first :: tail ∧ startsScalar first := by
  match json with
  | .null => exact ⟨'n', _, rfl, rfl⟩
  | .bool true => exact ⟨'t', _, rfl, rfl⟩
  | .bool false => exact ⟨'f', _, rfl, rfl⟩
  | .integer (.ofNat n) =>
    obtain ⟨digit, others, isCons, isDigit⟩ := toDigits_eq_cons n
    exact signed_eq_cons false isCons (by simp [startsScalar, isDigit])
  | .integer (.negSucc n) => exact ⟨'-', _, rfl, rfl⟩
  | .number .nan => exact ⟨'N', _, rfl, rfl⟩
  | .number (.infinite negative) => exact signed_eq_cons negative rfl rfl
  | .number (.finite negative code) =>
    obtain ⟨numeral, text, -⟩ := Number.exists_numeral code.val
    obtain ⟨digit, others, isCons, isDigit⟩ := numeral.text_eq_cons
    exact signed_eq_cons negative (text.trans isCons) (by simp [startsScalar, isDigit])

/-- The text of a scalar is read as that scalar. -/
theorem readScalar_render {json : Json} (scalar : json.isScalar) (short : AreShort json.integers)
    (ends : EndsNumber rest) :
    readScalar (render layout depth json ++ rest) = .ok (json, rest) := by
  match json with
  | .null => rfl
  | .bool true => rfl
  | .bool false => rfl
  | .integer value => exact readScalar_ofInt (short value List.mem_cons_self) ends
  | .number value => exact readScalar_storedText value ends

/-- No blank stands before a scalar. -/
theorem skipBlanks_scalar {first : Char} (starts : startsScalar first) :
    skipBlanks (.char first :: rest) = .char first :: rest := by
  have differs (other : Char) (isOther : startsScalar other = false) : first ≠ other := by
    rintro rfl
    rw [starts] at isOther
    cases isOther
  have noBlank : isBlank (.char first) = false := by
    simp [isBlank, differs ' ' rfl, differs '\n' rfl, differs '\t' rfl, differs '\r' rfl]
  exact List.dropWhile_cons_of_neg (by simp [noBlank])

/-- What begins like a scalar is read as one. -/
theorem readValue_scalar {first : Char} (starts : startsScalar first) (fuel : Nat) :
    readValue (fuel + 1) (.char first :: rest) = readScalar (.char first :: rest) := by
  have differs {other : Char} {after : Text}
      (same : (.char first :: rest : Text) = .char other :: after) : startsScalar other :=
    Symbol.char.inj (List.cons.inj same).1 ▸ starts
  rw [readValue, skipBlanks_scalar starts]
  split
  · next same => cases differs same
  · next same => cases differs same
  · next same => cases differs same
  · rfl

/-- The text of a scalar is read as that scalar where a value is read. -/
theorem readValue_scalar_render {json : Json} (scalar : json.isScalar)
    (short : AreShort json.integers) (ends : EndsNumber rest) {fuel : Nat}
    (enough : 2 * (render layout depth json).length ≤ fuel) :
    readValue fuel (render layout depth json ++ rest) = .ok (json, rest) := by
  obtain ⟨first, tail, isCons, starts⟩ := render_scalar_eq_cons layout depth scalar
  have isRead := readScalar_render layout depth scalar short ends
  rw [isCons] at enough isRead ⊢
  obtain ⟨fuel, rfl⟩ : ∃ less, fuel = less + 1 :=
    ⟨fuel - 1, by rw [List.length_cons] at enough; omega⟩
  exact (readValue_scalar starts fuel).trans isRead

end Scalars

section Parts

variable (layout : Layout) (depth : Nat)

/-- The text of items with commas between them. -/
def itemsText : List Json → Text
  | [] => []
  | item :: rest => render layout depth item ++ renderItems layout depth rest

/-- The text of fields with commas between them. -/
def fieldsText : List (Text × Json) → Text
  | [] => []
  | (name, value) :: rest =>
    quoted name ++ (layout.colon ++ (render layout depth value ++ renderFields layout depth rest))

/-- The text of an array that is not empty. -/
theorem render_array (item : Json) (others : List Json) :
    render layout depth (.array (item :: others)) =
      .char '[' :: (layout.lineBreak (depth + 1) ++
        (itemsText layout (depth + 1) (item :: others) ++ (layout.lineBreak depth ++ [.char ']']))) := by
  rw [render, itemsText]
  simp only [List.cons_append, List.append_assoc]

/-- The text of an object that is not empty. -/
theorem render_object (field : Text × Json) (others : List (Text × Json)) :
    render layout depth (.object (field :: others)) =
      .char '\x7b' :: (layout.lineBreak (depth + 1) ++
        (fieldsText layout (depth + 1) (field :: others) ++
          (layout.lineBreak depth ++ [.char '\x7d']))) := by
  rw [render, fieldsText]
  simp only [List.cons_append, List.append_assoc]

/-- The text of items behind another one. -/
theorem renderItems_cons (item : Json) (others : List Json) :
    renderItems layout depth (item :: others) =
      .char ',' :: (layout.lineBreak depth ++ itemsText layout depth (item :: others)) := by
  rw [renderItems, itemsText]
  simp only [List.cons_append, List.append_assoc]

/-- The text of fields behind another one. -/
theorem renderFields_cons (field : Text × Json) (others : List (Text × Json)) :
    renderFields layout depth (field :: others) =
      .char ',' :: (layout.lineBreak depth ++ fieldsText layout depth (field :: others)) := by
  rw [renderFields, fieldsText]
  simp only [List.cons_append, List.append_assoc]

variable {rest : Text}

/-- Commas, brackets and line breaks end a number. -/
theorem endsNumber_cons {c : Char} (isEnd : c ∈ [',', ']', '\x7d', '\n']) :
    EndsNumber (.char c :: rest) := by
  have same {other : Char} (isFirst : List.head? (.char c :: rest) = some (.char other)) :
      c = other :=
    Symbol.char.inj (Option.some.inj isFirst)
  simp only [List.mem_cons, List.not_mem_nil, or_false] at isEnd
  refine ⟨fun other isFirst => ?_, fun other isFirst => ?_⟩ <;> rw [← same isFirst] <;>
    obtain rfl | rfl | rfl | rfl := isEnd <;> decide

/-- The end of an array or object ends a number. -/
theorem endsNumber_lineBreak {c : Char} (isEnd : c ∈ [',', ']', '\x7d', '\n']) :
    EndsNumber (layout.lineBreak depth ++ .char c :: rest) := by
  cases layout with
  | compact => exact endsNumber_cons isEnd
  | indented => exact endsNumber_cons (by decide)

/-- Further items end a number. -/
theorem endsNumber_renderItems (items : List Json) (ends : EndsNumber rest) :
    EndsNumber (renderItems layout depth items ++ rest) := by
  cases items with
  | nil => exact ends
  | cons item items =>
    rw [renderItems_cons]
    exact endsNumber_cons (by decide)

/-- Further fields end a number. -/
theorem endsNumber_renderFields (fields : List (Text × Json)) (ends : EndsNumber rest) :
    EndsNumber (renderFields layout depth fields ++ rest) := by
  cases fields with
  | nil => exact ends
  | cons field fields =>
    rw [renderFields_cons]
    exact endsNumber_cons (by decide)

/-- The text of a value begins with neither a blank nor the end of an array. -/
theorem skipBlanks_render (json : Json) :
    skipBlanks (render layout depth json ++ rest) = render layout depth json ++ rest ∧
      (render layout depth json ++ rest).head? ≠ some (.char ']') := by
  have scalar (isScalar : json.isScalar) :
      skipBlanks (render layout depth json ++ rest) = render layout depth json ++ rest ∧
        (render layout depth json ++ rest).head? ≠ some (.char ']') := by
    obtain ⟨first, tail, isCons, starts⟩ := render_scalar_eq_cons layout depth isScalar
    rw [isCons]
    exact ⟨skipBlanks_scalar starts, fun isFirst => by cases isFirst; cases starts⟩
  match json with
  | .null | .bool _ | .integer _ | .number _ => exact scalar rfl
  | .text _ | .array [] | .array (_ :: _) | .object [] | .object (_ :: _) =>
    exact ⟨rfl, (nomatch ·)⟩

/-- The text of items begins with neither a blank nor the end of an array. -/
theorem skipBlanks_itemsText (item : Json) (others : List Json) (rest : Text) :
    skipBlanks (itemsText layout depth (item :: others) ++ rest) =
        itemsText layout depth (item :: others) ++ rest ∧
      (itemsText layout depth (item :: others) ++ rest).head? ≠ some (.char ']') := by
  rw [itemsText, List.append_assoc]
  exact skipBlanks_render layout depth item

/-- A string is read as a value. -/
theorem readValue_quoted (value rest : Text) (fuel : Nat) :
    readValue (fuel + 1) (quoted value ++ rest) = .ok (.text value, rest) := by
  have noBlank : skipBlanks (quoted value ++ rest) =
      .char '"' :: (value.flatMap escaped ++ .char '"' :: rest) := by
    unfold quoted
    rw [List.append_assoc]
    rfl
  rw [readValue, noBlank]
  simp only [bind, Except.bind, readText_append]

/-- An array that does not end at once is read by its items. -/
theorem readValue_array {source rest : Text} {items : List Json} {fuel : Nat}
    (goesOn : (skipBlanks source).head? ≠ some (.char ']'))
    (isRead : readItems fuel (skipBlanks source) = .ok (items, rest)) :
    readValue (fuel + 1) (.char '[' :: source) = .ok (.array items, rest) := by
  have noBlank : skipBlanks (.char '[' :: source) = .char '[' :: source := rfl
  simp only [readValue, noBlank]
  split
  · next ended => exact absurd (congrArg List.head? ended) goesOn
  · rw [isRead]
    rfl

/-- An object that does not end at once is read by its fields. -/
theorem readValue_object {source rest : Text} {fields : List (Text × Json)} {fuel : Nat}
    (goesOn : (skipBlanks source).head? ≠ some (.char '\x7d'))
    (isRead : readFields fuel (skipBlanks source) = .ok (fields, rest)) :
    readValue (fuel + 1) (.char '\x7b' :: source) = .ok (.object fields, rest) := by
  have noBlank : skipBlanks (.char '\x7b' :: source) = .char '\x7b' :: source := rfl
  simp only [readValue, noBlank]
  split
  · next ended => exact absurd (congrArg List.head? ended) goesOn
  · rw [isRead]
    rfl

section

variable {source after final : Text} {value : Json} {fuel : Nat}
  (isRead : readValue fuel source = .ok (value, rest))

include isRead

/-- An item before a bracket is the last one. -/
theorem readItems_last (ended : skipBlanks rest = .char ']' :: final) :
    readItems (fuel + 1) source = .ok ([value], final) := by
  simp [readItems, isRead, ended, bind, Except.bind]

/-- An item before a comma is followed by others. -/
theorem readItems_comma {others : List Json} (goesOn : skipBlanks rest = .char ',' :: after)
    (areRead : readItems fuel after = .ok (others, final)) :
    readItems (fuel + 1) source = .ok (value :: others, final) := by
  simp [readItems, isRead, goesOn, areRead, bind, Except.bind]

/-- The name of a field and the colon behind it are passed over on the way to its value. -/
theorem skipBlanks_field (name : Text) :
    ∃ behind, skipBlanks (quoted name ++ (layout.colon ++ source)) =
        .char '"' :: (name.flatMap escaped ++ .char '"' :: (layout.colon ++ source)) ∧
      skipBlanks (layout.colon ++ source) = .char ':' :: behind ∧
      readValue fuel behind = .ok (value, rest) := by
  obtain ⟨behind, colon, same⟩ := skipBlanks_colon layout source
  refine ⟨behind, ?_, colon, (readValue_congr same fuel).trans isRead⟩
  unfold quoted
  rw [List.append_assoc]
  rfl

/-- A field before a brace is the last one. -/
theorem readFields_last (name : Text) (ended : skipBlanks rest = .char '\x7d' :: final) :
    readFields (fuel + 1) (quoted name ++ (layout.colon ++ source)) =
      .ok ([(name, value)], final) := by
  obtain ⟨behind, start, colon, isRead⟩ := skipBlanks_field layout isRead name
  simp [readFields, start, readText_append, colon, isRead, ended, bind, Except.bind]

/-- A field before a comma is followed by others. -/
theorem readFields_comma (name : Text) {others : List (Text × Json)}
    (goesOn : skipBlanks rest = .char ',' :: after)
    (areRead : readFields fuel after = .ok (others, final)) :
    readFields (fuel + 1) (quoted name ++ (layout.colon ++ source)) =
      .ok ((name, value) :: others, final) := by
  obtain ⟨behind, start, colon, isRead⟩ := skipBlanks_field layout isRead name
  simp [readFields, start, readText_append, colon, isRead, goesOn, areRead, bind, Except.bind]

end

end Parts

section Values

variable {layout : Layout}

/-- The integers of a value are short where those of the whole are. -/
theorem AreShort.left {some others : List Int} (short : AreShort (some ++ others)) :
    AreShort some :=
  fun value isInteger => short value (List.mem_append_left _ isInteger)

/-- The integers of the other values are short where those of the whole are. -/
theorem AreShort.right {some others : List Int} (short : AreShort (some ++ others)) :
    AreShort others :=
  fun value isInteger => short value (List.mem_append_right _ isInteger)

/-- The text of a value is not empty, so the fuel for it is not. -/
theorem exists_less {depth fuel : Nat} {json : Json}
    (enough : 2 * (render layout depth json).length ≤ fuel) : ∃ less, fuel = less + 1 := by
  have scalar (isScalar : json.isScalar) : 0 < (render layout depth json).length := by
    obtain ⟨first, tail, isCons, -⟩ := render_scalar_eq_cons layout depth isScalar
    rw [isCons]
    exact Nat.succ_pos _
  have positive : 0 < (render layout depth json).length := by
    match json with
    | .null | .bool _ | .integer _ | .number _ => exact scalar rfl
    | .text _ | .array [] | .array (_ :: _) | .object [] | .object (_ :: _) =>
      exact Nat.succ_pos _
  exact ⟨fuel - 1, by omega⟩

variable (layout)

mutual

/-- The text of a value is read as that value, whatever stands behind it but more of a number. -/
theorem readValue_render (depth fuel : Nat) {rest : Text} (ends : EndsNumber rest) :
    (json : Json) → AreShort json.integers → 2 * (render layout depth json).length ≤ fuel →
      readValue fuel (render layout depth json ++ rest) = .ok (json, rest)
  | .null, short, enough => readValue_scalar_render layout depth rfl short ends enough
  | .bool _, short, enough => readValue_scalar_render layout depth rfl short ends enough
  | .integer _, short, enough => readValue_scalar_render layout depth rfl short ends enough
  | .number _, short, enough => readValue_scalar_render layout depth rfl short ends enough
  | .text value, _, enough => by
    obtain ⟨fuel, rfl⟩ := exists_less enough
    exact readValue_quoted value rest fuel
  | .array [], _, enough => by
    obtain ⟨fuel, rfl⟩ := exists_less enough
    rfl
  | .array (item :: others), short, enough => by
    obtain ⟨fuel, rfl⟩ := exists_less enough
    rw [render_array] at enough ⊢
    simp only [List.length_cons, List.length_append] at enough
    simp only [List.cons_append, List.append_assoc, List.nil_append]
    obtain ⟨start, goesOn⟩ := skipBlanks_itemsText layout (depth + 1) item others
      (layout.lineBreak depth ++ .char ']' :: rest)
    have ahead := (skipBlanks_lineBreak layout (depth + 1) _).trans start
    apply readValue_array (by rwa [ahead])
    rw [ahead]
    exact readItems_render (depth + 1) depth fuel rest (item :: others) (List.cons_ne_nil _ _)
      short (by omega)
  | .object [], _, enough => by
    obtain ⟨fuel, rfl⟩ := exists_less enough
    rfl
  | .object (field :: others), short, enough => by
    obtain ⟨fuel, rfl⟩ := exists_less enough
    rw [render_object] at enough ⊢
    simp only [List.length_cons, List.length_append] at enough
    simp only [List.cons_append, List.append_assoc, List.nil_append]
    have start : skipBlanks (fieldsText layout (depth + 1) (field :: others) ++
        (layout.lineBreak depth ++ .char '\x7d' :: rest)) =
      fieldsText layout (depth + 1) (field :: others) ++
        (layout.lineBreak depth ++ .char '\x7d' :: rest) := rfl
    have ahead := (skipBlanks_lineBreak layout (depth + 1) _).trans start
    apply readValue_object (by rw [ahead]; exact (nomatch ·))
    rw [ahead]
    exact readFields_render (depth + 1) depth fuel rest (field :: others) (List.cons_ne_nil _ _)
      short (by omega)

/-- The text of items is read as those items, up to the end of their array. -/
theorem readItems_render (depth closing fuel : Nat) (rest : Text) :
    (items : List Json) → items ≠ [] → AreShort (integersOfItems items) →
      2 * (itemsText layout depth items).length + 1 ≤ fuel →
      readItems fuel (itemsText layout depth items ++
        (layout.lineBreak closing ++ .char ']' :: rest)) = .ok (items, rest)
  | [], someItem, _, _ => absurd rfl someItem
  | item :: others, _, short, enough => by
    obtain ⟨fuel, rfl⟩ : ∃ less, fuel = less + 1 := ⟨fuel - 1, by omega⟩
    rw [itemsText] at enough ⊢
    rw [List.length_append] at enough
    have ends : EndsNumber (renderItems layout depth others ++
        (layout.lineBreak closing ++ .char ']' :: rest)) :=
      endsNumber_renderItems layout depth others (endsNumber_lineBreak layout closing (by decide))
    have first := readValue_render depth fuel ends item short.left (by omega)
    rw [List.append_assoc]
    cases others with
    | nil => exact readItems_last first (skipBlanks_lineBreak layout closing _)
    | cons next others =>
      rw [renderItems_cons] at enough first ⊢
      simp only [List.length_cons, List.length_append] at enough
      simp only [List.cons_append, List.append_assoc] at first ⊢
      have more := readItems_render depth closing fuel rest (next :: others)
        (List.cons_ne_nil _ _) short.right (by omega)
      exact readItems_comma first rfl
        ((readItems_congr (skipBlanks_lineBreak layout depth _) fuel).trans more)

/-- The text of fields is read as those fields, up to the end of their object. -/
theorem readFields_render (depth closing fuel : Nat) (rest : Text) :
    (fields : List (Text × Json)) → fields ≠ [] → AreShort (integersOfFields fields) →
      2 * (fieldsText layout depth fields).length + 1 ≤ fuel →
      readFields fuel (fieldsText layout depth fields ++
        (layout.lineBreak closing ++ .char '\x7d' :: rest)) = .ok (fields, rest)
  | [], someField, _, _ => absurd rfl someField
  | (name, value) :: others, _, short, enough => by
    obtain ⟨fuel, rfl⟩ : ∃ less, fuel = less + 1 := ⟨fuel - 1, by omega⟩
    rw [fieldsText] at enough ⊢
    simp only [List.length_append] at enough
    have ends : EndsNumber (renderFields layout depth others ++
        (layout.lineBreak closing ++ .char '\x7d' :: rest)) :=
      endsNumber_renderFields layout depth others (endsNumber_lineBreak layout closing (by decide))
    have first := readValue_render depth fuel ends value short.left (by omega)
    simp only [List.append_assoc]
    cases others with
    | nil => exact readFields_last layout first name (skipBlanks_lineBreak layout closing _)
    | cons next others =>
      rw [renderFields_cons] at enough first ⊢
      simp only [List.length_cons, List.length_append] at enough
      simp only [List.cons_append, List.append_assoc] at first ⊢
      have more := readFields_render depth closing fuel rest (next :: others)
        (List.cons_ne_nil _ _) short.right (by omega)
      exact readFields_comma layout first name rfl
        ((readFields_congr (skipBlanks_lineBreak layout depth _) fuel).trans more)

end

/-- The text of a value is read as the value. -/
theorem read_render (json : Json) (short : AreShort json.integers) :
    read (render layout 0 json) = .ok json := by
  have ends : EndsNumber [] := ⟨fun _ => nofun, fun _ => nofun⟩
  have isRead := readValue_render layout 0 (2 * (render layout 0 json).length + 2) ends json short
    (Nat.le_add_right _ _)
  rw [List.append_nil] at isRead
  unfold read
  rw [isRead]
  rfl

end Values

end Lox.Json
