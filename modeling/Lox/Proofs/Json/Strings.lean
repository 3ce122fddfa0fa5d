import Lox.Json.Reader

/-!
# Written strings are read back

A string is read up to its closing quote, whatever follows that. Each of its symbols is written as
one part: a letter or four digits behind a backslash where the standard wants that, and otherwise
the symbol itself. No part is half of a surrogate pair, so none is joined with the next.
-/

namespace Lox.Json

/-- The characters that are written as a code. -/
def hasCode (c : Char) : Bool :=
  c.toNat < 0x20 && c ∉ ['\n', '\r', '\t', '\x08', '\x0c']

/-- The part of a string as which a symbol is written. -/
def partOf (symbol : Symbol) : Part :=
  match symbol with
  | .char c => if hasCode c then .code c.toNat else .symbol (.char c)
  | .stray _ | .half _ => .symbol symbol

/-- A code that is no half of a pair stands alone, whatever follows it. -/
theorem joinParts_code {code : Nat} (isLow : code < 0xd800) (rest : List Part) :
    joinParts (.code code :: rest) = .char (Char.ofNat code) :: joinParts rest := by
  have single : symbolOfCode code = .char (Char.ofNat code) := by
    unfold symbolOfCode
    rw [dif_neg (by omega), if_neg (by simp; omega)]
  match rest with
  | [] | .symbol _ :: _ => simp [joinParts, single]
  | .code low :: rest => rw [joinParts, if_neg (by simp; omega), single]

/-- A part is put together to the symbol that it was written for. -/
theorem joinParts_partOf (symbol : Symbol) (rest : List Part) :
    joinParts (partOf symbol :: rest) = symbol :: joinParts rest := by
  unfold partOf
  split
  · next c =>
    split
    · next isCode =>
      have isLow : c.toNat < 0xd800 := by
        unfold hasCode at isCode
        simp only [Bool.and_eq_true, decide_eq_true_eq] at isCode
        omega
      rw [joinParts_code isLow, Char.ofNat_toNat]
    · rw [joinParts]
  · rw [joinParts]
  · rw [joinParts]

/-- Putting the parts of a string together gives the string. -/
theorem joinParts_map_partOf (value : Text) : joinParts (value.map partOf) = value := by
  induction value with
  | nil => rfl
  | cons symbol rest ih => rw [List.map_cons, joinParts_partOf, ih]

/-- The parts of a string with one more in front. -/
def addPart (part : Part) (found : Option (List Part × Text)) : Option (List Part × Text) :=
  found.map fun (parts, rest) => (part :: parts, rest)

section Parts

variable {c : Char} (rest : Text)

/-- A letter behind a backslash is read as the character that it stands for. -/
theorem readParts_letter {letter : Char} (differs : letter ≠ 'u')
    (means : escapeLetter? (.char letter) = some c) :
    readParts (.char '\\' :: .char letter :: rest) =
      addPart (.symbol (.char c)) (readParts rest) := by
  rw [readParts.eq_4 _ _ fun _ _ _ _ _ isU _ => differs (Symbol.char.inj isU), means]
  cases readParts rest <;> rfl

/-- The last two digits of a code write the code of its character. -/
theorem hexValue?_code (isControl : c.toNat < 0x20) :
    hexValue? (.char (Nat.digitChar (c.toNat / 16))) = some (c.toNat / 16) ∧
      hexValue? (.char (Nat.digitChar (c.toNat % 16))) = some (c.toNat % 16) := by
  have digits : ∀ digit < 16, hexValue? (.char (Nat.digitChar digit)) = some digit := by decide
  exact ⟨digits _ (by omega), digits _ (by omega)⟩

/-- Four digits behind a backslash are read as the code that they write. -/
theorem readParts_code (isControl : c.toNat < 0x20) :
    readParts (Text.ofChars ['\\', 'u', '0', '0', Nat.digitChar (c.toNat / 16),
      Nat.digitChar (c.toNat % 16)] ++ rest) = addPart (.code c.toNat) (readParts rest) := by
  obtain ⟨high, low⟩ := hexValue?_code isControl
  have zero : hexValue? (.char '0') = some 0 := rfl
  simp only [Text.ofChars, List.map_cons, List.map_nil, List.cons_append, List.nil_append]
  rw [readParts.eq_3, zero, high, low]
  simp only [Option.bind_eq_bind, Option.bind_some, Nat.zero_mul, Nat.zero_add, Nat.div_add_mod']
  cases readParts rest <;> rfl

/-- A character that needs no backslash is read as itself. -/
theorem readParts_char (isPlain : ¬c.toNat < 0x20) (noQuote : c ≠ '"') (noBackslash : c ≠ '\\') :
    readParts (.char c :: rest) = addPart (.symbol (.char c)) (readParts rest) := by
  rw [readParts.eq_5 _ _ noQuote (fun _ _ _ _ _ _ => noBackslash) fun _ _ _ => noBackslash,
    if_neg (by simp [isPlain, noBackslash])]
  cases readParts rest <;> rfl

/-- A symbol that is no character is read as itself. -/
theorem readParts_other {symbol : Symbol} (isOther : ∀ c, symbol ≠ .char c) :
    readParts (symbol :: rest) = addPart (.symbol symbol) (readParts rest) := by
  rw [readParts.eq_6 _ _ (isOther _) (fun _ _ _ _ _ same _ => isOther _ same)
    (fun _ _ same _ => isOther _ same) isOther]
  cases readParts rest <;> rfl

end Parts

/-- The first part of a text behind a written symbol is the part of that symbol. -/
theorem readParts_escaped (symbol : Symbol) (rest : Text) :
    readParts (escaped symbol ++ rest) = addPart (partOf symbol) (readParts rest) := by
  cases symbol with
  | stray byte => exact readParts_other rest fun _ => nofun
  | half pair => exact readParts_other rest fun _ => nofun
  | char c =>
    -- The characters with a letter of their own come first, because some of them are controls.
    by_cases isQuote : c = '"'
    · subst isQuote
      exact readParts_letter rest (by decide) rfl
    by_cases isBackslash : c = '\\'
    · subst isBackslash
      exact readParts_letter rest (by decide) rfl
    by_cases hasLetter : c ∈ ['\n', '\r', '\t', '\x08', '\x0c']
    · simp only [List.mem_cons, List.not_mem_nil, or_false] at hasLetter
      obtain rfl | rfl | rfl | rfl | rfl := hasLetter <;>
        exact readParts_letter rest (by decide) rfl
    have differs := hasLetter
    simp only [List.mem_cons, List.not_mem_nil, or_false, not_or] at differs
    obtain ⟨noLine, noReturn, noTab, noBack, noForm⟩ := differs
    by_cases isControl : c.toNat < 0x20
    · have isCode : hasCode c := by simp [hasCode, isControl, hasLetter]
      simpa [escaped, partOf, *] using readParts_code rest isControl
    · have noCode : hasCode c = false := by simp [hasCode, isControl]
      simpa [escaped, partOf, Text.ofChars, *] using readParts_char rest isControl isQuote isBackslash

/-- A string is read up to its closing quote. -/
theorem readText_append (value rest : Text) :
    readText (value.flatMap escaped ++ .char '"' :: rest) = .ok (value, rest) := by
  have parts : readParts (value.flatMap escaped ++ .char '"' :: rest) =
      some (value.map partOf, rest) := by
    induction value with
    | nil => rfl
    | cons symbol value ih =>
      rw [List.flatMap_cons, List.append_assoc, readParts_escaped, ih]
      rfl
  unfold readText
  rw [parts]
  simp [expected, bind, Except.bind, joinParts_map_partOf]

end Lox.Json
