import Lox.Proofs.Token.Bytewise

/-!
# The lexical forms

A relation says which bytes make up a token of which kind, without saying how a token is found. Where a
token starts, a scan takes the longest of the bytes ahead that have one of these forms. If none of them
has one, a quote takes the rest of the source and reports an open string, and any other byte stands alone
and is reported.

The form that is found is as long as any other at the front of the bytes, and it is itself a form. Only
the first byte decides which forms come into question.

Digits, letters and blanks are known by their codes here. The tests that a scan makes of bytes are shown
to pass just those.
-/

namespace Lox

/-- The codes of the digits. -/
def IsDigitCode (byte : UInt8) : Prop :=
  0x30 ≤ byte.toNat ∧ byte.toNat ≤ 0x39

/-- The codes of the capital letters, of the small letters and of the underscore. -/
def IsLetterCode (byte : UInt8) : Prop :=
  (0x41 ≤ byte.toNat ∧ byte.toNat ≤ 0x5A) ∨ (0x61 ≤ byte.toNat ∧ byte.toNat ≤ 0x7A) ∨
    byte.toNat = 0x5F

/-- The codes of the tab, of the two line ends and of the space. -/
def IsBlankCode (byte : UInt8) : Prop :=
  byte.toNat ∈ [0x09, 0x0A, 0x0D, 0x20]

instance : DecidablePred IsDigitCode :=
  fun _ => inferInstanceAs (Decidable (_ ∧ _))

instance : DecidablePred IsLetterCode :=
  fun _ => inferInstanceAs (Decidable (_ ∨ _))

instance : DecidablePred IsBlankCode :=
  fun _ => inferInstanceAs (Decidable (_ ∈ _))

/-- A byte passes as a digit just if its code is one of a digit. -/
theorem isDigit_iff {byte : UInt8} : isDigit byte ↔ IsDigitCode byte :=
  forall_byte (P := fun byte => isDigit byte ↔ IsDigitCode byte) (by decide +kernel) byte

/-- A byte passes as a letter just if its code is one of a letter. -/
theorem isLetter_iff {byte : UInt8} : isLetter byte ↔ IsLetterCode byte :=
  forall_byte (P := fun byte => isLetter byte ↔ IsLetterCode byte) (by decide +kernel) byte

/-- A byte passes as a blank just if its code is one of a blank. -/
theorem isBlank_iff {byte : UInt8} : isBlank byte ↔ IsBlankCode byte :=
  forall_byte (P := fun byte => isBlank byte ↔ IsBlankCode byte) (by decide +kernel) byte

/-- A word goes on with letters and digits. -/
theorem isWordByte_iff {byte : UInt8} :
    isWordByte byte ↔ IsLetterCode byte ∨ IsDigitCode byte := by
  rw [isWordByte, Bool.or_eq_true, isLetter_iff, isDigit_iff]

/-- A run of digits is made of digits. -/
theorem isDigitCode_of_mem_takeWhile {bytes : List UInt8} {byte : UInt8}
    (isByte : byte ∈ bytes.takeWhile isDigit) : IsDigitCode byte :=
  isDigit_iff.mp (List.mem_takeWhile_imp isByte)

/-- The tokens of one byte that no longer token begins with. -/
def singleForms : List (Char × Kind) :=
  [('(', .leftParen), (')', .rightParen), ('\x7b', .leftBrace), ('\x7d', .rightBrace),
    (';', .semicolon), (',', .comma), ('.', .dot), ('-', .minus), ('+', .plus), ('/', .slash),
    ('*', .star)]

/-- The tokens of one byte that an equals sign makes longer, with their kinds without and with it. -/
def extensibleForms : List (Char × Kind × Kind) :=
  [('!', .bang, .bangEqual), ('=', .equal, .equalEqual), ('<', .less, .lessEqual),
    ('>', .greater, .greaterEqual)]

/-- The bytes are one of the keywords. -/
def IsKeyword (bytes : List UInt8) : Prop :=
  ∃ keyword ∈ Kind.keywords, keyword.1.map Char.toUInt8 = bytes

/-- The bytes make up a token of a kind. -/
inductive LexicalForm : List UInt8 → Kind → Prop
  | single {char : Char} {kind : Kind} :
      (char, kind) ∈ singleForms → LexicalForm [char.toUInt8] kind
  | plain {char : Char} {kind extended : Kind} :
      (char, kind, extended) ∈ extensibleForms → LexicalForm [char.toUInt8] kind
  | extended {char : Char} {kind extended : Kind} :
      (char, kind, extended) ∈ extensibleForms →
      LexicalForm [char.toUInt8, '='.toUInt8] extended
  | string {inside : List UInt8} :
      '"'.toUInt8 ∉ inside → LexicalForm ('"'.toUInt8 :: (inside ++ ['"'.toUInt8])) .string
  | whole {digits : List UInt8} :
      digits ≠ [] → (∀ byte ∈ digits, IsDigitCode byte) → LexicalForm digits .number
  | fraction {digits fraction : List UInt8} :
      digits ≠ [] → (∀ byte ∈ digits, IsDigitCode byte) → fraction ≠ [] →
      (∀ byte ∈ fraction, IsDigitCode byte) →
      LexicalForm (digits ++ '.'.toUInt8 :: fraction) .number
  | keyword {word : List Char} {kind : Kind} :
      (word, kind) ∈ Kind.keywords → LexicalForm (word.map Char.toUInt8) kind
  | identifier {first : UInt8} {rest : List UInt8} :
      IsLetterCode first → (∀ byte ∈ rest, IsLetterCode byte ∨ IsDigitCode byte) →
      ¬IsKeyword (first :: rest) →
      LexicalForm (first :: rest) .identifier

/-- A form at the front of some bytes that is as long as any other one there. -/
structure IsLongestForm (bytes lexeme : List UInt8) (kind : Kind) : Prop where
  isForm : LexicalForm lexeme kind
  isFront : lexeme <+: bytes
  isLongest : ∀ other otherKind, LexicalForm other otherKind → other <+: bytes →
    other.length ≤ lexeme.length

namespace Kind

/-- The keyword that the first letters of a word leave open: those letters, the rest of the keyword and
its kind. One letter decides, or two where several keywords begin with it. -/
def branches : List (List Char × List Char × Kind) :=
  [(['a'], ['n', 'd'], andWord),
    (['c'], ['l', 'a', 's', 's'], classWord),
    (['e'], ['l', 's', 'e'], elseWord),
    (['f', 'a'], ['l', 's', 'e'], falseWord),
    (['f', 'o'], ['r'], forWord),
    (['f', 'u'], ['n'], funWord),
    (['i'], ['f'], ifWord),
    (['n'], ['i', 'l'], nilWord),
    (['o'], ['r'], orWord),
    (['p'], ['r', 'i', 'n', 't'], printWord),
    (['r'], ['e', 't', 'u', 'r', 'n'], returnWord),
    (['s'], ['u', 'p', 'e', 'r'], superWord),
    (['t', 'h'], ['i', 's'], thisWord),
    (['t', 'r'], ['u', 'e'], trueWord),
    (['v'], ['a', 'r'], varWord),
    (['w'], ['h', 'i', 'l', 'e'], whileWord)]

/-- The kind of a word by its first letters: they choose a branch, and the rest of the word is compared
with the rest of that keyword alone. -/
def ofLetters (word : List UInt8) : Kind :=
  match branches.find? fun branch => (branch.1.map Char.toUInt8).isPrefixOf word with
  | none => identifier
  | some (front, rest, kind) =>
    if word.drop front.length = rest.map Char.toUInt8 then kind else identifier

/-- Every branch leads to a keyword. -/
theorem branch_mem_keywords :
    ∀ branch ∈ branches, (branch.1 ++ branch.2.1, branch.2.2) ∈ keywords := by
  decide

/-- Every keyword has its kind, by its letters and by the list of all keywords. -/
theorem kind_of_keyword :
    ∀ keyword ∈ keywords, ofLetters (keyword.1.map Char.toUInt8) = keyword.2 ∧
      ofWord (keyword.1.map Char.toUInt8) = keyword.2 := by
  decide

/-- A word that is no keyword is an identifier. -/
theorem ofWord_of_not_isKeyword {word : List UInt8} (noKeyword : ¬IsKeyword word) :
    ofWord word = identifier := by
  rw [ofWord, List.findSome?_eq_none_iff.mpr]
  · rfl
  · intro keyword isKeyword
    exact if_neg fun same => noKeyword ⟨keyword, isKeyword, same⟩

/-- A word that is no keyword is an identifier by its letters. -/
theorem ofLetters_of_not_isKeyword {word : List UInt8} (noKeyword : ¬IsKeyword word) :
    ofLetters word = identifier := by
  unfold ofLetters
  split
  · rfl
  · next front rest kind found =>
    have isBranch := branch_mem_keywords _ (List.mem_of_find?_eq_some found)
    refine if_neg fun isRest => noKeyword ⟨_, isBranch, ?_⟩
    have isFront : front.map Char.toUInt8 <+: word := by
      simpa using List.find?_some found
    obtain ⟨more, rfl⟩ := isFront
    rw [List.drop_left' (List.length_map _)] at isRest
    rw [isRest, List.map_append]

/-- First letters and the rest of one keyword tell what the list of all keywords tells. -/
theorem ofLetters_eq_ofWord (word : List UInt8) : ofLetters word = ofWord word := by
  by_cases isKeyword : IsKeyword word
  · obtain ⟨keyword, isMember, rfl⟩ := isKeyword
    obtain ⟨byLetters, byWord⟩ := kind_of_keyword keyword isMember
    rw [byLetters, byWord]
  · rw [ofLetters_of_not_isKeyword isKeyword, ofWord_of_not_isKeyword isKeyword]

/-- A word is an identifier if and only if it is no keyword. -/
theorem ofWord_eq_identifier {word : List UInt8} : ofWord word = identifier ↔ ¬IsKeyword word := by
  refine ⟨?_, ofWord_of_not_isKeyword⟩
  rintro isIdentifier ⟨keyword, isMember, rfl⟩
  rw [(kind_of_keyword keyword isMember).2] at isIdentifier
  exact (by decide : ∀ keyword ∈ keywords, keyword.2 ≠ identifier) keyword isMember isIdentifier

/-- A word has the kind of a keyword if and only if it is spelled as that keyword. -/
theorem ofWord_eq_keyword {word : List UInt8} {keyword : List Char × Kind}
    (isKeyword : keyword ∈ keywords) :
    ofWord word = keyword.2 ↔ word = keyword.1.map Char.toUInt8 := by
  constructor
  · intro isKind
    have isSome : IsKeyword word := by
      by_contra noKeyword
      rw [ofWord_of_not_isKeyword noKeyword] at isKind
      exact (by decide : ∀ keyword ∈ keywords, keyword.2 ≠ identifier) keyword isKeyword isKind.symm
    obtain ⟨other, isMember, rfl⟩ := isSome
    rw [(kind_of_keyword other isMember).2] at isKind
    have sameKind : ∀ one ∈ keywords, ∀ other ∈ keywords, one.2 = other.2 → one = other := by decide
    rw [sameKind other isMember keyword isKeyword isKind]
  · rintro rfl
    exact (kind_of_keyword keyword isKeyword).2

/-- A keyword is a letter and then letters or digits. -/
theorem keyword_isWord {keyword : List Char × Kind} (isKeyword : keyword ∈ keywords) :
    ∃ first rest, keyword.1.map Char.toUInt8 = first :: rest ∧ isLetter first ∧
      ∀ byte ∈ rest, isWordByte byte := by
  have each : keywords.all fun keyword =>
      (keyword.1.map Char.toUInt8).head?.any isLetter &&
        (keyword.1.map Char.toUInt8).tail.all isWordByte := by decide
  have isWord := List.all_eq_true.mp each keyword isKeyword
  cases spelled : keyword.1.map Char.toUInt8 with
  | nil => simp [spelled] at isWord
  | cons first rest =>
    obtain ⟨isFirst, isRest⟩ : isLetter first ∧ ∀ byte ∈ rest, isWordByte byte := by
      simpa [spelled] using isWord
    exact ⟨first, rest, rfl, isFirst, isRest⟩

end Kind

/-- No form reports trouble. -/
theorem LexicalForm.kind_ne_error {lexeme : List UInt8} {kind : Kind}
    (isForm : LexicalForm lexeme kind) : kind ≠ .error := by
  cases isForm with
  | single isForm =>
    rintro rfl
    exact (by decide : ∀ form ∈ singleForms, form.2 ≠ .error) _ isForm rfl
  | plain isForm =>
    rintro rfl
    exact (by decide : ∀ form ∈ extensibleForms, form.2.1 ≠ .error) _ isForm rfl
  | extended isForm =>
    rintro rfl
    exact (by decide : ∀ form ∈ extensibleForms, form.2.2 ≠ .error) _ isForm rfl
  | keyword isKeyword =>
    rintro rfl
    exact (by decide : ∀ keyword ∈ Kind.keywords, keyword.2 ≠ .error) _ isKeyword rfl
  | _ => exact nofun

/-- A run of bytes goes no further than a byte that does not pass. -/
theorem takeWhile_append_stop {test : UInt8 → Bool} {stop : UInt8} (stops : test stop = false)
    (bytes more : List UInt8) : (bytes ++ stop :: more).takeWhile test = bytes.takeWhile test := by
  induction bytes with
  | nil => rw [List.nil_append, List.takeWhile_cons_of_neg (by simp [stops]), List.takeWhile_nil]
  | cons byte bytes ih => rw [List.cons_append, List.takeWhile_cons, List.takeWhile_cons, ih]

/-- Bytes that all pass are no longer than the run of bytes that pass. -/
theorem length_le_takeWhile {test : UInt8 → Bool} {front bytes : List UInt8}
    (passes : ∀ byte ∈ front, test byte) (isFront : front <+: bytes) :
    front.length ≤ (bytes.takeWhile test).length := by
  obtain ⟨more, rfl⟩ := isFront
  rw [List.takeWhile_append_of_pos passes, List.length_append]
  exact Nat.le_add_right _ _

namespace Lexeme

/-- A string goes up to the first quote behind its opening one. -/
theorem string_of_quote {inside : List UInt8} (noQuote : '"'.toUInt8 ∉ inside) (more : List UInt8) :
    string (inside ++ '"'.toUInt8 :: more) = token .string (inside.length + 2) := by
  have run : (inside ++ '"'.toUInt8 :: more).takeWhile (· ≠ '"'.toUInt8) = inside := by
    rw [takeWhile_append_stop (by decide), List.takeWhile_eq_self_iff]
    intro byte isByte
    simpa using ne_of_mem_of_not_mem isByte noQuote
  rw [string, run, List.drop_left, List.isEmpty_cons, if_neg (by decide)]

/-- A string without a quote behind its opening one goes up to the end. -/
theorem string_of_no_quote {rest : List UInt8} (noQuote : '"'.toUInt8 ∉ rest) :
    string rest = unterminated (rest.length + 1) := by
  have run : rest.takeWhile (· ≠ '"'.toUInt8) = rest := by
    rw [List.takeWhile_eq_self_iff]
    intro byte isByte
    simpa using ne_of_mem_of_not_mem isByte noQuote
  rw [string, run, List.drop_length, List.isEmpty_nil, if_pos rfl]

/-- Either there is no quote behind the opening one, or the first one ends the string. -/
theorem string_cases (rest : List UInt8) :
    ('"'.toUInt8 ∉ rest ∧ string rest = unterminated (rest.length + 1)) ∨
      ∃ inside more, '"'.toUInt8 ∉ inside ∧ rest = inside ++ '"'.toUInt8 :: more ∧
        string rest = token .string (inside.length + 2) := by
  by_cases isQuote : '"'.toUInt8 ∈ rest
  · obtain ⟨inside, more, rfl, noQuote⟩ := List.eq_append_cons_of_mem isQuote
    exact .inr ⟨inside, more, noQuote, rfl, string_of_quote noQuote more⟩
  · exact .inl ⟨isQuote, string_of_no_quote isQuote⟩

/-- A number is digits, or digits with a point and digits behind them. -/
theorem isForm_number {first : UInt8} (isFirst : isDigit first) (rest : List UInt8) :
    LexicalForm ((first :: rest).take (number rest).length) .number := by
  have digits : ∀ byte ∈ first :: rest.takeWhile isDigit, IsDigitCode byte :=
    List.forall_mem_cons.mpr ⟨isDigit_iff.mp isFirst, fun _ => isDigitCode_of_mem_takeWhile⟩
  have whole : rest.take (rest.takeWhile isDigit).length = rest.takeWhile isDigit :=
    (List.prefix_iff_eq_take.mp (List.takeWhile_prefix _)).symm
  unfold number length
  dsimp only
  rw [Nat.add_assoc, Nat.add_comm 1, List.take_succ_cons, List.take_add, whole, ← List.cons_append]
  unfold fractionLength
  split
  · next point digit more ahead =>
    split
    · next isFraction =>
      rw [Bool.and_eq_true, decide_eq_true_eq] at isFraction
      obtain ⟨rfl, isNext⟩ := isFraction
      have others : more.take (more.takeWhile isDigit).length = more.takeWhile isDigit :=
        (List.prefix_iff_eq_take.mp (List.takeWhile_prefix _)).symm
      rw [ahead, Nat.add_comm 2, List.take_succ_cons, List.take_succ_cons, others]
      refine .fraction (List.cons_ne_nil _ _) digits (List.cons_ne_nil _ _) ?_
      exact List.forall_mem_cons.mpr
        ⟨isDigit_iff.mp isNext, fun _ => isDigitCode_of_mem_takeWhile⟩
    · rw [List.take_zero, List.append_nil]
      exact .whole (List.cons_ne_nil _ _) digits
  · rw [List.take_zero, List.append_nil]
    exact .whole (List.cons_ne_nil _ _) digits

/-- The bytes of a word are its first letter and the run of letters and digits behind it. -/
theorem take_word (first : UInt8) (rest : List UInt8) :
    (first :: rest).take (word first rest).length = first :: rest.takeWhile isWordByte := by
  change (first :: rest).take ((rest.takeWhile isWordByte).length + 1) = _
  rw [List.take_succ_cons, ← List.prefix_iff_eq_take.mp (List.takeWhile_prefix _)]

/-- A word is a keyword or an identifier. -/
theorem isForm_word {first : UInt8} (isFirst : isLetter first) (rest : List UInt8) :
    LexicalForm ((first :: rest).take (word first rest).length) (word first rest).kind := by
  rw [take_word]
  change LexicalForm _ (Kind.ofWord (first :: rest.takeWhile isWordByte))
  by_cases isKeyword : IsKeyword (first :: rest.takeWhile isWordByte)
  · obtain ⟨keyword, isMember, spelled⟩ := isKeyword
    rw [← spelled, (Kind.kind_of_keyword keyword isMember).2]
    exact .keyword isMember
  · rw [Kind.ofWord_of_not_isKeyword isKeyword]
    exact .identifier (isLetter_iff.mp isFirst)
      (fun _ isByte => isWordByte_iff.mp (List.mem_takeWhile_imp isByte)) isKeyword

/-- A byte that is a token by itself has its form. -/
theorem mem_singleForms (byte : UInt8) :
    ∀ kind ∈ single? byte, ∃ form ∈ singleForms, form.1.toUInt8 = byte ∧ form.2 = kind :=
  forall_byte (P := fun byte => ∀ kind ∈ single? byte, ∃ form ∈ singleForms,
    form.1.toUInt8 = byte ∧ form.2 = kind) (by decide +kernel) byte

/-- A byte that an equals sign may follow has its forms. -/
theorem mem_extensibleForms (byte : UInt8) :
    ∀ kinds ∈ extensible? byte, ∃ form ∈ extensibleForms, form.1.toUInt8 = byte ∧ form.2 = kinds :=
  forall_byte (P := fun byte => ∀ kinds ∈ extensible? byte, ∃ form ∈ extensibleForms,
    form.1.toUInt8 = byte ∧ form.2 = kinds) (by decide +kernel) byte

/-- A byte that is a token by itself is found as that token. -/
theorem ofBytes_single {form : Char × Kind} (isForm : form ∈ singleForms) (rest : List UInt8) :
    ofBytes form.1.toUInt8 rest = token form.2 1 := by
  have found : ∀ form ∈ singleForms, ¬isLetter form.1.toUInt8 ∧ ¬isDigit form.1.toUInt8 ∧
      form.1.toUInt8 ≠ '"'.toUInt8 ∧ single? form.1.toUInt8 = some form.2 := by decide
  obtain ⟨noLetter, noDigit, noQuote, isSingle⟩ := found form isForm
  rw [ofBytes, if_neg noLetter, if_neg noDigit, if_neg noQuote, isSingle]

/-- A byte that an equals sign may follow is found with it or without it. -/
theorem ofBytes_extensible {form : Char × Kind × Kind} (isForm : form ∈ extensibleForms)
    (rest : List UInt8) :
    ofBytes form.1.toUInt8 rest =
      if rest.head? = some '='.toUInt8 then token form.2.2 2 else token form.2.1 1 := by
  have found : ∀ form ∈ extensibleForms, ¬isLetter form.1.toUInt8 ∧ ¬isDigit form.1.toUInt8 ∧
      form.1.toUInt8 ≠ '"'.toUInt8 ∧ single? form.1.toUInt8 = none ∧
        extensible? form.1.toUInt8 = some form.2 := by decide
  obtain ⟨noLetter, noDigit, noQuote, noSingle, isExtensible⟩ := found form isForm
  rw [ofBytes, if_neg noLetter, if_neg noDigit, if_neg noQuote, noSingle, isExtensible]

/-- Only an opening quote begins an open string. -/
theorem eq_quote_of_unterminated {first : UInt8} {rest : List UInt8} {length : Nat}
    (isOpen : ofBytes first rest = unterminated length) :
    first = '"'.toUInt8 ∧ string rest = unterminated length := by
  unfold ofBytes at isOpen
  split at isOpen
  · cases isOpen
  · split at isOpen
    · cases isOpen
    · split at isOpen
      · next isQuote => exact ⟨isQuote, isOpen⟩
      · split at isOpen
        · cases isOpen
        · split at isOpen <;> cases isOpen
        · cases isOpen

/-- A token that is found is a form. -/
theorem isForm_ofBytes {first : UInt8} {rest : List UInt8} {kind : Kind} {length : Nat}
    (found : ofBytes first rest = token kind length) :
    LexicalForm ((first :: rest).take length) kind := by
  unfold ofBytes at found
  split at found
  · next isWord =>
    have isForm := isForm_word isWord rest
    rwa [found] at isForm
  · split at found
    · next isNumber =>
      have isForm := isForm_number isNumber rest
      rw [found] at isForm
      cases found
      exact isForm
    · split at found
      · next isQuote =>
        subst isQuote
        obtain ⟨-, isOpen⟩ | ⟨inside, more, noQuote, rfl, isString⟩ := string_cases rest
        · rw [isOpen] at found
          cases found
        · rw [isString] at found
          cases found
          have whole : (inside ++ '"'.toUInt8 :: more).take (inside.length + 1) =
              inside ++ ['"'.toUInt8] := List.take_length_add_append 1
          rw [List.take_succ_cons, whole]
          exact .string noQuote
      · split at found
        · next isSingle =>
          obtain ⟨form, isForm, rfl, rfl⟩ := mem_singleForms first _ isSingle
          cases found
          exact .single isForm
        · next isExtensible =>
          obtain ⟨⟨char, plain, extended⟩, isForm, rfl, same⟩ :=
            mem_extensibleForms first _ isExtensible
          cases same
          split at found
          · next isEqual =>
            obtain ⟨more, rfl⟩ := List.head?_eq_some_iff.mp isEqual
            cases found
            exact .extended isForm
          · cases found
            exact .plain isForm
        · cases found

/-- The word that is found is as long as any other one there. -/
theorem exists_longer_word {first : UInt8} {rest word : List UInt8} (isFirst : isLetter first)
    (isWord : ∀ byte ∈ word, isWordByte byte) (isFront : word <+: rest) :
    ∃ kind length, ofBytes first rest = token kind length ∧ (first :: word).length ≤ length ∧
      ((first :: word).length = length → kind = Kind.ofWord (first :: word)) := by
  have shorter := length_le_takeWhile isWord isFront
  rw [ofBytes, if_pos isFirst]
  refine ⟨_, _, rfl, Nat.succ_le_succ shorter, fun sameLength => ?_⟩
  have isRun : word <+: rest.takeWhile isWordByte :=
    List.prefix_of_prefix_length_le isFront (List.takeWhile_prefix _) shorter
  rw [isRun.eq_of_length (Nat.succ.inj sameLength)]

/-- The number that is found is as long as any digits there. -/
theorem exists_longer_whole {first : UInt8} {rest digits : List UInt8}
    (areDigits : ∀ byte ∈ first :: digits, isDigit byte) (isFront : digits <+: rest) :
    ∃ length, ofBytes first rest = token .number length ∧ (first :: digits).length ≤ length := by
  have noLetter : isDigit first → ¬isLetter first :=
    forall_byte (P := fun byte => isDigit byte → ¬isLetter byte) (by decide +kernel) first
  obtain ⟨isFirst, others⟩ := List.forall_mem_cons.mp areDigits
  have shorter := length_le_takeWhile others isFront
  rw [ofBytes, if_neg (noLetter isFirst), if_pos isFirst]
  refine ⟨_, rfl, ?_⟩
  rw [List.length_cons]
  omega

/-- The number that is found is as long as any digits with a fraction there. -/
theorem exists_longer_fraction {first : UInt8} {rest digits fraction : List UInt8}
    (areDigits : ∀ byte ∈ first :: digits, isDigit byte) (isThere : fraction ≠ [])
    (areDigits' : ∀ byte ∈ fraction, isDigit byte)
    (isFront : digits ++ '.'.toUInt8 :: fraction <+: rest) :
    ∃ length, ofBytes first rest = token .number length ∧
      (first :: digits ++ '.'.toUInt8 :: fraction).length ≤ length := by
  have noLetter : isDigit first → ¬isLetter first :=
    forall_byte (P := fun byte => isDigit byte → ¬isLetter byte) (by decide +kernel) first
  obtain ⟨isFirst, others⟩ := List.forall_mem_cons.mp areDigits
  obtain ⟨more, rfl⟩ := isFront
  obtain ⟨digit, fraction, rfl⟩ := List.exists_cons_of_ne_nil isThere
  obtain ⟨isNext, others'⟩ := List.forall_mem_cons.mp areDigits'
  have whole : ((digits ++ '.'.toUInt8 :: digit :: fraction) ++ more).takeWhile isDigit = digits := by
    rw [List.append_assoc, List.cons_append, takeWhile_append_stop (by decide),
      List.takeWhile_eq_self_iff.mpr others]
  have behind : ((digits ++ '.'.toUInt8 :: digit :: fraction) ++ more).drop digits.length =
      '.'.toUInt8 :: digit :: (fraction ++ more) := by
    rw [List.append_assoc, List.drop_left]
    rfl
  have shorter := length_le_takeWhile others' (List.prefix_append fraction more)
  rw [ofBytes, if_neg (noLetter isFirst), if_pos isFirst, number, whole, behind, fractionLength,
    if_pos (by simpa using isNext)]
  refine ⟨_, rfl, ?_⟩
  rw [List.length_append, List.length_cons, List.length_cons, List.length_cons]
  omega

/-- Where a form is at the front of some bytes, a token that is as long is found, and it is of the same
kind if it is no longer. -/
theorem exists_longer {first : UInt8} {rest lexeme : List UInt8} {kind : Kind}
    (isForm : LexicalForm lexeme kind) (isFront : lexeme <+: first :: rest) :
    ∃ found length, ofBytes first rest = token found length ∧ lexeme.length ≤ length ∧
      (lexeme.length = length → found = kind) := by
  cases isForm with
  | single isForm =>
    obtain ⟨rfl, -⟩ := List.cons_prefix_cons.mp isFront
    exact ⟨_, _, ofBytes_single isForm rest, Nat.le_refl _, fun _ => rfl⟩
  | plain isForm =>
    obtain ⟨rfl, -⟩ := List.cons_prefix_cons.mp isFront
    rw [ofBytes_extensible isForm]
    split
    · exact ⟨_, _, rfl, Nat.le_succ _, fun sameLength => nomatch Nat.succ.inj sameLength⟩
    · exact ⟨_, _, rfl, Nat.le_refl _, fun _ => rfl⟩
  | extended isForm =>
    obtain ⟨rfl, more, rfl⟩ := List.cons_prefix_cons.mp isFront
    exact ⟨_, _, ofBytes_extensible isForm _, Nat.le_refl _, fun _ => rfl⟩
  | @string inside noQuote =>
    obtain ⟨rfl, more, rfl⟩ := List.cons_prefix_cons.mp isFront
    rw [List.append_assoc, List.singleton_append]
    refine ⟨_, _, string_of_quote noQuote more, Nat.le_of_eq ?_, fun _ => rfl⟩
    rw [List.length_cons, List.length_append, List.length_singleton]
  | whole isThere areDigits =>
    obtain ⟨digit, digits, rfl⟩ := List.exists_cons_of_ne_nil isThere
    obtain ⟨rfl, isBehind⟩ := List.cons_prefix_cons.mp isFront
    obtain ⟨length, isFound, shorter⟩ :=
      exists_longer_whole (fun byte isByte => isDigit_iff.mpr (areDigits byte isByte)) isBehind
    exact ⟨_, length, isFound, shorter, fun _ => rfl⟩
  | fraction isThere areDigits isFraction areDigits' =>
    obtain ⟨digit, digits, rfl⟩ := List.exists_cons_of_ne_nil isThere
    obtain ⟨rfl, isBehind⟩ := List.cons_prefix_cons.mp isFront
    obtain ⟨length, isFound, shorter⟩ :=
      exists_longer_fraction (fun byte isByte => isDigit_iff.mpr (areDigits byte isByte)) isFraction
        (fun byte isByte => isDigit_iff.mpr (areDigits' byte isByte)) isBehind
    exact ⟨_, length, isFound, shorter, fun _ => rfl⟩
  | keyword isKeyword =>
    have isKind := (Kind.kind_of_keyword _ isKeyword).2
    obtain ⟨letter, word, spelled, isLetter, isWord⟩ := Kind.keyword_isWord isKeyword
    rw [spelled] at isFront isKind ⊢
    obtain ⟨rfl, isBehind⟩ := List.cons_prefix_cons.mp isFront
    obtain ⟨found, length, isFound, shorter, same⟩ := exists_longer_word isLetter isWord isBehind
    exact ⟨found, length, isFound, shorter, fun sameLength => (same sameLength).trans isKind⟩
  | identifier isLetter isWord noKeyword =>
    have isKind := Kind.ofWord_of_not_isKeyword noKeyword
    obtain ⟨rfl, isBehind⟩ := List.cons_prefix_cons.mp isFront
    obtain ⟨found, length, isFound, shorter, same⟩ := exists_longer_word (isLetter_iff.mpr isLetter)
      (fun byte isByte => isWordByte_iff.mpr (isWord byte isByte)) isBehind
    exact ⟨found, length, isFound, shorter, fun sameLength => (same sameLength).trans isKind⟩

/-- The token that is found is the longest form. -/
theorem isLongestForm_ofBytes {first : UInt8} {rest : List UInt8} {kind : Kind} {length : Nat}
    (found : ofBytes first rest = token kind length) :
    IsLongestForm (first :: rest) ((first :: rest).take length) kind where
  isForm := isForm_ofBytes found
  isFront := List.take_prefix _ _
  isLongest other otherKind isForm isFront := by
    have inside := length_ofBytes_le first rest
    rw [found, Lexeme.length] at inside
    obtain ⟨_, _, same, longer, -⟩ := exists_longer isForm isFront
    cases found.symm.trans same
    rwa [List.length_take_of_le inside]

/-- The longest form is the token that is found. -/
theorem ofBytes_of_isLongestForm {first : UInt8} {rest lexeme : List UInt8} {kind : Kind}
    (isLongest : IsLongestForm (first :: rest) lexeme kind) :
    ofBytes first rest = token kind lexeme.length := by
  obtain ⟨found, length, isFound, longer, sameKind⟩ :=
    exists_longer isLongest.isForm isLongest.isFront
  have inside := length_ofBytes_le first rest
  rw [isFound, Lexeme.length] at inside
  have shorter := isLongest.isLongest _ _ (isForm_ofBytes isFound) (List.take_prefix _ _)
  rw [List.length_take_of_le inside] at shorter
  obtain rfl := Nat.le_antisymm longer shorter
  rw [isFound, sameKind rfl]

/-- Bytes that begin with no form and are no open string are unexpected. -/
theorem ofBytes_of_no_form {first : UInt8} {rest : List UInt8}
    (noForm : ∀ lexeme kind, LexicalForm lexeme kind → ¬lexeme <+: first :: rest)
    (noString : ¬(first = '"'.toUInt8 ∧ '"'.toUInt8 ∉ rest)) : ofBytes first rest = unexpected := by
  cases found : ofBytes first rest with
  | token kind length =>
    exact absurd (List.take_prefix _ _) (noForm _ _ (isForm_ofBytes found))
  | unterminated length =>
    obtain ⟨rfl, isOpen⟩ := eq_quote_of_unterminated found
    obtain ⟨noQuote, -⟩ | ⟨inside, more, noQuote, rfl, -⟩ := string_cases rest
    · exact absurd ⟨rfl, noQuote⟩ noString
    · rw [string_of_quote noQuote more] at isOpen
      cases isOpen
  | unexpected => rfl

end Lexeme

namespace Cursor

variable {cursor : Cursor} {first : UInt8} {rest : List UInt8}

/-- Where a token starts, what is found there is scanned. -/
theorem scan_of_start (ahead : cursor.rest = first :: rest) (noBlank : ¬isBlank first)
    (noComment : ¬(first = '/'.toUInt8 ∧ rest.head? = some '/'.toUInt8)) :
    cursor.scan =
      ⟨⟨(Lexeme.ofBytes first rest).kind,
          (Lexeme.ofBytes first rest).lexeme
            ((first :: rest).take (Lexeme.ofBytes first rest).length),
          (cursor.advance (Lexeme.ofBytes first rest).length).line⟩,
        cursor.offset, cursor.advance (Lexeme.ofBytes first rest).length⟩ := by
  have nothing : cursor.skipTrivia = cursor := by
    rw [skipTrivia, ahead, triviaLength_other noBlank noComment]
    rfl
  have ahead' : cursor.skipTrivia.rest = first :: rest := by rw [nothing, ahead]
  rw [scan_of_cons ahead', nothing]

/-- What is scanned at a place where a token starts is the longest form ahead with its kind. Where no
form is ahead, an open string takes all the bytes ahead, and any other byte is unexpected by itself. A word
is a keyword if and only if it is spelled as one, which its first letters and the rest of one keyword
tell. Reading byte by byte scans the same. -/
theorem scan_isLongest {source : List UInt8} (within : Within source cursor)
    (ahead : cursor.rest = first :: rest) (noBlank : ¬IsBlankCode first)
    (noComment : ¬(first = '/'.toUInt8 ∧ rest.head? = some '/'.toUInt8)) :
    ((∃ lexeme kind, LexicalForm lexeme kind ∧ lexeme <+: cursor.rest) →
      ∃ lexeme kind, IsLongestForm cursor.rest lexeme kind) ∧
    (∀ lexeme kind, IsLongestForm cursor.rest lexeme kind →
      cursor.scan = ⟨⟨kind, lexeme, (cursor.advance lexeme.length).line⟩, cursor.offset,
        cursor.advance lexeme.length⟩) ∧
    (IsLetterCode first →
      (∀ keyword ∈ Kind.keywords, cursor.scan.token.kind = keyword.2 ↔
        cursor.scan.token.lexeme = keyword.1.map Char.toUInt8) ∧
      (cursor.scan.token.kind = .identifier ↔ ¬IsKeyword cursor.scan.token.lexeme) ∧
      cursor.scan.token.kind = Kind.ofLetters cursor.scan.token.lexeme) ∧
    (first = '"'.toUInt8 → '"'.toUInt8 ∉ rest →
      cursor.scan.token.kind = .error ∧
      cursor.scan.token.lexeme = Text.encode "Unterminated string." ∧
      cursor.scan.start = cursor.offset ∧
      cursor.scan.after.offset = source.length ∧ cursor.scan.after.rest = []) ∧
    ((∀ lexeme kind, LexicalForm lexeme kind → ¬lexeme <+: cursor.rest) →
      ¬(first = '"'.toUInt8 ∧ '"'.toUInt8 ∉ rest) →
      cursor.scan = ⟨⟨.error, Text.encode "Unexpected character.", (cursor.advance 1).line⟩,
        cursor.offset, cursor.advance 1⟩) ∧
    ∀ start, (cursor.head start).scan source =
      some (cursor.scan.token, cursor.scan.after.head cursor.scan.start) := by
  have scanned := scan_of_start ahead (mt isBlank_iff.mp noBlank) noComment
  refine ⟨?someForm, ?longest, ?word, ?openString, ?unexpected, fun start => within.scan_head start⟩
  case someForm =>
    rintro ⟨lexeme, kind, isForm, isFront⟩
    rw [ahead] at isFront ⊢
    obtain ⟨_, _, found, -⟩ := Lexeme.exists_longer isForm isFront
    exact ⟨_, _, Lexeme.isLongestForm_ofBytes found⟩
  case longest =>
    intro lexeme kind isLongest
    rw [ahead] at isLongest
    have isTaken := List.prefix_iff_eq_take.mp isLongest.isFront
    rw [scanned, Lexeme.ofBytes_of_isLongestForm isLongest, Lexeme.length, ← isTaken]
    rfl
  case word =>
    intro isFirst
    have isKind : cursor.scan.token.kind = Kind.ofWord cursor.scan.token.lexeme := by
      rw [scanned, Lexeme.ofBytes, if_pos (isLetter_iff.mpr isFirst)]
      exact congrArg Kind.ofWord (Lexeme.take_word first rest).symm
    rw [isKind]
    exact ⟨fun _ isKeyword => Kind.ofWord_eq_keyword isKeyword, Kind.ofWord_eq_identifier,
      (Kind.ofLetters_eq_ofWord _).symm⟩
  case openString =>
    rintro rfl noQuote
    obtain ⟨-, isOpen⟩ | ⟨inside, more, -, rfl, -⟩ := Lexeme.string_cases rest
    · have found : Lexeme.ofBytes '"'.toUInt8 rest = .unterminated (rest.length + 1) := isOpen
      rw [scanned, found]
      refine ⟨rfl, rfl, rfl, ?_, ?_⟩
      · have length := within.length_rest
        rw [ahead, List.length_cons] at length
        exact length
      · change cursor.rest.drop (rest.length + 1) = []
        rw [ahead]
        exact List.drop_length
    · simp at noQuote
  case unexpected =>
    intro noForm noString
    rw [ahead] at noForm
    rw [scanned, Lexeme.ofBytes_of_no_form noForm noString]
    rfl

/-- Of two equals signs behind an exclamation mark only the first belongs to its token. -/
theorem scan_bangEqual :
    let source := Text.encode "!==";
    Within source (ofSource source) ∧ IsLongestForm source (Text.encode "!=") .bangEqual ∧
      (ofSource source).scan = ⟨⟨.bangEqual, Text.encode "!=", 1⟩, 0, ⟨Text.encode "=", 2, 1⟩⟩ := by
  have found : Lexeme.ofBytes '!'.toUInt8 ['='.toUInt8, '='.toUInt8] = .token .bangEqual 2 := by decide
  have isLongest := Lexeme.isLongestForm_ofBytes found
  have place := within_ofSource ['!'.toUInt8, '='.toUInt8, '='.toUInt8]
  obtain ⟨-, longest, -⟩ := scan_isLongest place rfl (by decide) (by decide)
  exact ⟨place, isLongest, longest _ _ isLongest⟩

end Cursor

end Lox
