import Lox.Proofs.CommandLine.Emission
import Lox.Proofs.Reading.Offence
import Lox.Proofs.Text.Slices
import Lox.Proofs.Token.Lexemes

/-!
# Bytes that are no characters

A source goes from bytes to a text, is scanned as the bytes of that text, and is handed to the reader
token by token, each as a text from which its lexeme is made again. No byte is lost on the way,
whether it belongs to a character or not, and so nothing depends on the way.

The quotes of a string are taken off its text, and they are the first byte and the last of its lexeme.
They are bytes of ASCII, so the bytes between them decode to what is left of the text.
-/

namespace Lox

/-- A token made again from its text. -/
def Token.throughText (token : Token) : Token :=
  { token with lexeme := token.text.encode }

/-- A token that is made again from its text is the same. -/
theorem Token.throughText_eq (token : Token) : token.throughText = token := by
  rw [throughText, text, Text.encode_decode]

/-- The program of a text: its bytes are scanned, and the tokens of its tree are made again from
their texts. -/
def Program.ofText (text : Text) : Except Diagnostic Program :=
  (Program.ofSource text.encode).map (Node.mapTokensOfList Token.throughText)

/-- The program of a text is that of its bytes. -/
theorem Program.ofText_eq (text : Text) : Program.ofText text = Program.ofSource text.encode := by
  have same : Token.throughText = id := funext Token.throughText_eq
  rw [Program.ofText, same]
  cases Program.ofSource text.encode with
  | error diagnostic => rfl
  | ok program => exact congrArg Except.ok (Node.mapTokensOfList_id program)

/-- A diagnostic is at a token: it names the line of the token, and what it shows of the source, if
anything, is the token. Of a token that is trouble it shows the reason. -/
def Diagnostic.IsAt (diagnostic : Diagnostic) (token : Token) : Prop :=
  diagnostic.line = token.line ∧
    (diagnostic.location = (" at '" : Text) ++ token.text ++ "'" ∨
      diagnostic.location = " at end" ∨
      token.kind = .error ∧ diagnostic.location = [] ∧ diagnostic.reason = token.text)

/-- A text is the string of a token: the token is a string, and its text without the quotes is that
of the bytes between them. -/
def Token.Holds (token : Token) (text : Text) : Prop :=
  token.kind = .string ∧ text = (token.text.drop 1).dropLast ∧
    ∃ inside, '"'.toUInt8 ∉ inside ∧ token.lexeme = '"'.toUInt8 :: (inside ++ ['"'.toUInt8]) ∧
      text = Text.decode inside ∧ text.encode = inside

/-- The value that a string token writes is the string of the token. -/
theorem holds_of_isLiteral {source : List UInt8} {token : Token} {text : Text}
    (isToken : token ∈ tokens source) (isLiteral : Grammar.IsLiteral token (.text text)) :
    token.Holds text := by
  cases isLiteral with
  | string isString =>
    obtain ⟨inside, noQuote, lexeme⟩ := lexeme_of_kind_string isToken isString
    have between : Text.decode (token.lexeme.drop 1).dropLast = Text.decode inside := by
      rw [lexeme, List.drop_one, List.tail_cons, List.dropLast_concat]
    rw [between]
    refine ⟨isString, ?_, inside, noQuote, lexeme, rfl, Text.encode_decode inside⟩
    rw [Token.text, lexeme, Text.decode_between_ascii (by decide)]

namespace Source

/-- The tokens of a source up to its end are tokens of it. -/
theorem tokens_subset (source : List UInt8) : Source.tokens source ⊆ Lox.tokens source :=
  List.dropLast_subset _

open Grammar in
/-- The string literals of a program are strings of tokens of its source. -/
theorem holds_of_mem_strings {source : List UInt8} {program : Program} {text : Text}
    (accepted : Program.ofSource source = .ok program) (isString : text ∈ Node.stringsOfList program) :
    ∃ token ∈ Lox.tokens source, token.Holds text := by
  obtain ⟨tree, isRead, rfl⟩ := (ofSource_eq_ok_iff source program).mp accepted
  obtain ⟨⟨isProgram, -⟩, -⟩ := (read_eq_ok_iff source tree).mp isRead
  rw [Node.stringsOfList_eq_leaves] at isString
  obtain ⟨leaf, isLeaf, isText⟩ := List.mem_filterMap.mp isString
  have origin := isProgram.origin leaf isLeaf
  cases leaf with
  | token role found => cases isText
  | literal value =>
    cases value with
    | text content =>
      obtain rfl : content = text := Option.some.inj isText
      -- The condition of a loop that has none is no string.
      obtain isTrue | ⟨token, isToken, isLiteral⟩ := origin
      · cases isTrue
      · have isToken := tokens_subset source isToken
        exact ⟨token, isToken, holds_of_isLiteral isToken isLiteral⟩
    | _ => cases isText

/-- The diagnostic of a failure at a token is at the token. -/
theorem isAt_diagnosticAt (invalidTarget : Bool) (token : Token) :
    (diagnosticAt invalidTarget token).IsAt token := by
  unfold diagnosticAt
  split
  · next isError => exact ⟨rfl, .inr (.inr ⟨isError, rfl, rfl⟩)⟩
  · split <;> exact ⟨rfl, .inl rfl⟩

/-- A diagnostic about the limits at a leaf that comes from tokens is at one of them. -/
theorem exists_isAt_of_isLimitAt {tokens : List Token} {diagnostic : Diagnostic}
    (isLimit : IsLimitAt (Grammar.Origin tokens) diagnostic) :
    ∃ token ∈ tokens, diagnostic.IsAt token := by
  cases diagnostic with
  | tooManyParameters token | tooManyArguments token =>
    exact ⟨token, (Grammar.mem_kept.mp isLimit).1, rfl, .inl rfl⟩
  | _ => exact absurd isLimit id

/-- Every diagnostic of a source is at a token of the source. -/
theorem exists_isAt {source : List UInt8} {diagnostic : Diagnostic}
    (refused : Program.ofSource source = .error diagnostic) :
    ∃ token ∈ Lox.tokens source, diagnostic.IsAt token := by
  have upToEnd : ∃ token ∈ Source.tokens source, diagnostic.IsAt token := by
    obtain isRefused | ⟨tree, isTree, excess⟩ := refused_cases refused
    · obtain ⟨taken, token, more, invalidTarget, split, -, -, rfl, -⟩ | ⟨-, -, last, isLast, rfl⟩ :=
        ofTokens_error isRefused
      · exact ⟨token, split ▸ List.mem_append_right _ List.mem_cons_self,
          isAt_diagnosticAt invalidTarget token⟩
      · exact ⟨last, List.mem_of_getLast? isLast, rfl, .inr (.inl rfl)⟩
    · obtain ⟨isProgram, -⟩ := (ofTokens_eq_ok_iff _ _).mp isTree
      have origin := (Node.areWithin_iff_leaves _).mpr isProgram.origin
      exact exists_isAt_of_isLimitAt (Stmt.isLimitAt_excessOfList? tree origin diagnostic excess)
  obtain ⟨token, isToken, isAt⟩ := upToEnd
  exact ⟨token, tokens_subset source isToken, isAt⟩

end Source

/-- Raw bytes survive scanning and reading, whatever bytes they are. The bytes that are scanned are
those of the source, and it does not matter whether a program is given as bytes or as a text. Each
token that a program keeps is one of its source. Each string literal is the string of a token of the
source, so encoding it gives the bytes between the quotes. And each diagnostic is at a token. -/
theorem raw_bytes_survive (source : List UInt8) :
    (Text.decode source).encode = source ∧
      Program.ofText (Text.decode source) = Program.ofSource source ∧
      (∀ program, Program.ofSource source = .ok program →
        Node.tokensOfList program ⊆ tokens source ∧
          ∀ text ∈ Node.stringsOfList program, ∃ token ∈ tokens source, token.Holds text) ∧
      ∀ diagnostic, Program.ofSource source = .error diagnostic →
        ∃ token ∈ tokens source, diagnostic.IsAt token := by
  have same := Text.encode_decode source
  refine ⟨same, ?_, ?_, fun diagnostic refused => Source.exists_isAt refused⟩
  · rw [Program.ofText_eq, same]
  · intro program accepted
    refine ⟨fun token isToken => ?_, fun text isText => Source.holds_of_mem_strings accepted isText⟩
    exact (Grammar.mem_kept.mp (Program.tokens_subset accepted isToken)).1

/-- A byte that begins a sequence survives in front of a closing quote, where the sequence does not go
on. By itself it is refused at the token of the trouble. -/
theorem lone_byte_survives :
    let source := CommandLine.printsByte 195
    Program.ofText (Text.decode source) = .ok [.print (.literal (.text [.stray 195]))] ∧
      (∃ token ∈ tokens source, token.Holds [.stray 195]) ∧
      ∃ diagnostic, Program.ofText (Text.decode [195]) = .error diagnostic ∧
        ∃ token ∈ tokens [195], diagnostic.IsAt token := by
  intro source
  have accepted : Program.ofSource source = .ok [.print (.literal (.text [.stray 195]))] := rfl
  have refused : Program.ofSource [195] =
      .error (.lexical ⟨.error, Text.encode "Unexpected character.", 1⟩) := rfl
  obtain ⟨-, same, trees, -⟩ := raw_bytes_survive source
  obtain ⟨-, same', -, diagnostics⟩ := raw_bytes_survive [195]
  refine ⟨same.trans accepted, ?_, _, same'.trans refused, diagnostics _ refused⟩
  exact (trees _ accepted).2 _ List.mem_cons_self

end Lox
