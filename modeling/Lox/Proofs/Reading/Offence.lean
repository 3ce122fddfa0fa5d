import Lox.Proofs.Reading.Exactness
import Lox.Proofs.Reading.Lookahead

/-!
# The first offending token

A source that is no program for another reason than the limits is refused at the first token
after which no program can follow, or at its end if there is no such token. The reader has then
taken the beginning of a program, since it reads the language of programs; and it cannot have
stopped early, since it delivers every program that goes on with that token.

Whatever stands behind the offending token has no part in the diagnostic.
-/

namespace Lox.Grammar

/-- The first token after which no program can follow stands at an index. -/
def IsFirstOffence (tokens : List Token) (index : Nat) : Prop :=
  index < tokens.length ∧ ¬Viable (tokens.take (index + 1)) ∧
    ∀ before < index, Viable (tokens.take (before + 1))

/-- The beginning of the beginning of a program is the beginning of it. -/
theorem Viable.of_append {tokens more : List Token} (viable : Viable (tokens ++ more)) :
    Viable tokens := by
  obtain ⟨last, sentence⟩ := viable
  exact ⟨more ++ last, by rwa [← List.append_assoc]⟩

/-- A token that cannot go on with a beginning of a program is the first offence. -/
theorem isFirstOffence_iff {taken : List Token} {token : Token} (more : List Token)
    (viable : Viable taken) (stuck : ¬Viable (taken ++ [token])) (index : Nat) :
    IsFirstOffence (taken ++ token :: more) index ↔ index = taken.length := by
  have beginning (count : Nat) (short : count ≤ taken.length) :
      Viable ((taken ++ token :: more).take count) := by
    rw [List.take_append_of_le_length short]
    rw [← List.take_append_drop count taken] at viable
    exact Viable.of_append viable
  have throughToken : (taken ++ token :: more).take (taken.length + 1) = taken ++ [token] := by
    rw [List.take_length_add_append]
    rfl
  constructor
  · intro offence
    obtain ⟨-, stuckAt, viableBefore⟩ := offence
    rcases lt_trichotomy index taken.length with less | same | greater
    · exact absurd (beginning (index + 1) less) stuckAt
    · exact same
    · have viableThere := viableBefore taken.length greater
      rw [throughToken] at viableThere
      exact absurd viableThere stuck
  · intro same
    subst same
    refine ⟨by simp, ?_, fun before less => beginning (before + 1) less⟩
    rw [throughToken]
    exact stuck

/-- There is no offence in the beginning of a program. -/
theorem Viable.no_offence {tokens : List Token} (viable : Viable tokens) (index : Nat) :
    ¬IsFirstOffence tokens index := by
  intro offence
  rw [← List.take_append_drop (index + 1) tokens] at viable
  exact offence.2.1 (Viable.of_append viable)

end Lox.Grammar

namespace Lox.Source

open Lox.Grammar Parse

/-- With more fuel than tokens, declarations are read in one way. -/
theorem declarations_eq {fuel fuel' : Nat} {tokens : List Token} (enough : tokens.length < fuel)
    (enough' : tokens.length < fuel') : declarations fuel tokens = declarations fuel' tokens := by
  obtain ⟨taken, split, same⟩ := agree_declarations (show tokens.length + 1 ≤ fuel from enough)
    (show tokens.length + 1 ≤ fuel' from enough') tokens (Nat.lt_succ_self _)
  have whole := same _ rfl
  rw [← split] at whole
  rw [whole]
  cases declarations fuel tokens <;> rfl

/-- A failure stays where it is whatever stands behind the token that it is at. -/
theorem declarations_of_failure {tokens taken rest' : List Token} {failure : Failure}
    {fuel fuel' : Nat} (enough : tokens.length < fuel)
    (failed : declarations fuel tokens = .error failure) (split : tokens = taken ++ failure.rest)
    (head : rest'.head? = failure.rest.head?) (enough' : (taken ++ rest').length < fuel') :
    declarations fuel' (taken ++ rest') = .error { failure with rest := rest' } := by
  have less : (taken ++ rest').length < max fuel fuel' := lt_of_lt_of_le enough' (le_max_right _ _)
  obtain ⟨taken', split', same⟩ := agree_declarations (show tokens.length + 1 ≤ fuel from enough)
    (show tokens.length + 1 ≤ max fuel fuel' by omega) tokens (Nat.lt_succ_self _)
  rw [failed] at split' same
  obtain rfl : taken = taken' := List.append_cancel_right (split.symm.trans split')
  rw [declarations_eq enough' less]
  exact same rest' head

/-- The diagnostic of a failure at a token. -/
def diagnosticAt (invalidTarget : Bool) (token : Token) : Diagnostic :=
  if token.kind = .error then .lexical token
  else if invalidTarget then .invalidTarget token
  else .unexpected token

/-- Tokens are refused at the first one after which no program can follow, whatever stands behind
it, or at their end. -/
theorem ofTokens_error {tokens : List Token} {diagnostic : Diagnostic}
    (refused : ofTokens tokens = .error diagnostic) :
    (∃ taken token more invalidTarget, tokens = taken ++ token :: more ∧ Viable taken ∧
        ¬Viable (taken ++ [token]) ∧ diagnostic = diagnosticAt invalidTarget token ∧
        ∀ others, ofTokens (taken ++ token :: others) = .error diagnostic) ∨
      (Viable tokens ∧ ¬Sentence tokens ∧
        ∃ last, tokens.getLast? = some last ∧ diagnostic = .endOfInput last.line) := by
  have noSentence : ¬Sentence tokens := by
    intro sentence
    obtain ⟨program, isProgram⟩ := sentence
    have accepted := (ofTokens_eq_ok_iff tokens _).mpr
      ⟨isProgram.settled, Stmt.nearestElseAll_settledAll program⟩
    rw [accepted] at refused
    exact absurd refused (by simp)
  unfold ofTokens at refused
  split at refused
  · exact absurd refused (by simp)
  next failure failed =>
    have isDiagnostic : failure.diagnostic tokens = diagnostic := Except.error.inj refused
    obtain ⟨taken, split, viable⟩ := (reads_declarations _).begun failed
    have viable : Viable taken := viable
    obtain ⟨invalidTarget, rest⟩ := failure
    cases rest with
    | nil =>
      rw [List.append_nil] at split
      subst split
      refine .inr ⟨viable, noSentence, ?_⟩
      cases isLast : tokens.getLast? with
      | none =>
        rw [List.getLast?_eq_none_iff] at isLast
        subst isLast
        exact absurd ⟨[], [], by simp, rfl, rfl⟩ noSentence
      | some last =>
        refine ⟨last, rfl, ?_⟩
        rw [← isDiagnostic, Failure.diagnostic, isLast]
        rfl
    | cons token more =>
      have isAt : diagnostic = diagnosticAt invalidTarget token := isDiagnostic.symm
      -- The same failure happens in front of other tokens behind this one.
      have stays (others : List Token) :
          ofTokens (taken ++ token :: others) = .error diagnostic := by
        have failed' := declarations_of_failure (Nat.lt_succ_self _) failed split
          (show (token :: others).head? = _ from rfl) (Nat.lt_succ_self _)
        rw [ofTokens, failed', isAt]
        rfl
      refine .inl ⟨taken, token, more, invalidTarget, split, viable, ?_, isAt, stays⟩
      intro goesOn
      obtain ⟨others, program, isProgram⟩ := goesOn
      have accepted := (ofTokens_eq_ok_iff _ _).mpr
        ⟨isProgram.settled, Stmt.nearestElseAll_settledAll program⟩
      rw [List.append_assoc, List.singleton_append, stays] at accepted
      exact absurd accepted (by simp)

/-- A source whose tokens are refused is refused for the same reason. -/
theorem ofSource_of_ofTokens {source : List UInt8} {diagnostic : Diagnostic}
    (refused : ofTokens (Source.tokens source) = .error diagnostic) :
    Program.ofSource source = .error diagnostic := by
  rw [Program.ofSource, Source.read, refused]
  rfl

/-- A source is refused because its tokens are, or because its tree exceeds a limit. -/
theorem refused_cases {source : List UInt8} {diagnostic : Diagnostic}
    (refused : Program.ofSource source = .error diagnostic) :
    ofTokens (Source.tokens source) = .error diagnostic ∨
      ∃ tree, ofTokens (Source.tokens source) = .ok tree ∧
        Stmt.excessOfList? tree = some diagnostic := by
  cases result : ofTokens (Source.tokens source) with
  | error found =>
    rw [ofSource_of_ofTokens result] at refused
    exact .inl (congrArg Except.error (Except.error.inj refused))
  | ok tree =>
    rw [Program.ofSource, read_of_ofTokens result] at refused
    cases excess : Stmt.excessOfList? tree with
    | none => simp [excess, Except.map] at refused
    | some found =>
      have same : found = diagnostic := by simpa [excess, Except.map] using refused
      exact .inr ⟨tree, rfl, excess.trans (congrArg some same)⟩

/-- A source refused for another reason than the limits has tokens that are refused. -/
theorem ofTokens_of_ofSource {source : List UInt8} {diagnostic : Diagnostic}
    (refused : Program.ofSource source = .error diagnostic) (noLimit : ¬IsLimit diagnostic) :
    ofTokens (Source.tokens source) = .error diagnostic := by
  obtain isRefused | ⟨tree, -, excess⟩ := refused_cases refused
  · exact isRefused
  · exact absurd (Stmt.isLimit_excessOfList? tree diagnostic excess) noLimit

/-- A source refused for another reason than the limits is refused at its first offending token, on
that token's line, whatever stands behind it. If none of its tokens offends, they are the beginning
of a program but no program, and the source is refused at its end, on the line of its last token. -/
theorem ofSource_error {source : List UInt8} {diagnostic : Diagnostic}
    (refused : Program.ofSource source = .error diagnostic) (noLimit : ¬IsLimit diagnostic) :
    (∀ index token, IsFirstOffence (Source.tokens source) index →
      (Source.tokens source)[index]? = some token →
        (token.kind = .error →
          diagnostic.message =
            ("[line " : Text) ++ Text.ofInt token.line ++ "] Error" ++ ": " ++ token.text) ∧
        (token.kind ≠ .error →
          ∃ reason ∈ [("Unexpected token." : Text), "Invalid assignment target."],
            diagnostic.message =
              ("[line " : Text) ++ Text.ofInt token.line ++ "] Error" ++
                ((" at '" : Text) ++ token.text ++ "'") ++ ": " ++ reason) ∧
        ∀ other, (Source.tokens other).take (index + 1) = (Source.tokens source).take (index + 1) →
          Program.ofSource other = .error diagnostic) ∧
    ((¬∃ index, IsFirstOffence (Source.tokens source) index) →
      Viable (Source.tokens source) ∧ ¬Sentence (Source.tokens source) ∧
        ∃ last, (Source.tokens source).getLast? = some last ∧
          diagnostic.message =
            ("[line " : Text) ++ Text.ofInt last.line ++ "] Error" ++ " at end" ++ ": " ++
              "Unexpected end of input.") := by
  have cases := ofTokens_error (ofTokens_of_ofSource refused noLimit)
  generalize Source.tokens source = tokens at cases
  obtain ⟨taken, token, more, invalidTarget, rfl, viable, stuck, rfl, stays⟩ |
    ⟨viable, noSentence, last, isLast, rfl⟩ := cases
  · have offence := isFirstOffence_iff more viable stuck
    refine ⟨?_, fun none => absurd ⟨taken.length, (offence _).mpr rfl⟩ none⟩
    intro index found isFirst isFound
    obtain rfl := (offence index).mp isFirst
    obtain rfl : token = found := by simpa using isFound
    refine ⟨?_, ?_, ?_⟩
    · intro isError
      simp [diagnosticAt, isError, Diagnostic.message, Diagnostic.line, Diagnostic.location,
        Diagnostic.reason]
    · intro noError
      rw [diagnosticAt, if_neg noError]
      cases invalidTarget with
      | false => exact ⟨_, List.mem_cons_self, rfl⟩
      | true => exact ⟨_, List.mem_cons_of_mem _ List.mem_cons_self, rfl⟩
    · intro other same
      rw [List.take_length_add_append] at same
      have split : Source.tokens other =
          taken ++ token :: (Source.tokens other).drop (taken.length + 1) := by
        rw [← List.take_append_drop (taken.length + 1) (Source.tokens other), same]
        simp
      exact ofSource_of_ofTokens (split ▸ stays _)
  · refine ⟨fun index _ isFirst => absurd isFirst (viable.no_offence index), fun _ => ?_⟩
    exact ⟨viable, noSentence, last, isLast, rfl⟩

/-- Tokens that are refused at an unexpected one first offend there. -/
theorem isFirstOffence_of_unexpected {tokens : List Token} {token : Token}
    (refused : ofTokens tokens = .error (.unexpected token)) :
    ∃ index, tokens[index]? = some token ∧ IsFirstOffence tokens index := by
  obtain ⟨taken, other, more, invalidTarget, rfl, viable, stuck, isDiagnostic, -⟩ |
    ⟨-, -, last, -, isDiagnostic⟩ := ofTokens_error refused
  · have same : token = other := by
      unfold diagnosticAt at isDiagnostic
      split at isDiagnostic
      · cases isDiagnostic
      · split at isDiagnostic <;> cases isDiagnostic
        rfl
    subst same
    exact ⟨taken.length, by simp, (isFirstOffence_iff more viable stuck _).mpr rfl⟩
  · cases isDiagnostic

/-- A closing parenthesis is refused in the second statement of a source, before the open string behind
it, and so in every source that begins with the same tokens. -/
theorem refused_at_closing_parenthesis :
    let source := Text.encode "print x;\nprint )\"";
    let offending : Token := ⟨.rightParen, [41], 2⟩
    Program.ofSource source = .error (.unexpected offending) ∧ ¬IsLimit (.unexpected offending) ∧
      IsFirstOffence (Source.tokens source) 4 ∧
      ((Source.tokens source)[5]?.map Token.kind) = some .error ∧
      ∀ other, (Source.tokens other).take 5 = (Source.tokens source).take 5 →
        Program.ofSource other = .error (.unexpected offending) := by
  intro source offending
  have noLimit : ¬IsLimit (.unexpected offending) := id
  have isTokens : Source.tokens source =
      [⟨.printWord, Text.encode "print", 1⟩, ⟨.identifier, [120], 1⟩, ⟨.semicolon, [59], 1⟩,
        ⟨.printWord, Text.encode "print", 2⟩, offending,
        ⟨.error, Text.encode "Unterminated string.", 2⟩] := by
    decide +kernel
  have refusedTokens : ofTokens (Source.tokens source) = .error (.unexpected offending) := by
    rw [isTokens]
    rfl
  have refused : Program.ofSource source = .error (.unexpected offending) :=
    ofSource_of_ofTokens refusedTokens
  obtain ⟨index, isFound, offence⟩ := isFirstOffence_of_unexpected refusedTokens
  obtain rfl : index = 4 := by
    have only : ∀ index < 6, (Source.tokens source)[index]? = some offending → index = 4 := by
      rw [isTokens]
      decide
    exact only index (Nat.lt_of_lt_of_eq offence.1 (congrArg List.length isTokens)) isFound
  have isError : (Source.tokens source)[5]?.map Token.kind = some .error := by
    rw [isTokens]
    rfl
  refine ⟨refused, noLimit, offence, isError, fun other same => ?_⟩
  exact ((ofSource_error refused noLimit).1 4 offending offence isFound).2.2 other same

end Lox.Source
