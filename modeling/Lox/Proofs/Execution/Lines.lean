import Lox.Proofs.Execution.Escapes
import Lox.Proofs.Reading.Spelling

/-!
# Lines show in diagnostics only

How the tokens of a source are laid out decides on which lines they end, and nothing else. A program
runs as it does without the lines of its tokens: the same is printed and bound, functions that are
declared differ in the lines of their tokens, and errors in the lines that they are reported for.

So programs of sources with tokens that are spelled alike run alike, because without lines they are one
program.
-/

namespace Lox

/-- The state without the lines of the functions in it. Its trace is left out, because it may end with
the line of an error. -/
def State.unplaced (state : State) : State :=
  { state with store := state.store.mapTokens Token.unplaced, trace := #[] }

/-- The defect without the line of its operator. -/
def Defect.unplaced : Defect → Defect
  | .unsupportedUnary operator => .unsupportedUnary operator.unplaced
  | .unknownOperator operator => .unknownOperator operator.unplaced
  | other => other

/-- The fault without its line. -/
def Fault.unplaced : Fault → Fault
  | .runtime error => .runtime { error with line := 0 }
  | .defect found => .defect found.unplaced

/-- How a run ends, without lines. -/
def Outcome.unplaced {α : Type} : Outcome α → Outcome α
  | .done result state => .done result state.unplaced
  | .failed fault state => .failed fault.unplaced state.unplaced
  | .unfinished => .unfinished

/-- A run beside the run without the lines of a program: a token stays as it is, or loses its line and
has a text of characters. -/
def lineLikeness : Likeness where
  tokens _ token token' := token' = token ∨ token' = token.unplaced ∧ token.text.OnlyChars
  kind_eq same := by obtain rfl | ⟨rfl, -⟩ := same <;> rfl
  lexeme_eq same := by obtain rfl | ⟨rfl, -⟩ := same <;> rfl
  strays := True
  hosted := True
  traces _ _ := True

/-- Both runs in one context. -/
def lineComparison (context : Context) : Comparison :=
  lineLikeness.comparisonIn context (Runs.Steps.trace_self (fun _ _ => trivial) rfl)

/-- Without lines, states that are alike are the same. -/
theorem State.unplaced_eq {left right : State} (alike : lineLikeness.States left right) :
    left.unplaced = right.unplaced := by
  have store : left.store.mapTokens Token.unplaced = right.store.mapTokens Token.unplaced := by
    refine alike.store.mapTokens_eq fun _ token token' same => ?_
    obtain rfl | ⟨rfl, -⟩ := same <;> rfl
  rw [State.unplaced, State.unplaced, store, alike.current_eq, alike.nextCell_eq, alike.output_eq]

/-- Faults side by side are the same without lines. If they differ, both are reported by texts of
characters. -/
theorem lineComparison_raised {context : Context} {fault fault' : Fault}
    (raised : (lineComparison context).Raised fault fault') :
    fault.unplaced = fault'.unplaced ∧
      (fault' = fault ∨ fault.message.OnlyChars ∧ fault'.message.OnlyChars) := by
  cases raised with
  | blamed isToken blamed =>
    obtain rfl | ⟨rfl, isText⟩ := isToken
    · exact ⟨rfl, .inl rfl⟩
    · exact ⟨rfl, .inr ⟨blamed.onlyChars isText _, blamed.onlyChars isText _⟩⟩
  | unsupportedUnary _ isToken | unknownOperator _ isToken =>
    obtain rfl | ⟨rfl, -⟩ := isToken
    · exact ⟨rfl, .inl rfl⟩
    · refine ⟨rfl, .inr ⟨?_, ?_⟩⟩ <;> simp [Fault.message, Defect.message, Token.shown, Text.quoted]
  | notStatement | notExpression | host | untraced => exact ⟨rfl, .inl rfl⟩

/-- Either both of two faults side by side can be traced, or they are one whose text cannot be stored. -/
theorem lineComparison_reported {context : Context} {fault fault' : Fault}
    (raised : (lineComparison context).Raised fault fault') :
    ((∀ state, ∃ lines, context.trace 1 (("runtime error: " : Text) ++ fault.message) state =
          .done () { state with trace := lines }) ∧
        ∀ state, ∃ lines, context.trace 1 (("runtime error: " : Text) ++ fault'.message) state =
          .done () { state with trace := lines }) ∨
      fault' = fault ∧ ∃ error, ∀ state,
        context.trace 1 (("runtime error: " : Text) ++ fault.message) state =
          .failed (.defect (.storage error)) state := by
  obtain ⟨-, rfl | ⟨isText, isText'⟩⟩ := lineComparison_raised raised
  · obtain traced | ⟨error, untraced, -, -⟩ :=
      context.trace_cases 1 (("runtime error: " : Text) ++ fault'.message)
    · exact .inl ⟨traced, traced⟩
    · exact .inr ⟨rfl, error, untraced⟩
  · exact .inl ⟨context.trace_onlyChars 1 (by simpa using isText),
      context.trace_onlyChars 1 (by simpa using isText')⟩

/-- A program whose names are texts of characters runs as it does without the lines of its tokens. -/
theorem Program.run_unplaced {program : Program}
    (named : ∀ token ∈ Node.tokensOfList program, token.text.OnlyChars) (fuel : Nat) (context : Context)
    (start : State) :
    (program.run fuel context start).unplaced = (program.unplaced.run fuel context start).unplaced := by
  have onlyChars : program.firstLine.OnlyChars := by simp [Program.firstLine, Text.ofNat]
  obtain ⟨lines, isBegun⟩ := context.trace_onlyChars 1 onlyChars start
  have sameLine : program.unplaced.firstLine = program.firstLine := by
    rw [firstLine, firstLine, unplaced, Node.mapTokensOfList_eq_map, List.length_map]
  have matched : List.Forall₂ (Node.Matched lineLikeness.toMatching) program program.unplaced :=
    Node.matched_mapTokensOfList program fun _ token isToken => .inr ⟨rfl, named token isToken⟩
  have alike : lineLikeness.States { start with trace := lines } { start with trace := lines } :=
    ⟨Likeness.stores_self trivial trivial fun _ _ _ => .inl rfl, rfl, rfl, rfl, trivial⟩
  have ends := ((lineComparison context).alike fuel).statements context.callsLeft matched
    (.inl trivial) _ _ alike
  rw [program.run_of_begun fuel isBegun, program.unplaced.run_of_begun fuel (sameLine ▸ isBegun)]
  change (lineComparison context).Ends Runs.anything (program.forM (execute fuel context) _)
    (program.unplaced.forM (execute fuel context) _) at ends
  generalize program.forM (execute fuel context) { start with trace := lines } = outcome at ends ⊢
  generalize program.unplaced.forM (execute fuel context) { start with trace := lines } =
    outcome' at ends ⊢
  cases ends with
  | unfinished => rfl
  | @done _ _ after after' states _ =>
    have same : after.unplaced = after'.unplaced := State.unplaced_eq states
    have onlyChars : Text.OnlyChars "run finished" := by simp
    obtain ⟨last, isLast⟩ := context.trace_onlyChars 1 onlyChars after
    obtain ⟨last', isLast'⟩ := context.trace_onlyChars 1 onlyChars after'
    dsimp only
    rw [isLast, isLast']
    exact congrArg (Outcome.done ()) same
  | @failed fault fault' after after' states raised =>
    have same : after.unplaced = after'.unplaced := State.unplaced_eq states
    have sameFault := (lineComparison_raised raised).1
    obtain ⟨traced, traced'⟩ | ⟨rfl, error, untraced⟩ := lineComparison_reported raised
    · obtain ⟨last, isLast⟩ := traced after
      obtain ⟨last', isLast'⟩ := traced' after'
      dsimp only
      rw [isLast, isLast']
      exact congrArg₂ Outcome.failed sameFault same
    · dsimp only
      rw [untraced, untraced]
      exact congrArg (Outcome.failed _) same

/-- Layout does not matter.

The lexemes of a source that reports no trouble may be joined again with any separators: the tokens are
spelled as before.

Of two sources with tokens that are spelled alike, both have programs, which are the same without lines,
or both are refused with diagnostics that are. Without lines their programs run alike from whatever
state and however much is traced: with the same output, the same names bound to the same values, and the
same fault if there is one. -/
theorem layout_does_not_matter :
    (∀ {source text : List UInt8}, (∀ token ∈ tokens source, token.kind ≠ .error) →
      Joined ((Source.tokens source).map Token.lexeme) text →
      (tokens text).map Token.spelling = (tokens source).map Token.spelling) ∧
    ∀ {first second : List UInt8},
      (tokens first).map Token.spelling = (tokens second).map Token.spelling →
      ((Program.ofSource first).map Program.unplaced).mapError Diagnostic.unplaced =
          ((Program.ofSource second).map Program.unplaced).mapError Diagnostic.unplaced ∧
        ∀ {program program' : Program}, Program.ofSource first = .ok program →
          Program.ofSource second = .ok program' →
          ∀ (fuel : Nat) (context : Context) (start : State),
            (program.run fuel context start).unplaced = (program'.run fuel context start).unplaced := by
  refine ⟨fun noTrouble joined => spelling_tokens_joined noTrouble joined, fun same => ?_⟩
  have sameProgram := Program.ofSource_unplaced same
  refine ⟨sameProgram, fun accepted accepted' fuel context start => ?_⟩
  rw [accepted, accepted'] at sameProgram
  rw [Program.run_unplaced (Program.onlyChars_of_ofSource accepted),
    Program.run_unplaced (Program.onlyChars_of_ofSource accepted')]
  exact congrArg (fun program => (Program.run fuel context program start).unplaced)
    (Except.ok.inj sameProgram)

/-- A source that fails to negate nil. -/
def printsNegation : List UInt8 :=
  Text.encode "print -nil;"

/-- Its lexemes further apart, so that they stand on two lines with a comment between them. -/
def printsNegationApart : List UInt8 :=
  Text.encode "print" ++ (Text.encode "\n" ++ (Text.encode "-" ++ (Text.encode " " ++
    (Text.encode "nil" ++ (Text.encode " // none\n" ++ Text.encode ";")))))

/-- The lexemes of the first source are joined in the second. So the tokens are spelled alike, and both
programs fail alike, the second one line further on. -/
theorem negation_apart_fails_one_line_on :
    let context := (Session.start 1 (Number.zero false)).context
    (tokens printsNegationApart).map Token.spelling = (tokens printsNegation).map Token.spelling ∧
      ∃ program program', Program.ofSource printsNegation = .ok program ∧
        Program.ofSource printsNegationApart = .ok program' ∧ program.unplaced = program'.unplaced ∧
        (program.run 5 context State.blank).unplaced = (program'.run 5 context State.blank).unplaced ∧
        (∃ after, program.run 5 context State.blank = .failed (.runtime ⟨.operandNotNumber, 1⟩) after) ∧
        ∃ after, program'.run 5 context State.blank = .failed (.runtime ⟨.operandNotNumber, 2⟩) after := by
  intro context
  have noTrouble : ∀ token ∈ tokens printsNegation, token.kind ≠ .error := by decide
  have joined : Joined ((Source.tokens printsNegation).map Token.lexeme) printsNegationApart := by
    have comment : Spacing (Text.encode "// none\n") :=
      @Spacing.comment (Text.encode " none") [] (by decide) .nil
    refine .cons ⟨_, _, rfl, by decide, .nil⟩ (.cons ⟨_, _, rfl, by decide, .nil⟩ (.cons ?_ (.last _)))
    exact ⟨_, _, rfl, by decide, comment⟩
  obtain ⟨respaced, alike⟩ := layout_does_not_matter
  have spelled := respaced noTrouble joined
  have accepted : Program.ofSource printsNegation = .ok [.print (.unary ⟨.minus, ['-'.toUInt8], 1⟩
    (.literal .nil))] := rfl
  have accepted' : Program.ofSource printsNegationApart = .ok [.print (.unary ⟨.minus, ['-'.toUInt8], 2⟩
    (.literal .nil))] := rfl
  obtain ⟨samePrograms, runAlike⟩ := alike spelled.symm
  rw [accepted, accepted'] at samePrograms
  exact ⟨spelled, _, _, accepted, accepted', Except.ok.inj samePrograms,
    runAlike accepted accepted' 5 context State.blank, ⟨_, rfl⟩, _, rfl⟩

end Lox
