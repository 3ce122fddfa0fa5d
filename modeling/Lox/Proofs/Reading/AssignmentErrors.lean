import Lox.Proofs.Grammar.Factors
import Lox.Proofs.Grammar.Lookback
import Lox.Proofs.Reading.Offence
import Lox.Proofs.Reading.Targets

/-!
# Which assignments are reported for their target

A source that is no program is refused at its first offending token, unless that token is a lexical error,
for one of two reasons. The reason is the target of an assignment if the token is an equals sign and a star
might stand in its place, that is if a complete operation ends before it. In all other cases the token is
only unexpected.

The reader and the grammar are compared on a fork: what the reader does at the equals sign tells whether
the tokens with a star in its place begin a program. Where a star may stand is then a matter of the grammar
alone.
-/

namespace Lox.Grammar

/-- The tokens before the first offending one are the beginning of a program, and it does not go on with
that one. -/
theorem IsFirstOffence.split {tokens : List Token} {index : Nat} {token : Token}
    (isFirst : IsFirstOffence tokens index) (isToken : tokens[index]? = some token) :
    tokens = tokens.take index ++ token :: tokens.drop (index + 1) ∧ Viable (tokens.take index) ∧
      ¬Viable (tokens.take index ++ [token]) := by
  obtain ⟨inside, stuck, viable⟩ := isFirst
  obtain rfl : tokens[index] = token := by
    rwa [List.getElem?_eq_getElem inside, Option.some_inj] at isToken
  refine ⟨?_, ?_, ?_⟩
  · rw [← List.drop_eq_getElem_cons inside, List.take_append_drop]
  · cases index with
    | zero => exact ⟨[], [], [], fun _ => nofun, rfl, rfl⟩
    | succ before => exact viable before (Nat.lt_succ_self before)
  · rwa [← List.take_concat_get' tokens index inside] at stuck

/-- An operand may stand at the start of a program. -/
theorem takesOperand_nil : TakesOperand [] := by
  intro operand isNil
  obtain ⟨tree, expression⟩ := (Derives.ofPrimary ⟨_, .literal (.nil isNil)⟩).ofUnary
  let semicolon : Token := ⟨.semicolon, [], 0⟩
  have statement : Statement .declaration ([operand] ++ [semicolon]) (.expression tree) :=
    .plain (.expression (.operation expression) rfl)
  exact ⟨[semicolon], _, [⟨_, _⟩], List.forall_mem_singleton.mpr statement, rfl, rfl⟩

end Lox.Grammar

namespace Lox.Source

open Lox.Grammar Parse

section

variable {taken more : List Token} {token : Token} {fuel : Nat}

/-- Where the declarations fail at a token, no program goes on with it. -/
theorem not_viable_of_failure {invalidTarget : Bool} (enough : (taken ++ token :: more).length < fuel)
    (failed : declarations fuel (taken ++ token :: more) = .error ⟨invalidTarget, token :: more⟩) :
    ¬Viable (taken ++ [token]) := by
  rintro ⟨others, program, isProgram⟩
  have accepted := (ofTokens_eq_ok_iff _ _).mpr
    ⟨isProgram.settled, Stmt.nearestElseAll_settledAll program⟩
  have stays := declarations_of_failure enough failed rfl (show (token :: others).head? = _ from rfl)
    (Nat.lt_succ_self _)
  rw [List.append_assoc, List.singleton_append, ofTokens, stays] at accepted
  cases accepted

/-- A reader of programs that has gone past a token has read it as one of a program. -/
theorem viable_of_gone (fuel : Nat)
    (gone : (left (declarations fuel (taken ++ token :: more))).length ≤ more.length) :
    Viable (taken ++ [token]) := by
  have read : ∃ consumed, taken ++ token :: more =
      consumed ++ left (declarations fuel (taken ++ token :: more)) ∧ Viable consumed := by
    cases result : declarations fuel (taken ++ token :: more) with
    | error failure => exact (reads_declarations fuel).begun result
    | ok success =>
      obtain ⟨consumed, split, isProgram⟩ := (reads_declarations fuel).taken result
      exact ⟨consumed, split, [], success.1, by rwa [List.append_nil]⟩
  obtain ⟨consumed, split, viable⟩ := read
  have lengths := congrArg List.length split
  simp only [List.length_append, List.length_cons] at lengths
  have inTokens : taken ++ [token] <+: taken ++ token :: more := ⟨more, by simp⟩
  have isConsumed : consumed <+: taken ++ token :: more := ⟨_, split.symm⟩
  have isFront : taken ++ [token] <+: consumed := by
    refine List.prefix_of_prefix_length_le inTokens isConsumed ?_
    simp only [List.length_append, List.length_singleton]
    omega
  obtain ⟨others, rfl⟩ := isFront
  exact viable.of_append

/-- The declarations fail at the first token that no program goes on with. -/
theorem failure_of_stuck (viable : Viable taken) (stuck : ¬Viable (taken ++ [token]))
    (enough : (taken ++ token :: more).length < fuel) :
    ∃ invalidTarget,
      declarations fuel (taken ++ token :: more) = .error ⟨invalidTarget, token :: more⟩ := by
  cases result : declarations fuel (taken ++ token :: more) with
  | ok success =>
    have isEnd := declarations_rest enough result
    have gone : (left (declarations fuel (taken ++ token :: more))).length ≤ more.length := by
      rw [result, left, isEnd]
      exact Nat.zero_le _
    exact absurd (viable_of_gone fuel gone) stuck
  | error failure =>
    obtain ⟨consumed, split, -⟩ := (reads_declarations fuel).begun result
    have notPast : ¬failure.rest.length ≤ more.length := fun gone =>
      stuck (viable_of_gone fuel (by rwa [result]))
    obtain ⟨invalidTarget, rest⟩ := failure
    dsimp only at split notPast
    have inTokens : token :: more <:+ taken ++ token :: more := ⟨taken, rfl⟩
    have isRest : rest <:+ taken ++ token :: more := ⟨consumed, split.symm⟩
    have isBack : token :: more <:+ rest := by
      refine List.suffix_of_suffix_length_le inTokens isRest ?_
      rw [List.length_cons]
      omega
    obtain ⟨behind, rfl⟩ := isBack
    cases behind with
    | nil => exact ⟨invalidTarget, rfl⟩
    | cons first behind =>
      -- The reader would have failed in the beginning of a program.
      have whole : taken = consumed ++ first :: behind := by
        rw [← List.append_assoc] at split
        exact List.append_cancel_right split
      subst whole
      rw [List.append_assoc] at result enough
      have early := not_viable_of_failure enough result
      have beginning : Viable (consumed ++ [first] ++ behind) := by
        rwa [List.append_assoc, List.singleton_append]
      exact absurd beginning.of_append early

/-- The failure at an equals sign is reported for its target exactly where a star might stand. -/
theorem failure_at_equal {equal star : Token} (isEqual : equal.kind = .equal)
    (isStar : star.kind = .star) {invalidTarget : Bool}
    (enough : (taken ++ equal :: more).length < fuel)
    (failed : declarations fuel (taken ++ equal :: more) = .error ⟨invalidTarget, equal :: more⟩) :
    invalidTarget = true ↔ Viable (taken ++ [star]) := by
  let fork : Fork := ⟨equal, more, star, [], isEqual, isStar⟩
  rw [List.length_append, List.length_cons] at enough
  have short : taken.length < fuel := by omega
  have parting := (@parts_declarations fork fuel).parts taken short
  change Parting fork false (declarations fuel (taken ++ equal :: more))
    (declarations fuel (taken ++ [star])) at parting
  rw [failed] at parting
  generalize onStar : declarations fuel (taken ++ [star]) = second at parting
  generalize first : (Except.error ⟨invalidTarget, equal :: more⟩ :
    Except Failure (List Stmt × List Token)) = result at parting
  cases parting with
  | ended => cases first
  | @failed flag behind unreported =>
    obtain ⟨rfl, same⟩ : invalidTarget = flag ∧ equal :: more = behind ++ equal :: more := by
      simpa [Fork.assigned, fork] using first
    obtain rfl := List.self_eq_append_left.mp same
    have noStar : ¬Viable (taken ++ [star]) := by
      refine not_viable_of_failure ?_ onStar
      rw [List.length_append, List.length_singleton]
      omega
    exact iff_of_false (by rw [unreported rfl]; exact Bool.false_ne_true) noStar
  | passed gone =>
    rw [← first] at gone
    exact absurd gone (Nat.not_succ_le_self _)
  | refused gone =>
    obtain rfl : invalidTarget = true := by simpa [Fork.assigned, fork] using first
    exact iff_of_true rfl (viable_of_gone fuel (by rwa [onStar]))
  | waiting isOperand => cases isOperand

/-- A failure is reported for a target exactly at an equals sign where a star might stand. -/
theorem failure_reported_iff {star : Token} (isStar : star.kind = .star) {invalidTarget : Bool}
    (enough : (taken ++ token :: more).length < fuel)
    (failed : declarations fuel (taken ++ token :: more) = .error ⟨invalidTarget, token :: more⟩) :
    invalidTarget = true ↔ token.kind = .equal ∧ Viable (taken ++ [star]) := by
  by_cases isEqual : token.kind = .equal
  · rw [failure_at_equal isEqual isStar enough failed, and_iff_right isEqual]
  · refine iff_of_false ?_ fun equal => isEqual equal.1
    rintro rfl
    -- Nothing depends on the fork here: the reader reports equals signs only.
    let fork : Fork := ⟨⟨.equal, [], 0⟩, [], star, [], rfl, isStar⟩
    obtain ⟨equal, others, same, isKind⟩ :=
      (@parts_declarations fork fuel).reports _ _ failed
    cases same
    exact isEqual isKind

end

/-- A source is refused at a token for a reason. -/
def RefusedAt (source : List UInt8) (token : Token) (reason : Text) : Prop :=
  ∃ diagnostic, Program.ofSource source = .error diagnostic ∧
    diagnostic.message =
      ("[line " : Text) ++ Text.ofInt token.line ++ "] Error" ++
        ((" at '" : Text) ++ token.text ++ "'") ++ ": " ++ reason

section

variable {source : List UInt8} {taken more : List Token} {token star : Token}

/-- A source is refused at its first offending token for one reason. -/
theorem refusedAt_iff {invalidTarget : Bool} (noError : token.kind ≠ .error)
    (refused : Program.ofSource source = .error (diagnosticAt invalidTarget token)) (reason : Text) :
    RefusedAt source token reason ↔
      reason = if invalidTarget then "Invalid assignment target." else "Unexpected token." := by
  have isMessage : (diagnosticAt invalidTarget token).message =
      ("[line " : Text) ++ Text.ofInt token.line ++ "] Error" ++
        ((" at '" : Text) ++ token.text ++ "'") ++ ": " ++
          if invalidTarget then "Invalid assignment target." else "Unexpected token." := by
    rw [diagnosticAt, if_neg noError]
    cases invalidTarget <;> rfl
  constructor
  · rintro ⟨diagnostic, isRefused, message⟩
    cases refused.symm.trans isRefused
    exact List.append_cancel_left (message.symm.trans isMessage)
  · rintro rfl
    exact ⟨_, refused, isMessage⟩

/-- The reason at the first offending token is the target of an assignment exactly if the token is an
equals sign where a star might stand. -/
theorem refusedAt_of_stuck (split : Source.tokens source = taken ++ token :: more)
    (viable : Viable taken) (stuck : ¬Viable (taken ++ [token])) (noError : token.kind ≠ .error)
    (isStar : star.kind = .star) :
    (RefusedAt source token "Invalid assignment target." ↔
      token.kind = .equal ∧ Viable (taken ++ [star])) ∧
    (RefusedAt source token "Unexpected token." ↔
      ¬(token.kind = .equal ∧ Viable (taken ++ [star]))) := by
  have enough : (taken ++ token :: more).length < (taken ++ token :: more).length + 1 :=
    Nat.lt_succ_self _
  obtain ⟨invalidTarget, failed⟩ := failure_of_stuck viable stuck enough
  have refused : Program.ofSource source = .error (diagnosticAt invalidTarget token) := by
    refine ofSource_of_ofTokens ?_
    rw [split, ofTokens, failed]
    rfl
  rw [← failure_reported_iff isStar enough failed, refusedAt_iff noError refused,
    refusedAt_iff noError refused]
  cases invalidTarget <;> decide

/-- Behind an operation other than a name an equals sign is the first offending token. -/
theorem equal_stuck_behind_operation {before operation : List Token} {tree : Expr} {equal : Token}
    (isOperation : Expression .disjunction operation tree) (noName : ∀ name, tree ≠ .variable name)
    (isEqual : equal.kind = .equal) : ¬Viable (before ++ operation ++ [equal]) := by
  intro viable
  obtain refuses | ⟨name, -, isName⟩ := isOperation.refusesEqual (by decide)
  · have passes := (Lookback.passes_append.mp viable.passes).2
    exact refuses.append before _ (passes.1 isEqual)
  · exact noName name isName

/-- Behind a token that ends no operand neither an equals sign nor a star may stand. -/
theorem stuck_behind_other (noEnd : ∀ last ∈ taken.getLast?, last.kind ∉ operandEnds)
    (isSign : token.kind = .equal ∨ token.kind = .star) : ¬Viable (taken ++ [token]) := by
  intro viable
  have passes := (Lookback.passes_append.mp viable.passes).2
  have ends : (Lookback.start.behind taken).last ∈ operandEnds.map some := by
    obtain isEqual | isStar := isSign
    · rw [(passes.1 isEqual).1]
      decide
    · exact (passes.2.1 isStar).1
  rcases List.eq_nil_or_concat taken with rfl | ⟨front, last, rfl⟩
  · exact absurd ends (by decide)
  · rw [List.concat_eq_append] at noEnd ends
    rw [Lookback.behind_append] at ends
    exact Lookback.last_next_notMem (noEnd last (by simp)) ends

/-- Behind a head neither an equals sign nor a star may stand. -/
theorem stuck_behind_head {before head : List Token} (isHead : Head head)
    (isSign : token.kind = .equal ∨ token.kind = .star) : ¬Viable (before ++ head ++ [token]) := by
  intro viable
  have passes := (Lookback.passes_append.mp viable.passes).2
  obtain isEqual | isStar := isSign
  · exact isHead.refusesEqual.append before _ (passes.1 isEqual)
  · have noHead := (passes.2.1 isStar).2
    rw [Lookback.behind_append, isHead.keeps.2.2] at noHead
    cases noHead

end

/-- At the first offending token of a source, unless it is a lexical error, the reason is the target of an
assignment if the token is an equals sign in whose place a star goes on with the beginning of a program,
and it is an unexpected token otherwise. A star does so exactly where a complete operation ends.

So an equals sign behind an operation other than a name is reported for its target, wherever an operand may
stand. Behind a token that ends no operand, and behind a head, it is unexpected. -/
theorem assignment_errors (source : List UInt8) :
    (∀ index token star, IsFirstOffence (Source.tokens source) index →
      (Source.tokens source)[index]? = some token → token.kind ≠ .error → star.kind = .star →
        (RefusedAt source token "Invalid assignment target." ↔
          token.kind = .equal ∧ Viable ((Source.tokens source).take index ++ [star])) ∧
        (RefusedAt source token "Unexpected token." ↔
          ¬(token.kind = .equal ∧ Viable ((Source.tokens source).take index ++ [star]))) ∧
        (Viable ((Source.tokens source).take index ++ [star]) ↔
          EndsOperation ((Source.tokens source).take index))) ∧
    (∀ before operation tree equal more,
      Source.tokens source = before ++ operation ++ equal :: more → equal.kind = .equal →
        TakesOperand before → Expression .disjunction operation tree →
        (∀ name, tree ≠ .variable name) → RefusedAt source equal "Invalid assignment target.") ∧
    (∀ taken equal more, Source.tokens source = taken ++ equal :: more → equal.kind = .equal →
      Viable taken →
        (∀ last ∈ taken.getLast?, last.kind ∉ operandEnds) ∨
          (∃ before head, taken = before ++ head ∧ Head head) →
        RefusedAt source equal "Unexpected token.") := by
  refine ⟨?first, ?operation, ?other⟩
  case first =>
    intro index token star isFirst isToken noError isStar
    obtain ⟨split, viable, stuck⟩ := IsFirstOffence.split isFirst isToken
    obtain ⟨isTarget, isUnexpected⟩ := refusedAt_of_stuck split viable stuck noError isStar
    exact ⟨isTarget, isUnexpected, viable_star_iff isStar⟩
  case operation =>
    intro before operation tree equal more split isEqual takes isOperation noName
    let star : Token := ⟨.star, [], 0⟩
    have viable := takes.viable_append ⟨tree, isOperation⟩
    have stuck := @equal_stuck_behind_operation before operation tree equal isOperation noName isEqual
    have reported := refusedAt_of_stuck split viable stuck (by rw [isEqual]; decide)
      (show star.kind = .star from rfl)
    have viableStar : Viable (before ++ operation ++ [star]) :=
      (viable_star_iff rfl).mpr ⟨before, operation, rfl, ⟨tree, isOperation⟩, takes⟩
    exact reported.1.mpr ⟨isEqual, viableStar⟩
  case other =>
    intro taken equal more split isEqual viable isOther
    let star : Token := ⟨.star, [], 0⟩
    have stuck (sign : Token) (isSign : sign.kind = .equal ∨ sign.kind = .star) :
        ¬Viable (taken ++ [sign]) := by
      obtain noEnd | ⟨before, head, rfl, isHead⟩ := isOther
      · exact stuck_behind_other noEnd isSign
      · exact stuck_behind_head isHead isSign
    have reported := refusedAt_of_stuck split viable (stuck equal (.inl isEqual))
      (by rw [isEqual]; decide) (show star.kind = .star from rfl)
    exact reported.2.mpr fun equal => stuck star (.inr rfl) equal.2

/-- An equals sign behind nil is reported for its target, and without anything before it is unexpected. -/
theorem equal_behind_nil_reported :
    RefusedAt [110, 105, 108, 61] ⟨.equal, [61], 1⟩ "Invalid assignment target." ∧
      EndsOperation [⟨.nilWord, [110, 105, 108], 1⟩] ∧
      RefusedAt [61] ⟨.equal, [61], 1⟩ "Unexpected token." := by
  let operand : Token := ⟨.nilWord, [110, 105, 108], 1⟩
  let equal : Token := ⟨.equal, [61], 1⟩
  let star : Token := ⟨.star, [42], 1⟩
  have split : Source.tokens [110, 105, 108, 61] = [operand, equal] := rfl
  have alone : Source.tokens [61] = [equal] := rfl
  have isOperation : Expression .disjunction [operand] (.literal .nil) :=
    .alone .disjunction <| .alone .conjunction <| .alone .equality <| .alone .comparison <|
      .alone .sum <| .alone .product <| .unprefixed <| .uncalled <| .literal <| .nil rfl
  have stuck : ¬Viable ([operand] ++ [equal]) :=
    @equal_stuck_behind_operation [] [operand] _ equal isOperation nofun rfl
  have isFirst : IsFirstOffence (Source.tokens [110, 105, 108, 61]) 1 := by
    rw [split]
    exact (@isFirstOffence_iff [operand] equal [] (takesOperand_nil operand rfl) stuck 1).mpr rfl
  obtain ⟨first, operation, -⟩ := assignment_errors [110, 105, 108, 61]
  have reported := operation [] [operand] _ equal [] split rfl takesOperand_nil isOperation nofun
  obtain ⟨isTarget, -, endsOperation⟩ := first 1 equal star isFirst rfl nofun rfl
  refine ⟨reported, endsOperation.mp (isTarget.mp reported).2, ?_⟩
  exact (assignment_errors [61]).2.2 [] equal [] alone rfl ⟨[], _, [], fun _ => nofun, rfl, rfl⟩
    (.inl nofun)

end Lox.Source
