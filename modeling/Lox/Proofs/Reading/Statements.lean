import Lox.Proofs.Reading.Expressions

/-!
# What the statement readers take

Each reader of a statement reads the language of its position, and the reader of declarations
reads the language of programs. Most of them begin behind the token that told them from others,
so their languages are stated with that token in front.
-/

namespace Lox.Grammar

open Source

/-- A statement that may stand as a body may stand at every position. -/
theorem Statement.atPosition (position : Position) {tokens : List Token} {tree : Stmt}
    (statement : Statement .body tokens tree) : Statement position tokens tree := by
  cases position with
  | declaration => exact .plain statement
  | body => exact statement

/-- An empty block is a statement at every position. -/
theorem Statement.emptyBlock (position : Position) :
    Statement position [⟨.leftBrace, [], 0⟩, ⟨.rightBrace, [], 0⟩] (.block []) := by
  have block : Statement .body (⟨.leftBrace, [], 0⟩ :: (spelled [] ++ [⟨.rightBrace, [], 0⟩]))
      (.block ([].map Phrase.tree)) :=
    .block rfl (fun _ member => nomatch member) rfl
  exact block.atPosition position

end Lox.Grammar

namespace Lox.Source

open Lox.Grammar Parse

/-- The rest of a variable declaration is read as such. -/
theorem reads_variableTail (fuel : Nat) :
    Reads
      (fun tokens declared => ∀ keyword : Token, keyword.kind = .varWord →
        Variable (keyword :: tokens) declared.1 declared.2)
      (variableTail fuel) := by
  refine ((Reads.expect .identifier).bind _ fun name _ _ => (Reads.accept [.equal]).bind
    (fun found tokens declared => (found = none ∧ ∃ semicolon, tokens = [semicolon] ∧
        semicolon.kind = .semicolon ∧ declared = (name, none)) ∨
      ∃ equal inside value semicolon, found = some equal ∧ Expression .assignment inside value ∧
        tokens = inside ++ [semicolon] ∧ semicolon.kind = .semicolon ∧
        declared = (name, some value)) fun found _ _ => ?_).mono ?_
  · cases found with
    | none =>
      refine ((Reads.expect .semicolon).bind _ fun _ _ _ =>
        Reads.pure (name, (none : Option Expr))).mono ?_
      intro _ _ followed
      obtain ⟨_, semicolon, _, ⟨rfl, isSemicolon⟩, ⟨rfl, rfl⟩, rfl⟩ := followed
      exact .inl ⟨rfl, semicolon, rfl, isSemicolon, rfl⟩
    | some equal =>
      refine ((reads_expression fuel).bind _ fun value _ _ =>
        (Reads.expect .semicolon).bind _ fun _ _ _ => Reads.pure (name, some value)).mono ?_
      intro _ _ followed
      obtain ⟨inside, value, _, isValue,
        ⟨_, semicolon, _, ⟨rfl, isSemicolon⟩, ⟨rfl, rfl⟩, rfl⟩, rfl⟩ := followed
      exact .inr ⟨equal, inside, value, semicolon, rfl, isValue, by simp, isSemicolon, rfl⟩
  · intro _ declared followed keyword isKeyword
    obtain ⟨_, name, _, ⟨rfl, isName⟩, ⟨_, found, _, accepted, next, rfl⟩, rfl⟩ := followed
    rcases accepted with ⟨rfl, rfl⟩ | ⟨equal, rfl, isEqual, rfl⟩
    · obtain ⟨-, semicolon, rfl, isSemicolon, rfl⟩ | ⟨_, _, _, _, impossible, -⟩ := next
      · exact .plain isKeyword isName isSemicolon
      · simp at impossible
    · obtain ⟨impossible, -⟩ | ⟨_, inside, value, semicolon, -, isValue, rfl, isSemicolon, rfl⟩ :=
        next
      · simp at impossible
      · exact .initialized isKeyword isName (by simpa using isEqual) isValue isSemicolon

/-- An expression and its semicolon are read as such. -/
theorem reads_terminated (fuel : Nat) :
    Reads
      (fun tokens value => ∃ inside semicolon, Expression .assignment inside value ∧
        semicolon.kind = .semicolon ∧ tokens = inside ++ [semicolon])
      (terminated fuel) := by
  refine ((reads_expression fuel).bind _ fun value _ _ =>
    (Reads.expect .semicolon).bind _ fun _ _ _ => Reads.pure value).mono ?_
  intro _ _ followed
  obtain ⟨inside, value, _, isValue, ⟨_, semicolon, _, ⟨rfl, isSemicolon⟩, ⟨rfl, rfl⟩, rfl⟩, rfl⟩ :=
    followed
  exact ⟨inside, semicolon, isValue, isSemicolon, by simp⟩

/-- A condition in parentheses is read as such. -/
theorem reads_condition (fuel : Nat) :
    Reads
      (fun tokens value => ∃ opening inside closing, opening.kind = .leftParen ∧
        Expression .assignment inside value ∧ closing.kind = .rightParen ∧
        tokens = opening :: (inside ++ [closing]))
      (condition fuel) := by
  refine ((Reads.expect .leftParen).bind _ fun _ _ _ => (reads_expression fuel).bind _
    fun value _ _ => (Reads.expect .rightParen).bind _ fun _ _ _ => Reads.pure value).mono ?_
  intro _ _ followed
  obtain ⟨_, opening, _, ⟨rfl, isOpening⟩, ⟨inside, value, _, isValue,
    ⟨_, closing, _, ⟨rfl, isClosing⟩, ⟨rfl, rfl⟩, rfl⟩, rfl⟩, rfl⟩ := followed
  exact ⟨opening, inside, closing, isOpening, isValue, isClosing, by simp⟩

/-- An expression that may be left out is read as such. -/
theorem reads_optionalExpression (kind : Kind) (fuel : Nat) :
    Reads OptionalExpression (optionalBefore kind (expression fuel)) := by
  apply ((reads_expression fuel).optionalBefore kind).mono
  intro _ _ read
  obtain ⟨rfl, rfl⟩ | ⟨value, rfl, isValue⟩ := read
  · exact .absent
  · exact .present isValue

/-- The first clause of a loop is read as such. -/
theorem reads_loopStart (fuel : Nat) : Reads FirstClause (loopStart fuel) := by
  refine ((Reads.accept [.semicolon, .varWord]).bind
    (fun found tokens start => (found = none ∧ FirstClause tokens start) ∨
      ∃ token, found = some token ∧ (token.kind ∈ [Kind.semicolon, Kind.varWord] →
        FirstClause (token :: tokens) start)) fun found _ _ => ?_).mono ?_
  · cases found with
    | none =>
      apply (((reads_terminated fuel).map LoopStart.expression).map some).mono
      intro _ _ read
      obtain ⟨_, ⟨value, ⟨inside, semicolon, isValue, isSemicolon, rfl⟩, rfl⟩, rfl⟩ := read
      exact .inl ⟨rfl, .expression isValue isSemicolon⟩
    | some token =>
      dsimp only
      split
      · next isSemicolon =>
        apply (Reads.pure (none : Option LoopStart)).mono
        intro _ _ read
        obtain ⟨rfl, rfl⟩ := read
        exact .inr ⟨token, rfl, fun _ => .absent isSemicolon⟩
      · next notSemicolon =>
        refine ((reads_variableTail fuel).bind _ fun declared _ _ =>
          Reads.pure (some (LoopStart.var declared.1 declared.2))).mono ?_
        intro _ _ followed
        obtain ⟨tokens, declared, _, isVariable, ⟨rfl, rfl⟩, rfl⟩ := followed
        refine .inr ⟨token, rfl, fun isKind => .var ?_⟩
        simpa using isVariable token (by simpa [notSemicolon] using isKind)
  · intro _ start followed
    obtain ⟨_, found, _, accepted, next, rfl⟩ := followed
    rcases accepted with ⟨rfl, rfl⟩ | ⟨token, rfl, isKind, rfl⟩
    · obtain ⟨-, isStart⟩ | ⟨_, impossible, -⟩ := next
      · exact isStart
      · simp at impossible
    · obtain ⟨impossible, -⟩ | ⟨_, same, isStart⟩ := next
      · simp at impossible
      · cases same
        exact isStart isKind

/-- Parameters that may be left out are read as such. -/
theorem reads_parameters (fuel : Nat) :
    Reads (fun tokens parameters => Parameters tokens (parameters.getD []))
      (optionalBefore .rightParen (separated (expect .identifier) fuel)) := by
  apply (((Reads.expect .identifier).separated fuel).optionalBefore .rightParen).mono
  intro _ _ read
  obtain ⟨rfl, rfl⟩ | ⟨_, rfl, _, first, others, ⟨rfl, isFirst⟩, commas, members, rfl, rfl⟩ := read
  · exact .absent
  · exact .present isFirst commas fun link member => ⟨(members link member).2, (members link member).1⟩

variable {nested : Position → Parse Stmt}

/-- Declarations up to a closing brace are read as such. -/
theorem reads_blockTail (reads : ∀ position, Reads (Statement position) (nested position))
    (fuel : Nat) :
    Reads
      (fun tokens body => ∃ phrases : List (Phrase Stmt), ∃ closing : Token,
        (∀ phrase ∈ phrases, Statement .declaration phrase.tokens phrase.tree) ∧
          closing.kind = .rightBrace ∧ tokens = spelled phrases ++ [closing] ∧
          body = phrases.map Phrase.tree)
      (blockTail fuel nested) := by
  refine (((reads .declaration).itemsUntil (some .rightBrace) fuel).bind _ fun body _ _ =>
    (Reads.expect .rightBrace).bind _ fun _ _ _ => Reads.pure body).mono ?_
  intro _ _ followed
  obtain ⟨_, _, _, ⟨phrases, declarations, rfl, rfl⟩,
    ⟨_, closing, _, ⟨rfl, isClosing⟩, ⟨rfl, rfl⟩, rfl⟩, rfl⟩ := followed
  exact ⟨phrases, closing, declarations, isClosing, by simp, rfl⟩

/-- The rest of a function declaration is read as such. -/
theorem reads_functionTail (reads : ∀ position, Reads (Statement position) (nested position))
    (fuel : Nat) {keyword : Token} (isKeyword : keyword.kind = .funWord) :
    Reads (fun tokens tree => Statement .declaration (keyword :: tokens) tree)
      (functionTail fuel nested) := by
  refine ((Reads.expect .identifier).bind _ fun name _ _ => (Reads.expect .leftParen).bind _
    fun _ _ _ => (reads_parameters fuel).bind _ fun parameters _ _ =>
      (Reads.expect .rightParen).bind _ fun _ _ _ => (Reads.expect .leftBrace).bind _ fun _ _ _ =>
        (reads_blockTail reads fuel).bind _ fun body _ _ =>
          Reads.pure (Stmt.function name (parameters.getD []) body)).mono ?_
  intro _ _ followed
  obtain ⟨_, name, _, ⟨rfl, isName⟩, ⟨_, opening, _, ⟨rfl, isOpening⟩,
    ⟨parameterTokens, parameters, _, areParameters, ⟨_, closing, _, ⟨rfl, isClosing⟩,
      ⟨_, brace, _, ⟨rfl, isBrace⟩, ⟨_, _, _, ⟨phrases, last, declarations, isLast, rfl, rfl⟩,
        ⟨rfl, rfl⟩, rfl⟩, rfl⟩, rfl⟩, rfl⟩, rfl⟩, rfl⟩ := followed
  simpa using
    Statement.function isKeyword isName isOpening areParameters isClosing isBrace declarations isLast

/-- The rest of a loop with clauses is read as such. -/
theorem reads_forTail (reads : ∀ position, Reads (Statement position) (nested position))
    (fuel : Nat) {keyword : Token} (isKeyword : keyword.kind = .forWord) :
    Reads (fun tokens tree => Statement .body (keyword :: tokens) tree) (forTail fuel nested) := by
  refine ((Reads.expect .leftParen).bind _ fun _ _ _ => (reads_loopStart fuel).bind _
    fun start _ _ => (reads_optionalExpression .semicolon fuel).bind _ fun condition _ _ =>
      (Reads.expect .semicolon).bind _ fun _ _ _ =>
        (reads_optionalExpression .rightParen fuel).bind _ fun increment _ _ =>
          (Reads.expect .rightParen).bind _ fun _ _ _ => (reads .body).bind _ fun body _ _ =>
            Reads.pure (Stmt.forLoop start condition increment body)).mono ?_
  intro _ _ followed
  obtain ⟨_, opening, _, ⟨rfl, isOpening⟩, ⟨startTokens, start, _, isStart,
    ⟨conditionTokens, condition, _, isCondition, ⟨_, semicolon, _, ⟨rfl, isSemicolon⟩,
      ⟨incrementTokens, increment, _, isIncrement, ⟨_, closing, _, ⟨rfl, isClosing⟩,
        ⟨bodyTokens, body, _, isBody, ⟨rfl, rfl⟩, rfl⟩, rfl⟩, rfl⟩, rfl⟩, rfl⟩, rfl⟩, rfl⟩ := followed
  simpa using
    Statement.forLoop isKeyword isOpening isStart isCondition isSemicolon isIncrement isClosing isBody

/-- The rest of a conditional is read as such. -/
theorem reads_ifTail (reads : ∀ position, Reads (Statement position) (nested position))
    (fuel : Nat) {keyword : Token} (isKeyword : keyword.kind = .ifWord) :
    Reads (fun tokens tree => Statement .body (keyword :: tokens) tree) (ifTail fuel nested) := by
  refine ((reads_condition fuel).bind _ fun test _ _ => (reads .body).bind _ fun thenBranch _ _ =>
    (Reads.accept [.elseWord]).bind
      (fun found tokens tree =>
        (found = none ∧ tokens = [] ∧ tree = Stmt.ifThen test thenBranch) ∨
          ∃ word elseBranch, found = some word ∧ Statement .body tokens elseBranch ∧
            tree = Stmt.ifElse test thenBranch elseBranch) fun found _ _ => ?_).mono ?_
  · cases found with
    | none => exact (Reads.pure _).mono fun _ _ ⟨empty, same⟩ => .inl ⟨rfl, empty, same⟩
    | some word =>
      refine ((reads .body).bind _ fun elseBranch _ _ =>
        Reads.pure (Stmt.ifElse test thenBranch elseBranch)).mono ?_
      intro _ _ followed
      obtain ⟨tokens, elseBranch, _, isElse, ⟨rfl, rfl⟩, rfl⟩ := followed
      exact .inr ⟨word, elseBranch, rfl, by simpa using isElse, rfl⟩
  · intro _ _ followed
    obtain ⟨_, test, _, ⟨opening, inside, closing, isOpening, isTest, isClosing, rfl⟩,
      ⟨thenTokens, thenBranch, _, isThen, ⟨_, found, _, accepted, next, rfl⟩, rfl⟩, rfl⟩ := followed
    rcases accepted with ⟨rfl, rfl⟩ | ⟨word, rfl, isWord, rfl⟩
    · obtain ⟨-, rfl, rfl⟩ | ⟨_, _, impossible, -⟩ := next
      · simpa using Statement.ifThen isKeyword isOpening isTest isClosing isThen
      · simp at impossible
    · obtain ⟨impossible, -⟩ | ⟨_, elseBranch, -, isElse, rfl⟩ := next
      · simp at impossible
      · have isElseWord : word.kind = .elseWord := by simpa using isWord
        simpa using Statement.ifElse isKeyword isOpening isTest isClosing isThen isElseWord isElse

/-- The rest of a loop without clauses is read as such. -/
theorem reads_whileTail (reads : ∀ position, Reads (Statement position) (nested position))
    (fuel : Nat) {keyword : Token} (isKeyword : keyword.kind = .whileWord) :
    Reads (fun tokens tree => Statement .body (keyword :: tokens) tree)
      (whileTail fuel nested) := by
  refine ((reads_condition fuel).bind _ fun test _ _ => (reads .body).bind _ fun body _ _ =>
    Reads.pure (Stmt.whileLoop test body)).mono ?_
  intro _ _ followed
  obtain ⟨_, test, _, ⟨opening, inside, closing, isOpening, isTest, isClosing, rfl⟩,
    ⟨bodyTokens, body, _, isBody, ⟨rfl, rfl⟩, rfl⟩, rfl⟩ := followed
  simpa using Statement.whileLoop isKeyword isOpening isTest isClosing isBody

/-- The rest of a variable declaration is read as a statement. -/
theorem reads_varTail (fuel : Nat) {keyword : Token} (isKeyword : keyword.kind = .varWord) :
    Reads (fun tokens tree => Statement .declaration (keyword :: tokens) tree) (varTail fuel) := by
  refine ((reads_variableTail fuel).bind _ fun declared _ _ =>
    Reads.pure (Stmt.var declared.1 declared.2)).mono ?_
  intro _ _ followed
  obtain ⟨tokens, declared, _, isVariable, ⟨rfl, rfl⟩, rfl⟩ := followed
  simpa using Statement.var (isVariable keyword isKeyword)

/-- The rest of a printing statement is read as such. -/
theorem reads_printTail (fuel : Nat) {keyword : Token} (isKeyword : keyword.kind = .printWord) :
    Reads (fun tokens tree => Statement .body (keyword :: tokens) tree)
      (Stmt.print <$> terminated fuel) := by
  apply ((reads_terminated fuel).map Stmt.print).mono
  intro _ _ read
  obtain ⟨value, ⟨inside, semicolon, isValue, isSemicolon, rfl⟩, rfl⟩ := read
  exact .print isKeyword isValue isSemicolon

/-- The rest of a block is read as a statement. -/
theorem reads_block (reads : ∀ position, Reads (Statement position) (nested position))
    (fuel : Nat) {opening : Token} (isOpening : opening.kind = .leftBrace) :
    Reads (fun tokens tree => Statement .body (opening :: tokens) tree)
      (Stmt.block <$> blockTail fuel nested) := by
  apply ((reads_blockTail reads fuel).map Stmt.block).mono
  intro _ _ read
  obtain ⟨_, ⟨phrases, closing, declarations, isClosing, rfl, rfl⟩, rfl⟩ := read
  exact .block isOpening declarations isClosing

/-- A statement is read as such at its position. -/
theorem reads_statementWith (reads : ∀ position, Reads (Statement position) (nested position))
    (fuel : Nat) (position : Position) :
    Reads (Statement position) (statementWith fuel nested position) := by
  refine ((Reads.accept (leadingKinds position)).bind
    (fun found tokens tree => Statement position (found.toList ++ tokens) tree)
    fun found _ accepted => ?_).mono ?_
  · rcases accepted with ⟨rfl, rfl⟩ | ⟨keyword, rfl, isLeading, rfl⟩
    · apply ((reads_terminated fuel).map Stmt.expression).mono
      intro _ _ read
      obtain ⟨value, ⟨inside, semicolon, isValue, isSemicolon, rfl⟩, rfl⟩ := read
      exact (Statement.expression isValue isSemicolon).atPosition position
    · have asBody : ∀ tokens tree, Statement .body (keyword :: tokens) tree →
          Statement position ((some keyword).toList ++ tokens) tree :=
        fun _ _ statement => statement.atPosition position
      have cases : keyword.kind = .forWord ∨ keyword.kind = .ifWord ∨ keyword.kind = .printWord ∨
          keyword.kind = .whileWord ∨ keyword.kind = .leftBrace ∨
          position = .declaration ∧ (keyword.kind = .funWord ∨ keyword.kind = .varWord) := by
        cases position <;> simp [leadingKinds] at isLeading <;> tauto
      obtain isKind | isKind | isKind | isKind | isKind | ⟨rfl, isKind | isKind⟩ := cases <;>
        simp only [isKind]
      · exact (reads_forTail reads fuel isKind).mono asBody
      · exact (reads_ifTail reads fuel isKind).mono asBody
      · exact (reads_printTail fuel isKind).mono asBody
      · exact (reads_whileTail reads fuel isKind).mono asBody
      · exact (reads_block reads fuel isKind).mono asBody
      · exact reads_functionTail reads fuel isKind
      · exact reads_varTail fuel isKind
  · intro _ tree followed
    obtain ⟨_, found, _, accepted, statement, rfl⟩ := followed
    rcases accepted with ⟨rfl, rfl⟩ | ⟨keyword, rfl, -, rfl⟩ <;> simpa using statement

/-- A statement is read as such, with whatever fuel. -/
theorem reads_statement (fuel : Nat) (position : Position) :
    Reads (Statement position) (statement fuel position) := by
  induction fuel generalizing position with
  | zero => exact Reads.fail ⟨_, _, Statement.emptyBlock position⟩
  | succ fuel ih => exact reads_statementWith ih (fuel + 1) position

/-- Declarations up to the end are read as a program. -/
theorem reads_declarations (fuel : Nat) : Reads IsProgram (declarations fuel) :=
  (reads_statement fuel .declaration).itemsUntil none fuel

end Lox.Source
