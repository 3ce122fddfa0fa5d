import Lox.Proofs.Grammar.Operands
import Mathlib.Data.List.Induction

/-!
# The operands before stars

A star of a program has an operation before it that is a factor of its product. The operation may be
replaced by any operand and the star keeps its place. So what stands before a star is where an operand may
stand, with a complete operation behind.

The star is looked for in the phrases of the derivation. Only the operators of a product are stars; a star
in a smaller phrase has its factor there.
-/

namespace Lox.Grammar

open Source Parse

/-- Some tokens end with an operation, and with an operand in place of it and other tokens behind they are
of a form. -/
def EndsFactor (form : List Token → Prop) (taken rest : List Token) : Prop :=
  ∃ before operation, taken = before ++ operation ∧ Derives .disjunction operation ∧
    ∀ operand : Token, operand.kind = .nilWord → form (before ++ operand :: rest)

/-- The tokens before each star end with an operation that an operand may take the place of. -/
def Factors (form : List Token → Prop) (tokens : List Token) : Prop :=
  ∀ taken star rest, tokens = taken ++ star :: rest → star.kind = .star →
    EndsFactor form taken (star :: rest)

section

variable {form smaller : List Token → Prop} {tokens front back : List Token}

/-- Tokens of a form are also of a weaker one. -/
theorem EndsFactor.mono {taken rest : List Token} (ends : EndsFactor smaller taken rest)
    (weaker : ∀ tokens, smaller tokens → form tokens) : EndsFactor form taken rest := by
  obtain ⟨before, operation, isTaken, isOperation, forms⟩ := ends
  exact ⟨before, operation, isTaken, isOperation, fun operand isNil => weaker _ (forms operand isNil)⟩

/-- More tokens stand in front. -/
theorem EndsFactor.append_left {taken rest : List Token}
    (ends : EndsFactor (fun tokens => form (front ++ tokens)) taken rest) :
    EndsFactor form (front ++ taken) rest := by
  obtain ⟨before, operation, rfl, isOperation, forms⟩ := ends
  exact ⟨front ++ before, operation, by simp, isOperation, by simpa using forms⟩

/-- More tokens stand behind. -/
theorem EndsFactor.append_right {taken rest : List Token}
    (ends : EndsFactor (fun tokens => form (tokens ++ back)) taken rest) :
    EndsFactor form taken (rest ++ back) := by
  obtain ⟨before, operation, rfl, isOperation, forms⟩ := ends
  exact ⟨before, operation, rfl, isOperation, by simpa using forms⟩

/-- Tokens of a form are also of a weaker one. -/
theorem Factors.mono (factors : Factors smaller tokens)
    (weaker : ∀ tokens, smaller tokens → form tokens) : Factors form tokens :=
  fun taken star rest split isStar => (factors taken star rest split isStar).mono weaker

/-- There is no star in an empty phrase. -/
theorem factors_nil : Factors form [] :=
  fun _ _ _ split => absurd split (by simp)

/-- A star is in the first tokens or in the others. -/
theorem Factors.append (first : Factors (fun front => form (front ++ back)) front)
    (second : Factors (fun back => form (front ++ back)) back) : Factors form (front ++ back) := by
  intro taken star rest split isStar
  obtain ⟨others, rfl, isBack⟩ | ⟨others, isFront, isRest⟩ := List.append_eq_append_iff.mp split
  · exact (second others star rest isBack isStar).append_left
  · cases others with
    | nil =>
      rw [List.append_nil] at isFront
      have atStart := (second [] star rest isRest.symm isStar).append_left
      rwa [List.append_nil, isFront] at atStart
    | cons token others =>
      obtain ⟨rfl, rfl⟩ := List.cons_eq_cons.mp isRest
      exact (first taken star others isFront isStar).append_right

/-- A token that is no star is not the one that is looked for. -/
theorem Factors.cons {token : Token} {kind : Kind} (isKind : token.kind = kind)
    (noStar : kind ≠ .star) (others : Factors (fun others => form (token :: others)) tokens) :
    Factors form (token :: tokens) := by
  intro taken star rest split isStar
  cases taken with
  | nil =>
    obtain ⟨rfl, rfl⟩ := List.cons_eq_cons.mp split
    exact absurd (isKind.symm.trans isStar) noStar
  | cons first taken =>
    obtain ⟨rfl, isRest⟩ := List.cons_eq_cons.mp split
    exact @EndsFactor.append_left form [token] _ _ (others taken star rest isRest isStar)

/-- A star between two factors, or in one of them. -/
theorem Factors.joint {token : Token}
    (first : Factors (fun front => form (front ++ token :: back)) front)
    (second : Factors (fun back => form (front ++ token :: back)) back)
    (isOperation : Derives .disjunction front)
    (forms : ∀ operand : Token, operand.kind = .nilWord → form (operand :: token :: back)) :
    Factors form (front ++ token :: back) := by
  intro taken star rest split isStar
  have between : EndsFactor form front (token :: back) := ⟨[], front, rfl, isOperation, forms⟩
  obtain ⟨others, rfl, isBack⟩ | ⟨others, isFront, isRest⟩ := List.append_eq_append_iff.mp split
  · cases others with
    | nil => rwa [List.append_nil, show star :: rest = token :: back from isBack.symm]
    | cons joint others =>
      obtain ⟨rfl, inBack⟩ := List.cons_eq_cons.mp isBack
      have inside := second others star rest inBack isStar
      exact @EndsFactor.append_left form front (token :: others) _
        (@EndsFactor.append_left (fun tokens => form (front ++ tokens)) [token] others _ inside)
  · cases others with
    | nil =>
      rw [List.append_nil] at isFront
      rwa [← isFront, isRest]
    | cons joint others =>
      obtain ⟨rfl, rfl⟩ := List.cons_eq_cons.mp isRest
      exact (first taken star others isFront isStar).append_right

end

section

variable {rank operand : Rank} {operators : List Kind} {join : Expr → Token → Expr → Expr}
  {tokens : List Token}

/-- In a chain a star is an operator, or it is in an operand. -/
theorem ChainRule.factors (rule : ChainRule rank operators operand join)
    (isFirst : Derives operand tokens) (first : Factors (Derives operand) tokens)
    {others : List (Link Expr)} (joints : ∀ link ∈ others, link.joint.kind ∈ operators)
    (operands : ∀ link ∈ others, Expression operand link.tokens link.tree)
    (each : ∀ link ∈ others, Factors (Derives operand) link.tokens) :
    Factors (Derives rank) (tokens ++ linked others) := by
  induction others using List.reverseRecOn with
  | nil =>
    rw [show linked [] = [] from rfl, List.append_nil]
    exact first.mono fun _ => rule.derives
  | append_singleton front last ih =>
    obtain ⟨frontJoints, lastJoint⟩ := List.forall_mem_append.mp joints
    obtain ⟨frontOperands, lastOperand⟩ := List.forall_mem_append.mp operands
    obtain ⟨frontEach, lastEach⟩ := List.forall_mem_append.mp each
    rw [List.forall_mem_singleton] at lastJoint lastOperand lastEach
    have isFront := rule.derives_linked isFirst frontJoints frontOperands
    rw [linked_concat, ← List.append_assoc]
    refine (ih frontJoints frontOperands frontEach |>.mono ?_).joint (lastEach.mono ?_)
      (rule.derives_disjunction isFront) ?_
    · exact rule.extends_link lastJoint ⟨_, lastOperand⟩
    · exact fun tokens isOperand => rule.extends_link lastJoint isOperand _ isFront
    · intro single isNil
      have isOperand := rule.derives_of_unary (Derives.ofPrimary ⟨_, .literal (.nil isNil)⟩)
      exact rule.extends_link lastJoint ⟨_, lastOperand⟩ [single] (rule.derives isOperand)

end

/-- Tokens that are arguments of a call. -/
def AreArguments (tokens : List Token) : Prop :=
  ∃ values, Separated (Expression .assignment) tokens values

/-- Between commas each star is in an argument. -/
theorem factors_arguments {tokens : List Token} {others : List (Link Expr)}
    (isFirst : Derives .assignment tokens) (first : Factors (Derives .assignment) tokens)
    (commas : ∀ link ∈ others, link.joint.kind = .comma)
    (arguments : ∀ link ∈ others, Expression .assignment link.tokens link.tree)
    (each : ∀ link ∈ others, Factors (Derives .assignment) link.tokens) :
    Factors AreArguments (tokens ++ linked others) ∧ AreArguments (tokens ++ linked others) := by
  induction others generalizing tokens with
  | nil =>
    rw [show linked ([] : List (Link Expr)) = [] from rfl, List.append_nil]
    have single (tokens : List Token) (isArgument : Derives .assignment tokens) :
        AreArguments tokens := by
      obtain ⟨tree, expression⟩ := isArgument
      exact ⟨[tree], .single expression⟩
    exact ⟨first.mono single, single tokens isFirst⟩
  | cons link others ih =>
    rw [List.forall_mem_cons] at commas arguments each
    obtain ⟨factors, areOthers⟩ := ih ⟨_, arguments.1⟩ each.1 commas.2 arguments.2 each.2
    have joined {front back : List Token} (isFront : Derives .assignment front)
        (areBack : AreArguments back) : AreArguments (front ++ link.joint :: back) := by
      obtain ⟨tree, expression⟩ := isFront
      obtain ⟨values, separated⟩ := areBack
      exact ⟨tree :: values, .cons expression commas.1 separated⟩
    rw [linked, List.flatMap_cons, List.cons_append]
    refine ⟨.append (first.mono ?_) (.cons commas.1 (by decide) (factors.mono ?_)), joined isFirst areOthers⟩
    · exact fun _ isFront => joined isFront areOthers
    · exact fun _ areBack => joined isFirst areBack

/-- Before each star of an expression is a factor. -/
theorem Expression.factors {rank : Rank} {tokens : List Token} {tree : Expr}
    (expression : Expression rank tokens tree) : Factors (Derives rank) tokens := by
  induction expression with
  | assign isName isEqual _ ih =>
    refine .cons isName (by decide) (.cons isEqual (by decide) (ih.mono ?_))
    exact fun _ ⟨_, isValue⟩ => ⟨_, .assign isName isEqual isValue⟩
  | operation _ ih => exact ih.mono fun _ => Derives.ofDisjunction
  | chain rule isFirst joints operands ih ihs =>
    exact rule.factors ⟨_, isFirst⟩ ih joints operands ihs
  | @prefixed operator tokens _ isPrefix _ ih =>
    have inOperand : Factors (fun tokens => Derives .unary (operator :: tokens)) tokens :=
      ih.mono fun _ ⟨_, isOperand⟩ => ⟨_, .prefixed isPrefix isOperand⟩
    exact isPrefix.elim (fun isBang => .cons isBang (by decide) inOperand)
      fun isMinus => .cons isMinus (by decide) inOperand
  | unprefixed _ ih => exact ih.mono fun _ => Derives.ofCall
  | uncalled _ ih => exact ih.mono fun _ ⟨_, isPrimary⟩ => ⟨_, .uncalled isPrimary⟩
  | callEmpty isCallee isOpening isClosing ih =>
    refine .append (ih.mono ?_) (.cons isOpening (by decide) (.cons isClosing (by decide) factors_nil))
    exact fun _ ⟨_, isCallee⟩ => ⟨_, .callEmpty isCallee isOpening isClosing⟩
  | @callWith _ _ _ _ _ opening closing isCallee isOpening isFirst commas arguments isClosing ih first
      others =>
    obtain ⟨inArguments, areArguments⟩ :=
      factors_arguments ⟨_, isFirst⟩ first commas arguments others
    have called {callee arguments : List Token} (isCallee : Derives .call callee)
        (areArguments : AreArguments arguments) :
        Derives .call (callee ++ opening :: (arguments ++ [closing])) := by
      obtain ⟨_, expression⟩ := isCallee
      obtain ⟨values, separated⟩ := areArguments
      exact ⟨_, expression.call isOpening (.inr ⟨values, rfl, separated⟩) isClosing⟩
    refine .append (ih.mono ?_) (.cons isOpening (by decide) (.append (inArguments.mono ?_) ?_))
    · exact fun _ isCallee => called isCallee areArguments
    · exact fun _ areArguments => called ⟨_, isCallee⟩ areArguments
    · exact .cons isClosing (by decide) factors_nil
  | literal isLiteral =>
    have noStar : ∀ kind ∈ literalKinds, kind ≠ .star := by decide
    exact .cons rfl (noStar _ isLiteral.kind_mem_literalKinds) factors_nil
  | named isName => exact .cons isName (by decide) factors_nil
  | grouping isOpening _ isClosing ih =>
    refine .cons isOpening (by decide) (.append (ih.mono ?_) (.cons isClosing (by decide) factors_nil))
    exact fun _ ⟨_, isInner⟩ => ⟨_, .grouping isOpening isInner isClosing⟩

/-- Before each star of an optional expression is a factor. -/
theorem OptionalExpression.factors {tokens : List Token} {value : Option Expr}
    (expression : OptionalExpression tokens value) :
    Factors (fun tokens => ∃ value, OptionalExpression tokens value) tokens := by
  cases expression with
  | absent => exact factors_nil
  | present isValue =>
    exact isValue.factors.mono fun _ ⟨tree, isValue⟩ => ⟨some tree, .present isValue⟩

/-- There is no star among parameters. -/
theorem Parameters.factors {form : List Token → Prop} {tokens parameters : List Token}
    (areParameters : Parameters tokens parameters) : Factors form tokens := by
  cases areParameters with
  | absent => exact factors_nil
  | @present first others isName commas names =>
    have inLinks : ∀ form, Factors form (linked others) := by
      induction others with
      | nil => exact fun _ => factors_nil
      | cons link others ih =>
        intro form
        rw [List.forall_mem_cons] at commas names
        rw [linked, List.flatMap_cons, names.1.2]
        exact .cons commas.1 (by decide) (.cons names.1.1 (by decide) (ih commas.2 names.2 _))
    exact .cons isName (by decide) (inLinks _)

/-- Before each star of a declaration of a variable is a factor. -/
theorem Variable.factors {tokens : List Token} {name : Token} {initializer : Option Expr}
    (declaration : Variable tokens name initializer) :
    Factors (fun tokens => ∃ initializer, Variable tokens name initializer) tokens := by
  cases declaration with
  | plain isKeyword isName isSemicolon =>
    exact .cons isKeyword (by decide) (.cons isName (by decide) (.cons isSemicolon (by decide) factors_nil))
  | initialized isKeyword isName isEqual isValue isSemicolon =>
    refine .cons isKeyword (by decide) <| .cons isName (by decide) <| .cons isEqual (by decide) <|
      .append (isValue.factors.mono ?_) ?_
    · exact fun _ ⟨_, isValue⟩ => ⟨_, .initialized isKeyword isName isEqual isValue isSemicolon⟩
    · exact .cons isSemicolon (by decide) factors_nil

/-- Before each star of a first clause is a factor. -/
theorem FirstClause.factors {tokens : List Token} {start : Option LoopStart}
    (clause : FirstClause tokens start) :
    Factors (fun tokens => ∃ start, FirstClause tokens start) tokens := by
  cases clause with
  | var declaration =>
    exact declaration.factors.mono fun _ ⟨_, declaration⟩ => ⟨_, .var declaration⟩
  | expression isValue isSemicolon =>
    refine .append (isValue.factors.mono ?_) (.cons isSemicolon (by decide) factors_nil)
    exact fun _ ⟨_, isValue⟩ => ⟨_, .expression isValue isSemicolon⟩
  | absent isSemicolon => exact .cons isSemicolon (by decide) factors_nil

/-- Tokens that are statements one after another. -/
def IsStatementList (tokens : List Token) : Prop :=
  ∃ body : List (Phrase Stmt),
    (∀ phrase ∈ body, Statement .declaration phrase.tokens phrase.tree) ∧ tokens = spelled body

/-- Before each star of statements one after another is a factor if there is in each of them. -/
theorem factors_spelled {phrases : List (Phrase Stmt)}
    (statements : ∀ phrase ∈ phrases, Statement .declaration phrase.tokens phrase.tree)
    (each : ∀ phrase ∈ phrases,
      Factors (fun tokens => ∃ tree, Statement .declaration tokens tree) phrase.tokens) :
    Factors IsStatementList (spelled phrases) := by
  induction phrases with
  | nil => exact factors_nil
  | cons phrase phrases ih =>
    rw [List.forall_mem_cons] at statements each
    refine .append (each.1.mono ?_) ((ih statements.2 each.2).mono ?_)
    · rintro tokens ⟨tree, statement⟩
      exact ⟨⟨tokens, tree⟩ :: phrases, List.forall_mem_cons.mpr ⟨statement, statements.2⟩, rfl⟩
    · rintro tokens ⟨body, areOthers, rfl⟩
      exact ⟨phrase :: body, List.forall_mem_cons.mpr ⟨statements.1, areOthers⟩, rfl⟩

/-- Before each star of a statement is a factor. -/
theorem Statement.factors {position : Position} {tokens : List Token} {tree : Stmt}
    (statement : Statement position tokens tree) :
    Factors (fun tokens => ∃ tree, Statement position tokens tree) tokens := by
  induction statement with
  | function isKeyword isName isOpening parameters isClosing isBrace statements isLast ih =>
    refine .cons isKeyword (by decide) <| .cons isName (by decide) <| .cons isOpening (by decide) <|
      .append parameters.factors <| .cons isClosing (by decide) <| .cons isBrace (by decide) <|
        .append ((factors_spelled statements ih).mono ?_) (.cons isLast (by decide) factors_nil)
    rintro _ ⟨body, statements, rfl⟩
    exact ⟨_, .function isKeyword isName isOpening parameters isClosing isBrace statements isLast⟩
  | var declaration =>
    exact declaration.factors.mono fun _ ⟨_, declaration⟩ => ⟨_, .var declaration⟩
  | plain _ ih => exact ih.mono fun _ ⟨_, statement⟩ => ⟨_, .plain statement⟩
  | expression isValue isSemicolon =>
    refine .append (isValue.factors.mono ?_) (.cons isSemicolon (by decide) factors_nil)
    exact fun _ ⟨_, isValue⟩ => ⟨_, .expression isValue isSemicolon⟩
  | forLoop isKeyword isOpening start condition isSemicolon increment isClosing body ih =>
    refine .cons isKeyword (by decide) <| .cons isOpening (by decide) <| .append (start.factors.mono ?inStart) <|
      .append (condition.factors.mono ?inCondition) <| .cons isSemicolon (by decide) <|
        .append (increment.factors.mono ?inIncrement) <| .cons isClosing (by decide) (ih.mono ?inBody)
    case inStart =>
      exact fun _ ⟨_, start⟩ =>
        ⟨_, .forLoop isKeyword isOpening start condition isSemicolon increment isClosing body⟩
    case inCondition =>
      exact fun _ ⟨_, condition⟩ =>
        ⟨_, .forLoop isKeyword isOpening start condition isSemicolon increment isClosing body⟩
    case inIncrement =>
      exact fun _ ⟨_, increment⟩ =>
        ⟨_, .forLoop isKeyword isOpening start condition isSemicolon increment isClosing body⟩
    case inBody =>
      exact fun _ ⟨_, body⟩ =>
        ⟨_, .forLoop isKeyword isOpening start condition isSemicolon increment isClosing body⟩
  | ifThen isKeyword isOpening condition isClosing body ih =>
    refine .cons isKeyword (by decide) (.cons isOpening (by decide) (.append (condition.factors.mono ?_)
      (.cons isClosing (by decide) (ih.mono ?_))))
    · exact fun _ ⟨_, condition⟩ => ⟨_, .ifThen isKeyword isOpening condition isClosing body⟩
    · exact fun _ ⟨_, body⟩ => ⟨_, .ifThen isKeyword isOpening condition isClosing body⟩
  | ifElse isKeyword isOpening condition isClosing first isWord second thenIh elseIh =>
    refine .cons isKeyword (by decide) (.cons isOpening (by decide) (.append (condition.factors.mono ?_)
      (.cons isClosing (by decide) (.append (thenIh.mono ?_) (.cons isWord (by decide) (elseIh.mono ?_))))))
    · exact fun _ ⟨_, condition⟩ =>
        ⟨_, .ifElse isKeyword isOpening condition isClosing first isWord second⟩
    · exact fun _ ⟨_, first⟩ =>
        ⟨_, .ifElse isKeyword isOpening condition isClosing first isWord second⟩
    · exact fun _ ⟨_, second⟩ =>
        ⟨_, .ifElse isKeyword isOpening condition isClosing first isWord second⟩
  | print isKeyword isValue isSemicolon =>
    refine .cons isKeyword (by decide) (.append (isValue.factors.mono ?_) (.cons isSemicolon (by decide) factors_nil))
    exact fun _ ⟨_, isValue⟩ => ⟨_, .print isKeyword isValue isSemicolon⟩
  | whileLoop isKeyword isOpening condition isClosing body ih =>
    refine .cons isKeyword (by decide) (.cons isOpening (by decide) (.append (condition.factors.mono ?_)
      (.cons isClosing (by decide) (ih.mono ?_))))
    · exact fun _ ⟨_, condition⟩ => ⟨_, .whileLoop isKeyword isOpening condition isClosing body⟩
    · exact fun _ ⟨_, body⟩ => ⟨_, .whileLoop isKeyword isOpening condition isClosing body⟩
  | block isOpening statements isClosing ih =>
    refine .cons isOpening (by decide) (.append ((factors_spelled statements ih).mono ?_)
      (.cons isClosing (by decide) factors_nil))
    rintro _ ⟨body, statements, rfl⟩
    exact ⟨_, .block isOpening statements isClosing⟩

/-- Before each star of a program is a factor. -/
theorem Sentence.factors {tokens : List Token} (sentence : Sentence tokens) :
    Factors Sentence tokens := by
  obtain ⟨_, items, declarations, rfl, -⟩ := sentence
  refine (factors_spelled declarations fun item isItem => (declarations item isItem).factors).mono ?_
  rintro _ ⟨body, statements, rfl⟩
  exact ⟨_, body, statements, rfl, rfl⟩

/-- Tokens that end with a complete operation, where an operand may stand. -/
def EndsOperation (taken : List Token) : Prop :=
  ∃ before operation, taken = before ++ operation ∧ Derives .disjunction operation ∧
    TakesOperand before

/-- A star may stand behind some tokens exactly if they end with a complete operation. -/
theorem viable_star_iff {taken : List Token} {star : Token} (isStar : star.kind = .star) :
    Viable (taken ++ [star]) ↔ EndsOperation taken := by
  constructor
  · rintro ⟨more, sentence⟩
    rw [List.append_assoc, List.singleton_append] at sentence
    obtain ⟨before, operation, isTaken, isOperation, sentences⟩ :=
      sentence.factors taken star more rfl isStar
    refine ⟨before, operation, isTaken, isOperation, fun operand isNil => ⟨star :: more, ?_⟩⟩
    simpa using sentences operand isNil
  · rintro ⟨before, operation, rfl, isOperation, takes⟩
    -- The star and a further operand go on with the operation.
    let operand : Token := ⟨.nilWord, [], 0⟩
    have isOperand : Derives .unary [operand] := Derives.ofPrimary ⟨_, .literal (.nil rfl)⟩
    have product : IsOperator star := ⟨_, _, _, _, .product, by rw [isStar]; decide⟩
    obtain ⟨more, sentence⟩ :=
      takes.viable_append (joins_unary _ star [operand] isOperation product isOperand)
    exact ⟨operand :: more, by simpa using sentence⟩

end Lox.Grammar
