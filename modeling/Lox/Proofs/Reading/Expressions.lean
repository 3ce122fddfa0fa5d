import Lox.Proofs.Reading.Language

/-!
# What the expression readers take

Each reader of an expression reads the language of its rank. An assignment is told from other
expressions by its target, so what a reader takes before an equals sign is a name alone exactly
when the tree of it is that name.
-/

namespace Lox.Grammar

open Source Source.Parse

/-- A name is a primary expression. -/
theorem Expression.someName :
    Expression .primary [⟨.identifier, [], 0⟩] (.variable ⟨.identifier, [], 0⟩) :=
  .named rfl

/-- An operand is a chain by itself. -/
theorem Expression.alone {rank operand : Rank} {operators : List Kind}
    {join : Expr → Token → Expr → Expr} {tokens : List Token} {value : Expr}
    (rule : ChainRule rank operators operand join) (expression : Expression operand tokens value) :
    Expression rank tokens value := by
  have chain : Expression rank (tokens ++ linked []) value :=
    .chain rule expression (fun _ member => nomatch member) (fun _ member => nomatch member)
  simpa [linked] using chain

/-- A primary expression is an expression. -/
theorem Expression.ofPrimary {tokens : List Token} {value : Expr}
    (expression : Expression .primary tokens value) : Expression .assignment tokens value :=
  .operation <| .alone .disjunction <| .alone .conjunction <| .alone .equality <|
    .alone .comparison <| .alone .sum <| .alone .product <| .unprefixed <| .uncalled expression

/-- A chain of at least one operator is no name. -/
theorem chain_ne_variable {rank operand : Rank} {operators : List Kind}
    {join : Expr → Token → Expr → Expr} (rule : ChainRule rank operators operand join)
    (first : Expr) (others : List (Link Expr)) (last : Link Expr) (name : Token) :
    (others ++ [last]).foldl (fun left link => join left link.joint link.tree) first ≠
      .variable name := by
  cases rule <;> simp

/-- The only tokens whose tree is a name are that name. -/
theorem Expression.tokens_of_variable {rank : Rank} {tokens : List Token} {name : Token}
    (expression : Expression rank tokens (.variable name)) :
    tokens = [name] ∧ name.kind = .identifier := by
  generalize tree : Expr.variable name = value at expression
  induction expression with
  | operation _ ih => exact ih tree
  | @chain _ _ _ _ _ first others rule _ _ _ ih _ =>
    rcases List.eq_nil_or_concat others with rfl | ⟨front, last, rfl⟩
    · simpa [linked] using ih tree
    · rw [List.concat_eq_append] at tree
      exact absurd tree.symm (chain_ne_variable rule first front last name)
  | unprefixed _ ih => exact ih tree
  | uncalled _ ih => exact ih tree
  | named isName => cases tree; exact ⟨rfl, isName⟩
  | _ => simp at tree

/-- A run of prefix operators in front of an operand. -/
theorem Expression.prefixes {run tokens : List Token} {operand : Expr}
    (arePrefixes : ∀ token ∈ run, token.kind ∈ prefixOperators)
    (expression : Expression .unary tokens operand) :
    Expression .unary (run ++ tokens) (run.foldr Expr.unary operand) := by
  induction run with
  | nil => exact expression
  | cons operator rest ih =>
    have isPrefix : operator.kind = .bang ∨ operator.kind = .minus := by
      simpa [prefixOperators] using arePrefixes operator (by simp)
    exact .prefixed isPrefix (ih fun token member => arePrefixes token (by simp [member]))

/-- Optional arguments in parentheses after the opening one make a call of what stands before. -/
theorem Expression.call {tokens argumentTokens : List Token} {callee : Expr}
    {opening closing : Token} {arguments : Option (List Expr)}
    (isCallee : Expression .call tokens callee) (isOpening : opening.kind = .leftParen)
    (areArguments : (arguments = none ∧ argumentTokens = []) ∨
      ∃ values, arguments = some values ∧
        Separated (Expression .assignment) argumentTokens values)
    (isClosing : closing.kind = .rightParen) :
    Expression .call (tokens ++ opening :: (argumentTokens ++ [closing]))
      (.call callee (arguments.getD []) closing) := by
  rcases areArguments with ⟨rfl, rfl⟩ | ⟨_, rfl, separated⟩
  · exact .callEmpty isCallee isOpening isClosing
  · obtain ⟨firstTokens, first, others, isFirst, commas, members, rfl, rfl⟩ := separated
    exact .callWith isCallee isOpening isFirst commas members isClosing

end Lox.Grammar

namespace Lox.Source

open Lox.Grammar Parse

/-- The rank of the chains of a level. -/
def Level.rank : Level → Rank
  | .disjunction => .disjunction
  | .conjunction => .conjunction
  | .equality => .equality
  | .comparison => .comparison
  | .sum => .sum
  | .product => .product

/-- The rank of the operands of a level. -/
def Level.operand : Level → Rank
  | .disjunction => .conjunction
  | .conjunction => .equality
  | .equality => .comparison
  | .comparison => .sum
  | .sum => .product
  | .product => .unary

/-- Each level has its rule in the grammar. -/
theorem Level.chainRule (level : Level) :
    ChainRule level.rank level.operators level.operand level.join := by
  cases level <;> constructor

/-- A token is a literal in the grammar exactly when the reader finds its value. -/
theorem isLiteral_iff (token : Token) (value : Literal) :
    IsLiteral token value ↔ Literal.ofToken? token = some value := by
  constructor
  · intro isLiteral
    cases isLiteral with
    | _ isKind => simp [Literal.ofToken?, isKind]
  · intro found
    unfold Literal.ofToken? at found
    split at found <;> simp only [Option.some.injEq, reduceCtorEq] at found <;> subst found
    · exact .nil ‹_›
    · exact .true ‹_›
    · exact .false ‹_›
    · exact .number ‹_›
    · exact .string ‹_›

/-- What a chain of a level goes on with after its first operand. -/
def ChainRest (level : Level) (left : Expr) (tokens : List Token) (value : Expr) : Prop :=
  ∃ others : List (Link Expr), (∀ link ∈ others, link.joint.kind ∈ level.operators) ∧
    (∀ link ∈ others, Expression level.operand link.tokens link.tree) ∧
    tokens = linked others ∧
    value = others.foldl (fun left link => level.join left link.joint link.tree) left

/-- The rest of a chain is read as such. -/
theorem reads_chainRest (level : Level) {operand : Parse Expr}
    (reads : Reads (Expression level.operand) operand) (fuel : Nat) (left : Expr) :
    Reads (ChainRest level left) (chainRest level operand fuel left) := by
  induction fuel generalizing left with
  | zero =>
    exact (Reads.pure left).mono fun _ _ ⟨empty, same⟩ => ⟨[], by simp, by simp, empty, same⟩
  | succ fuel ih =>
    refine ((Reads.accept level.operators).bind
      (fun found tokens value =>
        (found = none ∧ tokens = [] ∧ value = left) ∨
          ∃ operator rightTokens right rest, found = some operator ∧
            Expression level.operand rightTokens right ∧
            ChainRest level (level.join left operator right) rest value ∧
            tokens = rightTokens ++ rest) fun found _ _ => ?_).mono ?_
    · cases found with
      | none => exact (Reads.pure left).mono fun _ _ ⟨empty, same⟩ => .inl ⟨rfl, empty, same⟩
      | some operator =>
        refine (reads.bind _ fun right _ _ => ih (level.join left operator right)).mono ?_
        intro _ _ followed
        obtain ⟨rightTokens, right, rest, isOperand, isRest, rfl⟩ := followed
        exact .inr ⟨operator, rightTokens, right, rest, rfl, isOperand, isRest, rfl⟩
    · intro _ value followed
      obtain ⟨_, found, _, accepted, next, rfl⟩ := followed
      rcases accepted with ⟨rfl, rfl⟩ | ⟨operator, rfl, isOperator, rfl⟩
      · obtain ⟨-, rfl, rfl⟩ | ⟨_, _, _, _, impossible, -⟩ := next
        · exact ⟨[], by simp, by simp, rfl, rfl⟩
        · simp at impossible
      · obtain ⟨impossible, -⟩ | ⟨_, rightTokens, right, _, same, isOperand, isRest, rfl⟩ := next
        · simp at impossible
        · cases same
          obtain ⟨others, joints, operands, rfl, rfl⟩ := isRest
          refine ⟨⟨⟨rightTokens, right⟩, operator⟩ :: others, ?_, ?_, by simp [linked], rfl⟩
          · simpa [isOperator] using joints
          · simpa [isOperand] using operands

/-- A chain of a level is read as such. -/
theorem reads_chain (fuel : Nat) (level : Level) {operand : Parse Expr}
    (reads : Reads (Expression level.operand) operand) :
    Reads (Expression level.rank) (chain fuel level operand) := by
  refine (reads.bind _ fun left _ _ => reads_chainRest level reads fuel left).mono ?_
  intro _ _ followed
  obtain ⟨tokens, first, _, isFirst, ⟨others, joints, operands, rfl, rfl⟩, rfl⟩ := followed
  exact .chain level.chainRule isFirst joints operands

variable {nested : Parse Expr}

/-- The rest of an expression in parentheses after the opening one. -/
theorem reads_groupTail (reads : Reads (Expression .assignment) nested) :
    Reads
      (fun tokens value => ∃ inside inner closing, Expression .assignment inside inner ∧
        closing.kind = .rightParen ∧ tokens = inside ++ [closing] ∧ value = Expr.grouping inner)
      (do
        let inner ← nested
        let _ ← expect .rightParen
        pure (Expr.grouping inner)) := by
  refine (reads.bind _ fun inner _ _ =>
    (Reads.expect .rightParen).bind _ fun _ _ _ => Reads.pure (Expr.grouping inner)).mono ?_
  intro _ _ followed
  obtain ⟨inside, inner, _, isInner, ⟨_, closing, _, ⟨rfl, isClosing⟩, ⟨rfl, rfl⟩, rfl⟩, rfl⟩ :=
    followed
  exact ⟨inside, inner, closing, isInner, isClosing, by simp, rfl⟩

/-- A literal, a name or an expression in parentheses is read as such. -/
theorem reads_primary (reads : Reads (Expression .assignment) nested) :
    Reads (Expression .primary) (primary nested) := by
  have inhabited : ∃ tokens value, Expression .primary tokens value :=
    ⟨_, _, Expression.someName⟩
  intro tokens
  cases tokens with
  | nil => exact ⟨[], rfl, inhabited⟩
  | cons token rest =>
    cases found : Literal.ofToken? token with
    | some value =>
      simp only [primary, found]
      exact ⟨[token], rfl, .literal ((isLiteral_iff token value).mpr found)⟩
    | none =>
      simp only [primary, found]
      by_cases isName : token.kind = .identifier
      · rw [if_pos isName]
        exact ⟨[token], rfl, .named isName⟩
      · rw [if_neg isName]
        by_cases isOpening : token.kind = .leftParen
        · rw [if_pos isOpening]
          have tail := reads_groupTail reads
          split
          · next value left result =>
            obtain ⟨_, split, inside, inner, closing, isInner, isClosing, rfl, rfl⟩ :=
              tail.taken result
            exact ⟨token :: (inside ++ [closing]), by rw [split]; rfl,
              .grouping isOpening isInner isClosing⟩
          · next failure result =>
            obtain ⟨begun, split, more, _, inside, inner, closing, isInner, isClosing, same, -⟩ :=
              tail.begun result
            refine ⟨token :: begun, by rw [split]; rfl, more, .grouping inner, ?_⟩
            rw [List.cons_append, same]
            exact .grouping isOpening isInner isClosing
        · rw [if_neg isOpening]
          exact ⟨[], rfl, inhabited⟩

/-- The calls behind a callee are read as ones that make a call of it. -/
theorem reads_callsRest (reads : Reads (Expression .assignment) nested) (fuel : Nat)
    (callee : Expr) :
    Reads
      (fun tokens value =>
        ∀ front, Expression .call front callee → Expression .call (front ++ tokens) value)
      (callsRest nested fuel callee) := by
  induction fuel generalizing callee with
  | zero =>
    apply (Reads.pure callee).mono
    intro _ _ unchanged front isCallee
    simpa [unchanged.1, unchanged.2] using isCallee
  | succ fuel ih =>
    refine ((Reads.accept [.leftParen]).bind
      (fun found tokens value =>
        (found = none ∧ tokens = [] ∧ value = callee) ∨
          ∃ opening, found = some opening ∧ (opening.kind = .leftParen →
            ∀ front, Expression .call front callee →
              Expression .call (front ++ opening :: tokens) value)) fun found _ _ => ?_).mono ?_
    · cases found with
      | none => exact (Reads.pure callee).mono fun _ _ ⟨empty, same⟩ => .inl ⟨rfl, empty, same⟩
      | some opening =>
        refine (((reads.separated fuel).optionalBefore .rightParen).bind _ fun arguments _ _ =>
          (Reads.expect .rightParen).bind _ fun paren _ _ =>
            ih (.call callee (arguments.getD []) paren)).mono ?_
        intro _ value followed
        obtain ⟨argumentTokens, arguments, _, areArguments,
          ⟨_, closing, rest, ⟨rfl, isClosing⟩, isRest, rfl⟩, rfl⟩ := followed
        refine .inr ⟨opening, rfl, fun isOpening front isCallee => ?_⟩
        simpa using isRest _ (isCallee.call isOpening areArguments isClosing)
    · intro _ value followed front isCallee
      obtain ⟨_, found, _, accepted, next, rfl⟩ := followed
      rcases accepted with ⟨rfl, rfl⟩ | ⟨opening, rfl, isOpening, rfl⟩
      · obtain ⟨-, rfl, rfl⟩ | ⟨_, impossible, -⟩ := next
        · simpa using isCallee
        · simp at impossible
      · obtain ⟨impossible, -⟩ | ⟨_, same, isCall⟩ := next
        · simp at impossible
        · cases same
          exact isCall (by simpa using isOpening) front isCallee

/-- A primary expression and its calls are read as such. -/
theorem reads_calls (reads : Reads (Expression .assignment) nested) (fuel : Nat) :
    Reads (Expression .call) (calls fuel nested) := by
  refine ((reads_primary reads).bind _ fun callee _ _ =>
    reads_callsRest reads fuel callee).mono ?_
  intro _ _ followed
  obtain ⟨front, callee, _, isPrimary, isRest, rfl⟩ := followed
  exact isRest front (.uncalled isPrimary)

/-- Prefix operators and their operand are read as such. -/
theorem reads_unary (reads : Reads (Expression .assignment) nested) (fuel : Nat) :
    Reads (Expression .unary) (unary fuel nested) := by
  refine ((Reads.acceptAll prefixOperators).bind _ fun operators _ _ =>
    (reads_calls reads fuel).bind _ fun operand _ _ =>
      Reads.pure (operators.foldr Expr.unary operand)).mono ?_
  intro _ _ followed
  obtain ⟨_, run, _, ⟨rfl, arePrefixes⟩, ⟨tokens, operand, _, isCall, ⟨rfl, rfl⟩, rfl⟩, rfl⟩ :=
    followed
  simpa using (Expression.unprefixed isCall).prefixes arePrefixes

/-- An expression that is no assignment is read as such. -/
theorem reads_operation (reads : Reads (Expression .assignment) nested) (fuel : Nat) :
    Reads (Expression .disjunction) (operation fuel nested) :=
  reads_chain fuel .disjunction <| reads_chain fuel .conjunction <| reads_chain fuel .equality <|
    reads_chain fuel .comparison <| reads_chain fuel .sum <| reads_chain fuel .product <|
      reads_unary reads fuel

/-- What may follow the tokens of an operation to make an expression of them. -/
def AssignmentRest (target : Expr) (tokens : List Token) (value : Expr) : Prop :=
  ∀ front, Expression .disjunction front target → Expression .assignment (front ++ tokens) value

/-- An operation is an expression by itself. -/
theorem AssignmentRest.unchanged (target : Expr) (tokens : List Token) (value : Expr)
    (nothing : tokens = [] ∧ value = target) : AssignmentRest target tokens value := by
  intro front isTarget
  simpa [nothing.1, nothing.2] using Expression.operation isTarget

/-- An assignment or another expression is read as such. -/
theorem reads_assignment (reads : Reads (Expression .assignment) nested) (fuel : Nat) :
    Reads (Expression .assignment) (assignment fuel nested) := by
  refine ((reads_operation reads fuel).bind AssignmentRest fun target _ _ =>
    (Reads.peek.bind (fun _ => AssignmentRest target) fun next _ _ => ?_).mono ?_).mono ?_
  · split
    · cases target with
      | «variable» name =>
        refine ((Reads.expect .equal).bind _ fun _ _ _ =>
          reads.bind _ fun value _ _ => Reads.pure (Expr.assign name value)).mono ?_
        intro _ _ followed front isTarget
        obtain ⟨_, equal, _, ⟨rfl, isEqual⟩, ⟨tokens, value, _, isValue, ⟨rfl, rfl⟩, rfl⟩, rfl⟩ :=
          followed
        obtain ⟨rfl, isName⟩ := isTarget.tokens_of_variable
        simpa using Expression.assign isName isEqual isValue
      | _ => exact Reads.failTarget ⟨[], _, AssignmentRest.unchanged _ _ _ ⟨rfl, rfl⟩⟩
    · exact (Reads.pure target).mono (AssignmentRest.unchanged target)
  · intro _ _ followed
    obtain ⟨_, _, _, rfl, isRest, rfl⟩ := followed
    exact isRest
  · intro _ _ followed
    obtain ⟨front, target, _, isTarget, isRest, rfl⟩ := followed
    exact isRest front isTarget

/-- An expression is read as such, with whatever fuel. -/
theorem reads_expression (fuel : Nat) : Reads (Expression .assignment) (expression fuel) := by
  induction fuel with
  | zero => exact Reads.fail ⟨_, _, Expression.someName.ofPrimary⟩
  | succ fuel ih => exact reads_assignment ih fuel

end Lox.Source
