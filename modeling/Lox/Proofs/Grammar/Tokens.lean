import Lox.Proofs.Grammar.Derivation

/-!
# The tokens of phrases

What the first token of a phrase can be, and which tokens make a longer phrase of one. The kinds
that begin an expression are none of those that begin another statement, close a list or separate
its items, so one token of look-ahead tells what comes next.

No phrase holds a lexical error.
-/

namespace Lox.Grammar

open Source

/-- The first token is of one of some kinds. -/
def BeginsWith (kinds : List Kind) (tokens : List Token) : Prop :=
  ∃ token rest, tokens = token :: rest ∧ token.kind ∈ kinds

/-- There is no first token of one of some kinds. -/
def Avoids (kinds : List Kind) (tokens : List Token) : Prop :=
  ∀ token ∈ tokens.head?, token.kind ∉ kinds

/-- More tokens at the end do not change what the first one is. -/
theorem BeginsWith.append {kinds : List Kind} {tokens : List Token}
    (begins : BeginsWith kinds tokens) (more : List Token) : BeginsWith kinds (tokens ++ more) := by
  obtain ⟨token, rest, rfl, isKind⟩ := begins
  exact ⟨token, rest ++ more, rfl, isKind⟩

/-- Tokens that begin with some kinds begin with more kinds. -/
theorem BeginsWith.mono {kinds larger : List Kind} {tokens : List Token}
    (begins : BeginsWith kinds tokens) (inside : kinds ⊆ larger) : BeginsWith larger tokens := by
  obtain ⟨token, rest, rfl, isKind⟩ := begins
  exact ⟨token, rest, rfl, inside isKind⟩

/-- Tokens that begin with some kinds avoid all others. -/
theorem BeginsWith.avoids {kinds others : List Kind} {tokens : List Token}
    (begins : BeginsWith kinds tokens) (disjoint : ∀ kind ∈ kinds, kind ∉ others) :
    Avoids others tokens := by
  obtain ⟨token, rest, rfl, isKind⟩ := begins
  intro first isFirst
  cases isFirst
  exact disjoint _ isKind

/-- Nothing avoids everything. -/
theorem avoids_nil (kinds : List Kind) : Avoids kinds [] :=
  fun _ isFirst => nomatch isFirst

/-- Tokens avoid what their first one is not. -/
theorem avoids_cons {kinds : List Kind} {token : Token} {rest : List Token} :
    Avoids kinds (token :: rest) ↔ token.kind ∉ kinds := by
  simp [Avoids]

/-- Tokens that avoid some kinds avoid fewer kinds. -/
theorem Avoids.mono {kinds smaller : List Kind} {tokens : List Token}
    (avoids : Avoids kinds tokens) (inside : smaller ⊆ kinds) : Avoids smaller tokens :=
  fun token isFirst isKind => avoids token isFirst (inside isKind)

/-- The kinds of the tokens that are literals by themselves. -/
def literalKinds : List Kind :=
  [.nilWord, .trueWord, .falseWord, .number, .string]

/-- A literal is of one of these kinds. -/
theorem IsLiteral.kind_mem_literalKinds {token : Token} {value : Literal}
    (isLiteral : IsLiteral token value) : token.kind ∈ literalKinds := by
  cases isLiteral with
  | _ isKind => rw [isKind]; decide

/-- The kinds that begin an operand without operators in front. -/
def operandKinds : List Kind :=
  [.nilWord, .trueWord, .falseWord, .number, .string, .identifier, .leftParen]

/-- The kinds of the operators in front of an operand, except the assignment. -/
def operatorKinds : List Kind :=
  [.orWord, .andWord, .bangEqual, .equalEqual, .greater, .greaterEqual, .less, .lessEqual, .minus, .plus,
    .slash, .star, .bang]

/-- The operators of a chain are operators in front of an operand. -/
theorem ChainRule.operator_mem_operatorKinds {rank operand : Rank} {operators : List Kind}
    {join : Expr → Token → Expr → Expr} (rule : ChainRule rank operators operand join) :
    ∀ kind ∈ operators, kind ∈ operatorKinds := by
  cases rule <;> decide

/-- What holds of every operator in front of an operand holds of the operators of a chain. -/
theorem ChainRule.forall_operator {rank operand : Rank} {operators : List Kind}
    {join : Expr → Token → Expr → Expr} (rule : ChainRule rank operators operand join)
    {holds : Kind → Prop} (each : ∀ kind ∈ operatorKinds, holds kind) :
    ∀ kind ∈ operators, holds kind :=
  fun kind isOperator => each kind (rule.operator_mem_operatorKinds kind isOperator)

/-- The kinds that begin an expression of a rank. -/
def Rank.beginning : Rank → List Kind
  | .call | .primary => operandKinds
  | _ => .bang :: .minus :: operandKinds

/-- The kinds that make a longer expression of a rank when they follow one. -/
def Rank.continuing : Rank → List Kind
  | .primary => []
  | .call | .unary => [.leftParen]
  | .product => [.slash, .star, .leftParen]
  | .sum => [.minus, .plus, .slash, .star, .leftParen]
  | .comparison =>
    [.greater, .greaterEqual, .less, .lessEqual, .minus, .plus, .slash, .star, .leftParen]
  | .equality =>
    [.bangEqual, .equalEqual, .greater, .greaterEqual, .less, .lessEqual, .minus, .plus, .slash,
      .star, .leftParen]
  | .conjunction =>
    [.andWord, .bangEqual, .equalEqual, .greater, .greaterEqual, .less, .lessEqual, .minus, .plus,
      .slash, .star, .leftParen]
  | .disjunction =>
    [.orWord, .andWord, .bangEqual, .equalEqual, .greater, .greaterEqual, .less, .lessEqual,
      .minus, .plus, .slash, .star, .leftParen]
  | .assignment =>
    [.equal, .orWord, .andWord, .bangEqual, .equalEqual, .greater, .greaterEqual, .less,
      .lessEqual, .minus, .plus, .slash, .star, .leftParen]

/-- A chain goes on with its operators, and with what its last operand goes on with. -/
theorem ChainRule.continuing_eq {rank operand : Rank} {operators : List Kind}
    {join : Expr → Token → Expr → Expr} (rule : ChainRule rank operators operand join) :
    rank.continuing = operators ++ operand.continuing := by
  cases rule <;> rfl

/-- No kind makes a longer expression of a rank in two ways. -/
theorem Rank.continuing_nodup (rank : Rank) : rank.continuing.Nodup := by
  cases rank <;> decide

/-- No operator of a chain makes a longer operand of it. -/
theorem ChainRule.operator_not_continuing {rank operand : Rank} {operators : List Kind}
    {join : Expr → Token → Expr → Expr} (rule : ChainRule rank operators operand join) :
    ∀ kind ∈ operators, kind ∉ operand.continuing := by
  intro kind isOperator isContinuing
  have distinct : (operators ++ operand.continuing).Nodup :=
    rule.continuing_eq ▸ rank.continuing_nodup
  exact (List.nodup_append.mp distinct).2.2 kind isOperator kind isContinuing rfl

/-- A chain begins with what its operands begin with. -/
theorem ChainRule.beginning_eq {rank operand : Rank} {operators : List Kind}
    {join : Expr → Token → Expr → Expr} (rule : ChainRule rank operators operand join) :
    rank.beginning = operand.beginning := by
  cases rule <;> rfl

/-- A literal is of a kind that begins an operand. -/
theorem IsLiteral.kind_mem {token : Token} {value : Literal} (isLiteral : IsLiteral token value) :
    token.kind ∈ operandKinds :=
  have inside : literalKinds ⊆ operandKinds := by decide
  inside isLiteral.kind_mem_literalKinds

/-- An expression begins with one of the kinds of its rank. -/
theorem Expression.begins {rank : Rank} {tokens : List Token} {tree : Expr}
    (expression : Expression rank tokens tree) : BeginsWith rank.beginning tokens := by
  induction expression with
  | @assign name _ _ _ isName => exact ⟨name, _, rfl, by rw [isName]; decide⟩
  | operation _ ih => exact ih
  | chain rule _ _ _ ih _ =>
    rw [rule.beginning_eq]
    exact ih.append _
  | @prefixed operator _ _ isPrefix =>
    refine ⟨operator, _, rfl, ?_⟩
    rcases isPrefix with isBang | isMinus
    · rw [isBang]; decide
    · rw [isMinus]; decide
  | unprefixed _ ih => exact ih.mono (by decide)
  | uncalled _ ih => exact ih
  | callEmpty _ _ _ ih => exact ih.append _
  | callWith _ _ _ _ _ _ ih => exact ih.append _
  | @literal token _ isLiteral => exact ⟨token, [], rfl, isLiteral.kind_mem⟩
  | @named token isName => exact ⟨token, [], rfl, by rw [isName]; decide⟩
  | @grouping opening _ _ _ isOpening => exact ⟨opening, _, rfl, by rw [isOpening]; decide⟩

/-- The kinds that begin a declaration or statement. -/
def statementKinds : List Kind :=
  leadingKinds .declaration ++ Rank.assignment.beginning

/-- A statement begins with one of the kinds of statements. -/
theorem Statement.begins {position : Position} {tokens : List Token} {tree : Stmt}
    (statement : Statement position tokens tree) : BeginsWith statementKinds tokens := by
  have leads {keyword : Token} {kind : Kind} (isKind : keyword.kind = kind)
      (leading : kind ∈ statementKinds) (rest : List Token) :
      BeginsWith statementKinds (keyword :: rest) :=
    ⟨keyword, rest, rfl, isKind ▸ leading⟩
  induction statement with
  | function isKeyword => exact leads isKeyword (by decide) _
  | var declaration => cases declaration <;> exact leads ‹_› (by decide) _
  | plain _ ih => exact ih
  | expression value _ => exact (value.begins.mono (List.subset_append_right _ _)).append _
  | forLoop isKeyword => exact leads isKeyword (by decide) _
  | ifThen isKeyword => exact leads isKeyword (by decide) _
  | ifElse isKeyword => exact leads isKeyword (by decide) _
  | print isKeyword => exact leads isKeyword (by decide) _
  | whileLoop isKeyword => exact leads isKeyword (by decide) _
  | block isOpening => exact leads isOpening (by decide) _

/-- No token is a lexical error. -/
def FreeOfErrors (tokens : List Token) : Prop :=
  ∀ token ∈ tokens, token.kind ≠ .error

/-- Nothing is free of errors. -/
@[simp]
theorem freeOfErrors_nil : FreeOfErrors [] :=
  fun _ member => nomatch member

/-- Tokens are free of errors when the first one is none and the others are free of them. -/
@[simp]
theorem freeOfErrors_cons {token : Token} {rest : List Token} :
    FreeOfErrors (token :: rest) ↔ token.kind ≠ .error ∧ FreeOfErrors rest :=
  List.forall_mem_cons

/-- Tokens are free of errors when both of their parts are. -/
@[simp]
theorem freeOfErrors_append {before after : List Token} :
    FreeOfErrors (before ++ after) ↔ FreeOfErrors before ∧ FreeOfErrors after :=
  List.forall_mem_append

/-- Links are free of errors when their joints and their phrases are. -/
theorem freeOfErrors_linked {α : Type} {links : List (Link α)}
    (joints : ∀ link ∈ links, link.joint.kind ≠ .error)
    (phrases : ∀ link ∈ links, FreeOfErrors link.tokens) : FreeOfErrors (linked links) := by
  intro token member
  obtain ⟨link, linkMember, inside⟩ := List.mem_flatMap.mp member
  exact freeOfErrors_cons.mpr ⟨joints link linkMember, phrases link linkMember⟩ token inside

/-- Phrases that follow one another are free of errors when each of them is. -/
theorem freeOfErrors_spelled {α : Type} {phrases : List (Phrase α)}
    (each : ∀ phrase ∈ phrases, FreeOfErrors phrase.tokens) : FreeOfErrors (spelled phrases) := by
  intro token member
  obtain ⟨phrase, phraseMember, inside⟩ := List.mem_flatMap.mp member
  exact each phrase phraseMember token inside

/-- An expression is free of errors. -/
theorem Expression.freeOfErrors {rank : Rank} {tokens : List Token} {tree : Expr}
    (expression : Expression rank tokens tree) : FreeOfErrors tokens := by
  induction expression with
  | assign isName isEqual _ ih => simp [isName, isEqual, ih]
  | operation _ ih => exact ih
  | @chain _ _ operators _ _ _ _ rule _ joints _ ih others =>
    have noError : ∀ kind ∈ operators, kind ≠ .error := rule.forall_operator (by decide)
    have links := freeOfErrors_linked (fun link member => noError _ (joints link member)) others
    simp [ih, links]
  | prefixed isPrefix _ ih => rcases isPrefix with isKind | isKind <;> simp [isKind, ih]
  | unprefixed _ ih => exact ih
  | uncalled _ ih => exact ih
  | callEmpty _ isOpening isClosing ih => simp [isOpening, isClosing, ih]
  | callWith _ isOpening _ commas _ isClosing ih first others =>
    have links := freeOfErrors_linked (fun link member => by simp [commas link member]) others
    simp [isOpening, isClosing, ih, first, links]
  | literal isLiteral =>
    cases isLiteral with
    | _ isKind => simp [isKind]
  | named isName => simp [isName]
  | grouping isOpening _ isClosing ih => simp [isOpening, isClosing, ih]

/-- An optional expression is free of errors. -/
theorem OptionalExpression.freeOfErrors {tokens : List Token} {value : Option Expr}
    (expression : OptionalExpression tokens value) : FreeOfErrors tokens := by
  cases expression with
  | absent => exact freeOfErrors_nil
  | present isValue => exact isValue.freeOfErrors

/-- Parameters are free of errors. -/
theorem Parameters.freeOfErrors {tokens parameters : List Token}
    (areParameters : Parameters tokens parameters) : FreeOfErrors tokens := by
  cases areParameters with
  | absent => exact freeOfErrors_nil
  | @present _ others isName commas names =>
    have eachName : ∀ link ∈ others, FreeOfErrors link.tokens := by
      intro link member
      rw [(names link member).2]
      simp [(names link member).1]
    have links := freeOfErrors_linked (fun link member => by simp [commas link member]) eachName
    simp [isName, links]

/-- A declaration of a variable is free of errors. -/
theorem Variable.freeOfErrors {tokens : List Token} {name : Token} {initializer : Option Expr}
    (declaration : Variable tokens name initializer) : FreeOfErrors tokens := by
  cases declaration with
  | plain isKeyword isName isSemicolon => simp [isKeyword, isName, isSemicolon]
  | initialized isKeyword isName isEqual isValue isSemicolon =>
    simp [isKeyword, isName, isEqual, isSemicolon, isValue.freeOfErrors]

/-- The first clause of a loop is free of errors. -/
theorem FirstClause.freeOfErrors {tokens : List Token} {start : Option LoopStart}
    (clause : FirstClause tokens start) : FreeOfErrors tokens := by
  cases clause with
  | var declaration => exact declaration.freeOfErrors
  | expression isValue isSemicolon => simp [isValue.freeOfErrors, isSemicolon]
  | absent isSemicolon => simp [isSemicolon]

/-- A statement is free of errors. -/
theorem Statement.freeOfErrors {position : Position} {tokens : List Token} {tree : Stmt}
    (statement : Statement position tokens tree) : FreeOfErrors tokens := by
  induction statement with
  | function isKeyword isName isOpening parameters isClosing isBrace _ isLast ih =>
    simp [isKeyword, isName, isOpening, parameters.freeOfErrors, isClosing, isBrace, isLast,
      freeOfErrors_spelled ih]
  | var declaration => exact declaration.freeOfErrors
  | plain _ ih => exact ih
  | expression isValue isSemicolon => simp [isValue.freeOfErrors, isSemicolon]
  | forLoop isKeyword isOpening start condition isSemicolon increment isClosing _ ih =>
    simp [isKeyword, isOpening, start.freeOfErrors, condition.freeOfErrors, isSemicolon,
      increment.freeOfErrors, isClosing, ih]
  | ifThen isKeyword isOpening condition isClosing _ ih =>
    simp [isKeyword, isOpening, condition.freeOfErrors, isClosing, ih]
  | ifElse isKeyword isOpening condition isClosing _ isWord _ thenIh elseIh =>
    simp [isKeyword, isOpening, condition.freeOfErrors, isClosing, isWord, thenIh, elseIh]
  | print isKeyword isValue isSemicolon => simp [isKeyword, isValue.freeOfErrors, isSemicolon]
  | whileLoop isKeyword isOpening condition isClosing _ ih =>
    simp [isKeyword, isOpening, condition.freeOfErrors, isClosing, ih]
  | block isOpening _ isClosing ih => simp [isOpening, isClosing, freeOfErrors_spelled ih]

/-- A sentence is free of errors. -/
theorem Sentence.freeOfErrors {tokens : List Token} (sentence : Sentence tokens) :
    FreeOfErrors tokens := by
  obtain ⟨_, items, declarations, rfl, -⟩ := sentence
  exact freeOfErrors_spelled fun item member => (declarations item member).freeOfErrors

end Lox.Grammar
