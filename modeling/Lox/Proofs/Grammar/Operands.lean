import Lox.Proofs.Grammar.Tokens
import Lox.Proofs.Reading.Expressions
import Mathlib.Data.List.Basic

/-!
# Putting operations in the place of operands

The tokens of an operation are operands with operators between them, whatever the levels of these operators
are. So they stay the tokens of an operation when an operator and an operand, or a call's arguments, come
behind them, and when a prefix operator comes in front. Only the tree is another one.

Wherever a literal may stand in a program an operation may stand as well. The literals of a phrase are
replaced all at once, and every phrase around them is again one.
-/

namespace Lox.Grammar

open Source Parse

/-- The tokens are those of an expression of a rank. -/
def Derives (rank : Rank) (tokens : List Token) : Prop :=
  ∃ tree, Expression rank tokens tree

/-- The tokens of an expression of a rank go on with a suffix. -/
def Extends (suffix : List Token) (rank : Rank) : Prop :=
  ∀ tokens, Derives rank tokens → Derives rank (tokens ++ suffix)

/-- Links one after another are those before the last one and the last one. -/
theorem linked_concat {α : Type} (front : List (Link α)) (last : Link α) :
    linked (front ++ [last]) = linked front ++ last.joint :: last.tokens := by
  simp [linked]

section

variable {rank operand : Rank} {operators : List Kind} {join : Expr → Token → Expr → Expr}
  {tokens : List Token} {holds : Rank → Prop}

/-- What every chain has from its operands it has from operands without operators between. -/
theorem ChainRule.operand_of_unary
    (ofOperand : ∀ {rank operators operand join}, ChainRule rank operators operand join →
      holds operand → holds rank)
    (rule : ChainRule rank operators operand join) (isUnary : holds .unary) : holds operand := by
  have isProduct := ofOperand .product isUnary
  have isSum := ofOperand .sum isProduct
  have isComparison := ofOperand .comparison isSum
  have isEquality := ofOperand .equality isComparison
  cases rule with
  | disjunction => exact ofOperand .conjunction isEquality
  | conjunction => exact isEquality
  | equality => exact isComparison
  | comparison => exact isSum
  | sum => exact isProduct
  | product => exact isUnary

/-- What every chain has from its operands an operation has from the chains that it is made of. -/
theorem ChainRule.disjunction_of_chain
    (ofOperand : ∀ {rank operators operand join}, ChainRule rank operators operand join →
      holds operand → holds rank)
    (rule : ChainRule rank operators operand join) (isChain : holds rank) : holds .disjunction := by
  have ofConjunction (isConjunction : holds .conjunction) : holds .disjunction :=
    ofOperand .disjunction isConjunction
  have ofEquality (isEquality : holds .equality) : holds .disjunction :=
    ofConjunction (ofOperand .conjunction isEquality)
  have ofComparison (isComparison : holds .comparison) : holds .disjunction :=
    ofEquality (ofOperand .equality isComparison)
  have ofSum (isSum : holds .sum) : holds .disjunction :=
    ofComparison (ofOperand .comparison isSum)
  cases rule with
  | disjunction => exact isChain
  | conjunction => exact ofConjunction isChain
  | equality => exact ofEquality isChain
  | comparison => exact ofComparison isChain
  | sum => exact ofSum isChain
  | product => exact ofSum (ofOperand .sum isChain)

/-- What every chain has from its operands an operation has from operands without operators between. -/
theorem disjunction_of_unary
    (ofOperand : ∀ {rank operators operand join}, ChainRule rank operators operand join →
      holds operand → holds rank)
    (isUnary : holds .unary) : holds .disjunction :=
  ofOperand .disjunction (ChainRule.disjunction.operand_of_unary ofOperand isUnary)

/-- An operand is a chain by itself. -/
theorem ChainRule.derives (rule : ChainRule rank operators operand join)
    (isOperand : Derives operand tokens) : Derives rank tokens := by
  obtain ⟨tree, expression⟩ := isOperand
  exact ⟨tree, .alone rule expression⟩

/-- The tokens of a chain are those of its first operand and of the links behind it. -/
theorem ChainRule.derives_cases (rule : ChainRule rank operators operand join)
    (isChain : Derives rank tokens) :
    ∃ (first : List Token) (others : List (Link Expr)), Derives operand first ∧
      (∀ link ∈ others, link.joint.kind ∈ operators) ∧
      (∀ link ∈ others, Expression operand link.tokens link.tree) ∧
      tokens = first ++ linked others := by
  obtain ⟨tree, expression⟩ := isChain
  cases expression with
  | chain rule' first joints operands =>
    cases rule <;> cases rule' <;> exact ⟨_, _, ⟨_, first⟩, joints, operands, rfl⟩
  | _ => cases rule

/-- An operand with links behind it makes a chain. -/
theorem ChainRule.derives_linked (rule : ChainRule rank operators operand join)
    (isFirst : Derives operand tokens) {others : List (Link Expr)}
    (joints : ∀ link ∈ others, link.joint.kind ∈ operators)
    (operands : ∀ link ∈ others, Expression operand link.tokens link.tree) :
    Derives rank (tokens ++ linked others) := by
  obtain ⟨tree, expression⟩ := isFirst
  exact ⟨_, .chain rule expression joints operands⟩

/-- What goes on with the operands of a chain goes on with the chain. -/
theorem ChainRule.extends (rule : ChainRule rank operators operand join) {suffix : List Token}
    (operandExtends : Extends suffix operand) : Extends suffix rank := by
  intro tokens isChain
  obtain ⟨first, others, isFirst, joints, operands, rfl⟩ := rule.derives_cases isChain
  rcases List.eq_nil_or_concat others with rfl | ⟨front, last, rfl⟩
  · have whole := rule.derives (operandExtends first isFirst)
    simpa [linked] using whole
  · rw [List.concat_eq_append] at joints operands ⊢
    obtain ⟨frontJoints, lastJoint⟩ := List.forall_mem_append.mp joints
    obtain ⟨frontOperands, lastOperand⟩ := List.forall_mem_append.mp operands
    rw [List.forall_mem_singleton] at lastJoint lastOperand
    obtain ⟨tree, expression⟩ := operandExtends last.tokens ⟨_, lastOperand⟩
    have whole := @ChainRule.derives_linked _ _ _ _ _ rule isFirst
      (front ++ [⟨⟨last.tokens ++ suffix, tree⟩, last.joint⟩])
      (List.forall_mem_append.mpr ⟨frontJoints, by simpa using lastJoint⟩)
      (List.forall_mem_append.mpr ⟨frontOperands, by simpa using expression⟩)
    simpa [linked_concat] using whole

/-- An operator of a chain and an operand go on with the chain. -/
theorem ChainRule.extends_link (rule : ChainRule rank operators operand join) {joint : Token}
    (isOperator : joint.kind ∈ operators) (isOperand : Derives operand tokens) :
    Extends (joint :: tokens) rank := by
  intro before isChain
  obtain ⟨first, others, isFirst, joints, operands, rfl⟩ := rule.derives_cases isChain
  obtain ⟨tree, expression⟩ := isOperand
  have whole := @ChainRule.derives_linked _ _ _ _ _ rule isFirst
    (others ++ [⟨⟨tokens, tree⟩, joint⟩])
    (List.forall_mem_append.mpr ⟨joints, by simpa using isOperator⟩)
    (List.forall_mem_append.mpr ⟨operands, by simpa using expression⟩)
  simpa [linked_concat] using whole

/-- A prefix operator in front of the operands of a chain may stand in front of the chain. -/
theorem ChainRule.derives_cons (rule : ChainRule rank operators operand join) {operator : Token}
    (operandPrefixed : ∀ tokens, Derives operand tokens → Derives operand (operator :: tokens))
    (tokens : List Token) (isChain : Derives rank tokens) : Derives rank (operator :: tokens) := by
  obtain ⟨first, others, isFirst, joints, operands, rfl⟩ := rule.derives_cases isChain
  exact rule.derives_linked (operandPrefixed first isFirst) joints operands

/-- What goes on with the chains of some rank goes on with every operation. -/
theorem ChainRule.extends_disjunction (rule : ChainRule rank operators operand join)
    {suffix : List Token} (rankExtends : Extends suffix rank) : Extends suffix .disjunction :=
  rule.disjunction_of_chain (fun rule => rule.extends) rankExtends

/-- An operand without operators between is an operand of every chain. -/
theorem ChainRule.derives_of_unary (rule : ChainRule rank operators operand join)
    (isUnary : Derives .unary tokens) : Derives operand tokens :=
  @ChainRule.operand_of_unary _ _ _ _ (Derives · tokens) (fun rule => rule.derives) rule isUnary

/-- A chain of any level is an operation. -/
theorem ChainRule.derives_disjunction (rule : ChainRule rank operators operand join)
    (isChain : Derives rank tokens) : Derives .disjunction tokens :=
  @ChainRule.disjunction_of_chain _ _ _ _ (Derives · tokens) (fun rule => rule.derives) rule isChain

end

section

variable {tokens : List Token}

/-- An operand without operators between is an operation. -/
theorem Derives.ofUnary (isUnary : Derives .unary tokens) : Derives .disjunction tokens :=
  ChainRule.disjunction.derives (ChainRule.disjunction.derives_of_unary isUnary)

/-- A call is an operand without operators. -/
theorem Derives.ofCall (isCall : Derives .call tokens) : Derives .unary tokens := by
  obtain ⟨tree, expression⟩ := isCall
  exact ⟨tree, .unprefixed expression⟩

/-- A primary expression is an operand without operators. -/
theorem Derives.ofPrimary (isPrimary : Derives .primary tokens) : Derives .unary tokens := by
  obtain ⟨tree, expression⟩ := isPrimary
  exact ⟨tree, .unprefixed (.uncalled expression)⟩

/-- An operation is an expression. -/
theorem Derives.ofDisjunction (isOperation : Derives .disjunction tokens) :
    Derives .assignment tokens := by
  obtain ⟨tree, expression⟩ := isOperation
  exact ⟨tree, .operation expression⟩

/-- Arguments in parentheses go on with an operand without operators between. -/
theorem extends_arguments {opening closing : Token} {arguments : List Token}
    (isOpening : opening.kind = .leftParen)
    (areArguments : arguments = [] ∨ ∃ values, Separated (Expression .assignment) arguments values)
    (isClosing : closing.kind = .rightParen) :
    Extends (opening :: (arguments ++ [closing])) .unary := by
  rintro tokens ⟨tree, expression⟩
  have called {front : List Token} {callee : Expr} (isCallee : Expression .call front callee) :
      Derives .call (front ++ opening :: (arguments ++ [closing])) := by
    obtain rfl | ⟨values, separated⟩ := areArguments
    · exact ⟨_, isCallee.call isOpening (.inl ⟨rfl, rfl⟩) isClosing⟩
    · exact ⟨_, isCallee.call isOpening (.inr ⟨values, rfl, separated⟩) isClosing⟩
  generalize isRank : Rank.unary = rank at expression
  induction expression with
  | prefixed isPrefix _ ih =>
    obtain ⟨tree, whole⟩ := ih rfl
    exact ⟨_, .prefixed isPrefix whole⟩
  | unprefixed isCallee => exact (called isCallee).ofCall
  | chain rule => cases rule <;> cases isRank
  | _ => cases isRank

/-- A prefix operator may stand in front of an operation. -/
theorem Derives.cons {operator : Token} (isPrefix : operator.kind = .bang ∨ operator.kind = .minus)
    (isOperation : Derives .disjunction tokens) : Derives .disjunction (operator :: tokens) := by
  refine @disjunction_of_unary (fun rank => ∀ tokens, Derives rank tokens →
    Derives rank (operator :: tokens)) (fun rule => rule.derives_cons) ?_ tokens isOperation
  rintro tokens ⟨tree, expression⟩
  exact ⟨_, .prefixed isPrefix expression⟩

/-- A token between the operands of some chain. -/
def IsOperator (joint : Token) : Prop :=
  ∃ rank operators operand join, ChainRule rank operators operand join ∧ joint.kind ∈ operators

/-- An operator of any level and tokens of a rank go on with every operation. -/
def Joins (rank : Rank) : Prop :=
  ∀ before joint others, Derives .disjunction before → IsOperator joint → Derives rank others →
    Derives .disjunction (before ++ joint :: others)

/-- An operand without operators between may come behind any operator. -/
theorem joins_unary : Joins .unary := by
  rintro before joint others isOperation ⟨rank, operators, operand, join, rule, isOperator⟩ isUnary
  exact rule.extends_disjunction (rule.extends_link isOperator (rule.derives_of_unary isUnary))
    before isOperation

/-- Operators and tokens of a rank go on with every operation one after another. -/
theorem Joins.links {α : Type} {rank : Rank} (joins : Joins rank) {links : List α}
    {joint : α → Token} {others : α → List Token}
    (areOperators : ∀ link ∈ links, IsOperator (joint link))
    (ranks : ∀ link ∈ links, Derives rank (others link)) {front : List Token}
    (isFront : Derives .disjunction front) :
    Derives .disjunction (front ++ links.flatMap fun link => joint link :: others link) := by
  induction links generalizing front with
  | nil => rwa [List.flatMap_nil, List.append_nil]
  | cons link links ih =>
    rw [List.forall_mem_cons] at areOperators ranks
    have further := joins front (joint link) (others link) isFront areOperators.1 ranks.1
    have whole := ih areOperators.2 ranks.2 further
    rwa [List.append_assoc] at whole

/-- What stands between the operands of a chain is an operator. -/
theorem ChainRule.areOperators {rank operand : Rank} {operators : List Kind}
    {join : Expr → Token → Expr → Expr} (rule : ChainRule rank operators operand join)
    {links : List (Link Expr)} (joints : ∀ link ∈ links, link.joint.kind ∈ operators) :
    ∀ link ∈ links, IsOperator link.joint :=
  fun link isLink => ⟨rank, operators, operand, join, rule, joints link isLink⟩

/-- A chain may come behind any operator if its operands may: they come one after another. -/
theorem ChainRule.joins {rank operand : Rank} {operators : List Kind}
    {join : Expr → Token → Expr → Expr} (rule : ChainRule rank operators operand join)
    (operandJoins : Joins operand) : Joins rank := by
  intro before joint others isOperation isOperator isChain
  obtain ⟨first, links, isFirst, joints, operands, rfl⟩ := rule.derives_cases isChain
  have front := operandJoins before joint first isOperation isOperator isFirst
  have whole := operandJoins.links (rule.areOperators joints)
    (fun link isLink => ⟨link.tree, operands link isLink⟩) front
  rwa [List.append_assoc] at whole

/-- An operator of any level joins two operations to one. -/
theorem joins_disjunction : Joins .disjunction :=
  disjunction_of_unary (fun rule => rule.joins) joins_unary

end

/-- A token of one of these kinds is a literal. -/
theorem derives_literal {token : Token} (isKind : token.kind ∈ literalKinds) :
    Derives .primary [token] := by
  simp only [literalKinds, List.mem_cons, List.not_mem_nil, or_false] at isKind
  rcases isKind with isNil | isTrue | isFalse | isNumber | isString
  · exact ⟨_, .literal (.nil isNil)⟩
  · exact ⟨_, .literal (.true isTrue)⟩
  · exact ⟨_, .literal (.false isFalse)⟩
  · exact ⟨_, .literal (.number isNumber)⟩
  · exact ⟨_, .literal (.string isString)⟩

/-- A replacement of literals by operations. -/
structure PutsOperations (change : Token → List Token) : Prop where
  keeps : ∀ token, token.kind ∉ literalKinds → change token = [token]
  puts : ∀ token, token.kind ∈ literalKinds → Derives .disjunction (change token)

/-- The rank of an expression whose literals are replaced. -/
def Rank.loosened : Rank → Rank
  | .assignment => .assignment
  | _ => .disjunction

section

variable {change : Token → List Token} (puts : PutsOperations change)

include puts

/-- A token of a kind that is no literal is kept. -/
theorem PutsOperations.kept {token : Token} {kind : Kind} (isKind : token.kind = kind)
    (rest : List Token) (noLiteral : kind ∉ literalKinds) :
    (token :: rest).flatMap change = token :: rest.flatMap change := by
  rw [List.flatMap_cons, puts.keeps token (isKind ▸ noLiteral)]
  rfl

/-- Arguments are still some when their literals are replaced. -/
theorem PutsOperations.separated {tokens : List Token} {others : List (Link Expr)}
    (isFirst : Derives .assignment (tokens.flatMap change))
    (commas : ∀ link ∈ others, link.joint.kind = .comma)
    (arguments : ∀ link ∈ others, Derives .assignment (link.tokens.flatMap change)) :
    ∃ values, Separated (Expression .assignment) ((tokens ++ linked others).flatMap change) values := by
  induction others generalizing tokens with
  | nil =>
    obtain ⟨tree, expression⟩ := isFirst
    exact ⟨[tree], by simpa [linked] using Separated.single expression⟩
  | cons link others ih =>
    rw [List.forall_mem_cons] at commas arguments
    obtain ⟨tree, expression⟩ := isFirst
    obtain ⟨values, separated⟩ := ih arguments.1 commas.2 arguments.2
    refine ⟨tree :: values, ?_⟩
    have whole := Separated.cons expression commas.1 separated
    simpa +decide [linked, puts.kept commas.1] using whole

/-- An expression whose literals are replaced by operations is an expression. -/
theorem Expression.put {rank : Rank} {tokens : List Token} {tree : Expr}
    (expression : Expression rank tokens tree) :
    Derives rank.loosened (tokens.flatMap change) := by
  induction expression with
  | assign isName isEqual _ ih =>
    obtain ⟨tree, whole⟩ := ih
    rw [puts.kept isName _ (by decide), puts.kept isEqual _ (by decide)]
    exact ⟨_, .assign isName isEqual whole⟩
  | operation _ ih => exact Derives.ofDisjunction ih
  | @chain rank operand operators join tokens _ others rule _ joints _ ih ihs =>
    have loosened : rank.loosened = .disjunction ∧ operand.loosened = .disjunction := by
      cases rule <;> exact ⟨rfl, rfl⟩
    rw [loosened.2] at ih ihs
    have noLiteral : ∀ kind ∈ operators, kind ∉ literalKinds := rule.forall_operator (by decide)
    have isKept : ∀ link ∈ others, change link.joint = [link.joint] := fun link isLink =>
      puts.keeps _ (noLiteral _ (joints link isLink))
    have replaced : (linked others).flatMap change =
        others.flatMap fun link => link.joint :: link.tokens.flatMap change := by
      rw [linked, List.flatMap_assoc]
      refine List.flatMap_congr fun link isLink => ?_
      rw [List.flatMap_cons, isKept link isLink]
      rfl
    rw [loosened.1, List.flatMap_append, replaced]
    exact joins_disjunction.links (rule.areOperators joints) ihs ih
  | @prefixed _ tokens _ isPrefix _ ih =>
    have isKept := isPrefix.elim (fun isBang => puts.kept isBang tokens (by decide))
      fun isMinus => puts.kept isMinus tokens (by decide)
    rw [isKept]
    exact Derives.cons isPrefix ih
  | unprefixed _ ih => exact ih
  | uncalled _ ih => exact ih
  | callEmpty _ isOpening isClosing ih =>
    have behind := ChainRule.product.extends (extends_arguments isOpening (.inl rfl) isClosing)
    have whole := ChainRule.product.extends_disjunction behind _ ih
    simpa +decide [puts.kept isOpening, puts.kept isClosing, Rank.loosened] using whole
  | callWith _ isOpening _ commas _ isClosing ih first others =>
    have arguments := puts.separated first commas others
    have behind := ChainRule.product.extends (extends_arguments isOpening (.inr arguments) isClosing)
    have whole := ChainRule.product.extends_disjunction behind _ ih
    simpa +decide [puts.kept isOpening, puts.kept isClosing, Rank.loosened] using whole
  | @literal token _ isLiteral =>
    rw [List.flatMap_singleton]
    exact puts.puts token isLiteral.kind_mem_literalKinds
  | named isName =>
    rw [puts.kept isName _ (by decide), List.flatMap_nil]
    exact (Derives.ofPrimary ⟨_, .named isName⟩).ofUnary
  | grouping isOpening _ isClosing ih =>
    obtain ⟨tree, inner⟩ := ih
    rw [puts.kept isOpening _ (by decide), List.flatMap_append,
      puts.kept isClosing _ (by decide), List.flatMap_nil]
    exact (Derives.ofPrimary ⟨_, .grouping isOpening inner isClosing⟩).ofUnary

/-- An optional expression whose literals are replaced by operations is one. -/
theorem OptionalExpression.put {tokens : List Token} {value : Option Expr}
    (expression : OptionalExpression tokens value) :
    ∃ value, OptionalExpression (tokens.flatMap change) value := by
  cases expression with
  | absent => exact ⟨none, .absent⟩
  | present isValue =>
    obtain ⟨tree, whole⟩ := isValue.put puts
    exact ⟨some tree, .present whole⟩

/-- Parameters are kept. -/
theorem Parameters.put {tokens parameters : List Token} (areParameters : Parameters tokens parameters) :
    tokens.flatMap change = tokens := by
  cases areParameters with
  | absent => rfl
  | @present first others isName commas names =>
    have links : (linked others).flatMap change = linked others := by
      rw [linked, List.flatMap_assoc]
      refine List.flatMap_congr fun link isLink => ?_
      obtain ⟨isIdentifier, alone⟩ := names link isLink
      rw [alone, puts.kept (commas link isLink) _ (by decide),
        puts.kept isIdentifier _ (by decide), List.flatMap_nil]
    rw [puts.kept isName _ (by decide), links]

/-- A declaration of a variable whose literals are replaced by operations is one. -/
theorem Variable.put {tokens : List Token} {name : Token} {initializer : Option Expr}
    (declaration : Variable tokens name initializer) :
    ∃ initializer, Variable (tokens.flatMap change) name initializer := by
  cases declaration with
  | plain isKeyword isName isSemicolon =>
    rw [puts.kept isKeyword _ (by decide), puts.kept isName _ (by decide),
      puts.kept isSemicolon _ (by decide), List.flatMap_nil]
    exact ⟨_, .plain isKeyword isName isSemicolon⟩
  | initialized isKeyword isName isEqual isValue isSemicolon =>
    obtain ⟨tree, whole⟩ := isValue.put puts
    simp +decide only [List.flatMap_append, List.flatMap_nil, puts.kept isKeyword, puts.kept isName,
      puts.kept isEqual, puts.kept isSemicolon]
    exact ⟨_, .initialized isKeyword isName isEqual whole isSemicolon⟩

/-- A first clause of a loop whose literals are replaced by operations is one. -/
theorem FirstClause.put {tokens : List Token} {start : Option LoopStart}
    (clause : FirstClause tokens start) : ∃ start, FirstClause (tokens.flatMap change) start := by
  cases clause with
  | var declaration =>
    obtain ⟨initializer, whole⟩ := declaration.put puts
    exact ⟨_, .var whole⟩
  | expression isValue isSemicolon =>
    obtain ⟨tree, whole⟩ := isValue.put puts
    simp +decide only [List.flatMap_append, List.flatMap_nil, puts.kept isSemicolon]
    exact ⟨_, .expression whole isSemicolon⟩
  | absent isSemicolon =>
    rw [puts.kept isSemicolon _ (by decide), List.flatMap_nil]
    exact ⟨_, .absent isSemicolon⟩

omit puts in
/-- Statements one after another whose literals are replaced are some if each is. -/
theorem exists_spelled {phrases : List (Phrase Stmt)}
    (each : ∀ phrase ∈ phrases, ∃ tree, Statement .declaration (phrase.tokens.flatMap change) tree) :
    ∃ body : List (Phrase Stmt),
      (∀ phrase ∈ body, Statement .declaration phrase.tokens phrase.tree) ∧
        spelled body = (spelled phrases).flatMap change := by
  induction phrases with
  | nil => exact ⟨[], fun _ => nofun, rfl⟩
  | cons phrase phrases ih =>
    obtain ⟨⟨tree, statement⟩, others⟩ := List.forall_mem_cons.mp each
    obtain ⟨body, statements, whole⟩ := ih others
    refine ⟨⟨phrase.tokens.flatMap change, tree⟩ :: body,
      List.forall_mem_cons.mpr ⟨statement, statements⟩, ?_⟩
    rw [spelled, List.flatMap_cons, spelled, List.flatMap_cons, List.flatMap_append]
    exact congrArg _ whole

/-- A statement whose literals are replaced by operations is a statement. -/
theorem Statement.put {position : Position} {tokens : List Token} {tree : Stmt}
    (statement : Statement position tokens tree) :
    ∃ tree, Statement position (tokens.flatMap change) tree := by
  induction statement with
  | function isKeyword isName isOpening parameters isClosing isBrace _ isLast ih =>
    obtain ⟨body, statements, whole⟩ := exists_spelled ih
    simp +decide only [List.flatMap_append, List.flatMap_nil, puts.kept isKeyword, puts.kept isName,
      puts.kept isOpening, parameters.put puts, puts.kept isClosing, puts.kept isBrace,
      puts.kept isLast, ← whole]
    exact ⟨_, .function isKeyword isName isOpening parameters isClosing isBrace statements isLast⟩
  | var declaration =>
    obtain ⟨initializer, whole⟩ := declaration.put puts
    exact ⟨_, .var whole⟩
  | plain _ ih =>
    obtain ⟨tree, whole⟩ := ih
    exact ⟨tree, .plain whole⟩
  | expression isValue isSemicolon =>
    obtain ⟨tree, whole⟩ := isValue.put puts
    simp +decide only [List.flatMap_append, List.flatMap_nil, puts.kept isSemicolon]
    exact ⟨_, .expression whole isSemicolon⟩
  | forLoop isKeyword isOpening start condition isSemicolon increment isClosing _ ih =>
    obtain ⟨first, isFirst⟩ := start.put puts
    obtain ⟨test, isTest⟩ := condition.put puts
    obtain ⟨step, isStep⟩ := increment.put puts
    obtain ⟨body, isBody⟩ := ih
    simp +decide only [List.flatMap_append, puts.kept isKeyword, puts.kept isOpening, puts.kept isSemicolon,
      puts.kept isClosing]
    exact ⟨_, .forLoop isKeyword isOpening isFirst isTest isSemicolon isStep isClosing isBody⟩
  | ifThen isKeyword isOpening condition isClosing _ ih =>
    obtain ⟨test, isTest⟩ := condition.put puts
    obtain ⟨body, isBody⟩ := ih
    simp +decide only [List.flatMap_append, puts.kept isKeyword, puts.kept isOpening, puts.kept isClosing]
    exact ⟨_, .ifThen isKeyword isOpening isTest isClosing isBody⟩
  | ifElse isKeyword isOpening condition isClosing _ isWord _ thenIh elseIh =>
    obtain ⟨test, isTest⟩ := condition.put puts
    obtain ⟨body, isBody⟩ := thenIh
    obtain ⟨other, isOther⟩ := elseIh
    simp +decide only [List.flatMap_append, puts.kept isKeyword, puts.kept isOpening, puts.kept isClosing,
      puts.kept isWord]
    exact ⟨_, .ifElse isKeyword isOpening isTest isClosing isBody isWord isOther⟩
  | print isKeyword isValue isSemicolon =>
    obtain ⟨tree, whole⟩ := isValue.put puts
    simp +decide only [List.flatMap_append, List.flatMap_nil, puts.kept isKeyword, puts.kept isSemicolon]
    exact ⟨_, .print isKeyword whole isSemicolon⟩
  | whileLoop isKeyword isOpening condition isClosing _ ih =>
    obtain ⟨test, isTest⟩ := condition.put puts
    obtain ⟨body, isBody⟩ := ih
    simp +decide only [List.flatMap_append, puts.kept isKeyword, puts.kept isOpening, puts.kept isClosing]
    exact ⟨_, .whileLoop isKeyword isOpening isTest isClosing isBody⟩
  | block isOpening _ isClosing ih =>
    obtain ⟨body, statements, whole⟩ := exists_spelled ih
    simp +decide only [List.flatMap_append, List.flatMap_nil, puts.kept isOpening, puts.kept isClosing,
      ← whole]
    exact ⟨_, .block isOpening statements isClosing⟩

/-- A sentence whose literals are replaced by operations is a sentence. -/
theorem Sentence.put {tokens : List Token} (sentence : Sentence tokens) :
    Sentence (tokens.flatMap change) := by
  obtain ⟨_, items, declarations, rfl, -⟩ := sentence
  obtain ⟨body, statements, whole⟩ :=
    exists_spelled fun item isItem => (declarations item isItem).put puts
  exact ⟨_, body, statements, whole.symm, rfl⟩

end

/-- An operand may stand behind some tokens, such as nil. -/
def TakesOperand (before : List Token) : Prop :=
  ∀ operand : Token, operand.kind = .nilWord → Viable (before ++ [operand])

/-- Some line is behind those of all tokens. -/
theorem exists_line_behind (tokens : List Token) : ∃ line, ∀ token ∈ tokens, token.line < line := by
  induction tokens with
  | nil => exact ⟨0, fun _ => nofun⟩
  | cons token tokens ih =>
    obtain ⟨line, isBehind⟩ := ih
    refine ⟨max line (token.line + 1), List.forall_mem_cons.mpr ⟨by omega, ?_⟩⟩
    intro other isOther
    have before := isBehind other isOther
    omega

/-- Where an operand may stand an operation may stand. -/
theorem TakesOperand.viable_append {before operation : List Token} (takes : TakesOperand before)
    (isOperation : Derives .disjunction operation) : Viable (before ++ operation) := by
  -- A token on a line behind all others is the only one to be replaced.
  obtain ⟨line, isBehind⟩ := exists_line_behind before
  let operand : Token := ⟨.nilWord, [], line⟩
  obtain ⟨more, sentence⟩ := takes operand rfl
  let change (token : Token) : List Token := if token = operand then operation else [token]
  have changed : change operand = operation := if_pos rfl
  have others {token : Token} (isOther : token ≠ operand) : change token = [token] := if_neg isOther
  have puts : PutsOperations change := by
    constructor
    · intro token noLiteral
      refine others ?_
      rintro rfl
      exact noLiteral List.mem_cons_self
    · intro token isLiteral
      by_cases same : token = operand
      · rwa [same, changed]
      · rw [others same]
        exact (Derives.ofPrimary (derives_literal isLiteral)).ofUnary
  have unchanged : before.flatMap change = before := by
    refine (List.flatMap_congr fun token isOld => others ?_).trans (List.flatMap_singleton' before)
    rintro rfl
    exact Int.lt_irrefl _ (isBehind _ isOld)
  have replaced := sentence.put puts
  rw [List.append_assoc, List.flatMap_append, List.singleton_append, List.flatMap_cons, changed,
    unchanged, ← List.append_assoc] at replaced
  exact ⟨_, replaced⟩

end Lox.Grammar
