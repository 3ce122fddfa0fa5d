import Lox.Proofs.Node.Matching
import Lox.Proofs.Reading.Exactness

/-!
# The forms of program trees

In the tree of a phrase every statement and every expression stands where it means something, and every
operator is one that its node has. Writing loops without clauses keeps that so. What can go wrong only
in other trees therefore cannot go wrong in the program of a source.
-/

namespace Lox.Grammar

open Source Node

/-- Operands of a level with an operator between them are an expression. -/
theorem ChainRule.isExpression_join {rank operand : Rank} {operators : List Kind}
    {join : Expr → Token → Expr → Expr} (rule : ChainRule rank operators operand join)
    {left right : Expr} {operator : Token} (isOperator : operator.kind ∈ operators)
    (isLeft : left.node.IsExpression) (isRight : right.node.IsExpression) :
    (join left operator right).node.IsExpression := by
  have between (inside : operators ⊆ binaryKinds) :
      (Node.binary left.node operator right.node).IsExpression :=
    ⟨isLeft, inside isOperator, isRight⟩
  cases rule with
  | disjunction | conjunction => exact ⟨isLeft, isRight⟩
  | equality | comparison | sum | product => exact between (by decide)

/-- A chain of operators is an expression. -/
theorem ChainRule.isExpression {rank operand : Rank} {operators : List Kind}
    {join : Expr → Token → Expr → Expr} (rule : ChainRule rank operators operand join)
    {others : List (Link Expr)} (joints : ∀ link ∈ others, link.joint.kind ∈ operators)
    (operands : ∀ link ∈ others, link.tree.node.IsExpression) {first : Expr}
    (isFirst : first.node.IsExpression) :
    (others.foldl (fun left link => join left link.joint link.tree) first).node.IsExpression := by
  induction others generalizing first with
  | nil => exact isFirst
  | cons link others ih =>
    rw [List.forall_mem_cons] at joints operands
    exact ih joints.2 operands.2 (rule.isExpression_join joints.1 isFirst operands.1)

/-- Arguments are expressions. -/
theorem areExpressions_nodes {others : List (Link Expr)}
    (arguments : ∀ link ∈ others, link.tree.node.IsExpression) :
    AreExpressions (Expr.nodes (others.map fun link => link.tree)) := by
  induction others with
  | nil => trivial
  | cons link others ih =>
    rw [List.forall_mem_cons] at arguments
    exact ⟨arguments.1, ih arguments.2⟩

/-- The tree of an expression is one. -/
theorem Expression.isExpression {rank : Rank} {tokens : List Token} {tree : Expr}
    (expression : Expression rank tokens tree) : tree.node.IsExpression := by
  induction expression with
  | assign _ _ _ ih => exact ih
  | operation _ ih => exact ih
  | chain rule _ joints _ ih others => exact rule.isExpression joints others ih
  | prefixed isOperator _ ih => exact ⟨isOperator, ih⟩
  | unprefixed _ ih => exact ih
  | uncalled _ ih => exact ih
  | callEmpty _ _ _ ih => exact ⟨ih, trivial⟩
  | callWith _ _ _ _ _ _ ih first others => exact ⟨ih, first, areExpressions_nodes others⟩
  | literal _ => trivial
  | named _ => trivial
  | grouping _ _ _ ih => exact ih

/-- An optional expression is one if it is there. -/
theorem OptionalExpression.isExpression {tokens : List Token} {value : Option Expr}
    (expression : OptionalExpression tokens value) :
    ∀ found ∈ value, found.node.IsExpression := by
  cases expression with
  | absent => exact fun _ => nofun
  | present isValue =>
    rintro found ⟨⟩
    exact isValue.isExpression

/-- A declaration of a variable is a statement. -/
theorem Variable.isStatement {tokens : List Token} {name : Token} {initializer : Option Expr}
    (declaration : Variable tokens name initializer) :
    (Node.var name (Expr.optionalNode initializer)).IsStatement := by
  cases declaration with
  | plain => exact .inl rfl
  | initialized _ _ _ isValue _ => exact .inr isValue.isExpression

/-- The first clause of a loop is a statement. -/
theorem FirstClause.isStatement {tokens : List Token} {start : Option LoopStart}
    (clause : FirstClause tokens start) : ∀ first ∈ start, first.node.IsStatement := by
  cases clause with
  | absent => exact fun _ => nofun
  | var declaration =>
    rintro first ⟨⟩
    exact declaration.isStatement
  | expression isValue _ =>
    rintro first ⟨⟩
    exact isValue.isExpression

/-- A loop with clauses is a statement. -/
theorem isStatement_loopNode {start : Option LoopStart} {condition increment : Option Expr}
    {body : Node} (isStart : ∀ first ∈ start, first.node.IsStatement)
    (isCondition : ∀ found ∈ condition, found.node.IsExpression)
    (isIncrement : ∀ found ∈ increment, found.node.IsExpression) (isBody : body.IsStatement) :
    (loopNode start condition increment body).IsStatement := by
  cases start <;> cases condition <;> cases increment <;>
    simp_all [loopNode, IsStatement, IsExpression, AreStatements]

/-- Statements of phrases are statements. -/
theorem areStatements_nodes {phrases : List (Phrase Stmt)}
    (statements : ∀ phrase ∈ phrases, phrase.tree.node.IsStatement) :
    AreStatements (Stmt.nodes (phrases.map Phrase.tree)) := by
  induction phrases with
  | nil => trivial
  | cons phrase phrases ih =>
    rw [List.forall_mem_cons] at statements
    exact ⟨statements.1, ih statements.2⟩

/-- The tree of a statement is one. -/
theorem Statement.isStatement {position : Position} {tokens : List Token} {tree : Stmt}
    (statement : Statement position tokens tree) : tree.node.IsStatement := by
  induction statement with
  | function _ _ _ _ _ _ _ _ ih => exact areStatements_nodes ih
  | var declaration => exact declaration.isStatement
  | plain _ ih => exact ih
  | expression isValue _ => exact isValue.isExpression
  | forLoop _ _ start condition _ increment _ _ ih =>
    exact isStatement_loopNode start.isStatement condition.isExpression increment.isExpression ih
  | ifThen _ _ condition _ _ ih => exact ⟨condition.isExpression, ih, .inl rfl⟩
  | ifElse _ _ condition _ _ _ _ thenIh elseIh =>
    exact ⟨condition.isExpression, thenIh, .inr elseIh⟩
  | print _ isValue _ => exact isValue.isExpression
  | whileLoop _ _ condition _ _ ih => exact ⟨condition.isExpression, ih⟩
  | block _ _ _ ih => exact areStatements_nodes ih

end Lox.Grammar

namespace Lox

/-- The program of a source consists of statements. -/
theorem Program.areStatements_of_ofSource {source : List UInt8} {program : Program}
    (accepted : Program.ofSource source = .ok program) : Node.AreStatements program := by
  obtain ⟨tree, isRead, rfl⟩ := (Source.ofSource_eq_ok_iff source program).mp accepted
  obtain ⟨⟨⟨items, declarations, -, rfl⟩, -⟩, -⟩ := (Source.read_eq_ok_iff source tree).mp isRead
  exact Grammar.areStatements_nodes fun item isItem => (declarations item isItem).isStatement

end Lox
