import Lox.Proofs.Grammar.Limits
import Lox.Proofs.Node.Matching
import Lox.Source.Desugar

/-!
# Phrases with their tokens changed

The grammar looks at the kinds of tokens and, in literals, at their lexemes. A change that leaves both
turns every phrase into a phrase, whose tree is the tree of the first with its tokens changed. Nothing
else of a tree depends on its tokens: neither the form, nor where alternatives belong, nor the limits.
-/

namespace Lox

/-- A change that leaves the kind and the lexeme of every token. -/
structure KeepsSpelling (change : Token → Token) : Prop where
  kind_eq : ∀ token, (change token).kind = token.kind
  lexeme_eq : ∀ token, (change token).lexeme = token.lexeme

/-- A token of a kind is still one when it is changed. -/
theorem KeepsSpelling.isKind {change : Token → Token} (keeps : KeepsSpelling change) {token : Token}
    {kind : Kind} (isKind : token.kind = kind) : (change token).kind = kind :=
  (keeps.kind_eq token).trans isKind

namespace Source

mutual

/-- The expression with each of its tokens changed. -/
def Expr.mapTokens (change : Token → Token) : Expr → Expr
  | .literal value => .literal value
  | .variable name => .variable (change name)
  | .grouping inner => .grouping (inner.mapTokens change)
  | .call callee arguments paren =>
    .call (callee.mapTokens change) (Expr.mapTokensOfList change arguments) (change paren)
  | .unary operator operand => .unary (change operator) (operand.mapTokens change)
  | .binary left operator right =>
    .binary (left.mapTokens change) (change operator) (right.mapTokens change)
  | .logical left operator right =>
    .logical (left.mapTokens change) (change operator) (right.mapTokens change)
  | .assign name value => .assign (change name) (value.mapTokens change)

/-- Some expressions with each of their tokens changed. -/
def Expr.mapTokensOfList (change : Token → Token) : List Expr → List Expr
  | [] => []
  | first :: rest => first.mapTokens change :: Expr.mapTokensOfList change rest

end

/-- The first clause of a loop with each of its tokens changed. -/
def LoopStart.mapTokens (change : Token → Token) : LoopStart → LoopStart
  | .var name initializer => .var (change name) (initializer.map (Expr.mapTokens change))
  | .expression value => .expression (value.mapTokens change)

mutual

/-- The statement with each of its tokens changed. -/
def Stmt.mapTokens (change : Token → Token) : Stmt → Stmt
  | .expression value => .expression (value.mapTokens change)
  | .print value => .print (value.mapTokens change)
  | .var name initializer => .var (change name) (initializer.map (Expr.mapTokens change))
  | .function name parameters body =>
    .function (change name) (parameters.map change) (Stmt.mapTokensOfList change body)
  | .block body => .block (Stmt.mapTokensOfList change body)
  | .ifThen condition thenBranch =>
    .ifThen (condition.mapTokens change) (thenBranch.mapTokens change)
  | .ifElse condition thenBranch elseBranch =>
    .ifElse (condition.mapTokens change) (thenBranch.mapTokens change)
      (elseBranch.mapTokens change)
  | .whileLoop condition body => .whileLoop (condition.mapTokens change) (body.mapTokens change)
  | .forLoop start condition increment body =>
    .forLoop (start.map (LoopStart.mapTokens change)) (condition.map (Expr.mapTokens change))
      (increment.map (Expr.mapTokens change)) (body.mapTokens change)

/-- Some statements with each of their tokens changed. -/
def Stmt.mapTokensOfList (change : Token → Token) : List Stmt → List Stmt
  | [] => []
  | first :: rest => first.mapTokens change :: Stmt.mapTokensOfList change rest

end

section

variable (change : Token → Token)

/-- Changing the tokens of some expressions changes those of each of them. -/
theorem Expr.mapTokensOfList_eq_map (trees : List Expr) :
    Expr.mapTokensOfList change trees = trees.map (Expr.mapTokens change) := by
  induction trees with
  | nil => rfl
  | cons first rest ih => rw [Expr.mapTokensOfList, ih, List.map_cons]

/-- Changing the tokens of some statements changes those of each of them. -/
theorem Stmt.mapTokensOfList_eq_map (trees : List Stmt) :
    Stmt.mapTokensOfList change trees = trees.map (Stmt.mapTokens change) := by
  induction trees with
  | nil => rfl
  | cons first rest ih => rw [Stmt.mapTokensOfList, ih, List.map_cons]

section

attribute [local simp] Expr.mapTokens Expr.mapTokensOfList Expr.node Expr.nodes Node.mapTokens
  Node.mapTokensOfList

mutual

/-- The node of an expression with its tokens changed. -/
theorem Expr.node_mapTokens : (tree : Expr) →
    (tree.mapTokens change).node = tree.node.mapTokens change
  | .literal _ | .variable _ => rfl
  | .grouping inner => by simp [Expr.node_mapTokens inner]
  | .call callee arguments _ => by
    simp [Expr.node_mapTokens callee, Expr.nodes_mapTokens arguments]
  | .unary _ operand => by simp [Expr.node_mapTokens operand]
  | .binary left _ right | .logical left _ right => by
    simp [Expr.node_mapTokens left, Expr.node_mapTokens right]
  | .assign _ value => by simp [Expr.node_mapTokens value]

/-- The nodes of some expressions with their tokens changed. -/
theorem Expr.nodes_mapTokens : (trees : List Expr) →
    Expr.nodes (Expr.mapTokensOfList change trees) = Node.mapTokensOfList change (Expr.nodes trees)
  | [] => rfl
  | first :: rest => by simp [Expr.node_mapTokens first, Expr.nodes_mapTokens rest]

end

/-- The node of an optional expression with its tokens changed. -/
theorem Expr.optionalNode_mapTokens (value : Option Expr) :
    Expr.optionalNode (value.map (Expr.mapTokens change)) =
      (Expr.optionalNode value).mapTokens change := by
  cases value with
  | none => rfl
  | some tree => exact Expr.node_mapTokens change tree

/-- The node of the first clause of a loop with its tokens changed. -/
theorem LoopStart.node_mapTokens (start : LoopStart) :
    (start.mapTokens change).node = start.node.mapTokens change := by
  cases start with
  | var name initializer =>
    simp [LoopStart.mapTokens, LoopStart.node, Expr.optionalNode_mapTokens]
  | expression value => simp [LoopStart.mapTokens, LoopStart.node, Expr.node_mapTokens]

/-- The node of a loop with clauses with its tokens changed. -/
theorem loopNode_mapTokens (start : Option LoopStart) (condition increment : Option Expr)
    (body : Node) :
    loopNode (start.map (LoopStart.mapTokens change)) (condition.map (Expr.mapTokens change))
        (increment.map (Expr.mapTokens change)) (body.mapTokens change) =
      (loopNode start condition increment body).mapTokens change := by
  cases start <;> cases condition <;> cases increment <;>
    simp [loopNode, Expr.node_mapTokens, LoopStart.node_mapTokens]

mutual

/-- The node of a statement with its tokens changed. -/
theorem Stmt.node_mapTokens : (tree : Stmt) →
    (tree.mapTokens change).node = tree.node.mapTokens change
  | .expression value | .print value => by
    simp [Stmt.mapTokens, Stmt.node, Expr.node_mapTokens]
  | .var _ initializer => by simp [Stmt.mapTokens, Stmt.node, Expr.optionalNode_mapTokens]
  | .function _ _ body => by simp [Stmt.mapTokens, Stmt.node, Stmt.nodes_mapTokens body]
  | .block body => by simp [Stmt.mapTokens, Stmt.node, Stmt.nodes_mapTokens body]
  | .ifThen _ thenBranch => by
    simp [Stmt.mapTokens, Stmt.node, Expr.node_mapTokens, Stmt.node_mapTokens thenBranch]
  | .ifElse _ thenBranch elseBranch => by
    simp [Stmt.mapTokens, Stmt.node, Expr.node_mapTokens, Stmt.node_mapTokens thenBranch,
      Stmt.node_mapTokens elseBranch]
  | .whileLoop _ body => by
    simp [Stmt.mapTokens, Stmt.node, Expr.node_mapTokens, Stmt.node_mapTokens body]
  | .forLoop start condition increment body => by
    rw [Stmt.mapTokens, Stmt.node, Stmt.node_mapTokens body, loopNode_mapTokens, Stmt.node]

/-- The nodes of some statements with their tokens changed. -/
theorem Stmt.nodes_mapTokens : (trees : List Stmt) →
    Stmt.nodes (Stmt.mapTokensOfList change trees) = Node.mapTokensOfList change (Stmt.nodes trees)
  | [] => rfl
  | first :: rest => by
    simp [Stmt.mapTokensOfList, Stmt.nodes, Stmt.node_mapTokens first, Stmt.nodes_mapTokens rest]

end

end

/-- A change of tokens leaves open conditionals open. -/
theorem Stmt.isOpen_mapTokens : (tree : Stmt) → (tree.mapTokens change).isOpen = tree.isOpen
  | .expression _ | .print _ | .var _ _ | .function _ _ _ | .block _ | .ifThen _ _ => rfl
  | .ifElse _ _ elseBranch => Stmt.isOpen_mapTokens elseBranch
  | .whileLoop _ body | .forLoop _ _ _ body => Stmt.isOpen_mapTokens body

mutual

/-- A change of tokens leaves alternatives where they belong. -/
theorem Stmt.nearestElse_mapTokens : (tree : Stmt) →
    ((tree.mapTokens change).NearestElse ↔ tree.NearestElse)
  | .expression _ | .print _ | .var _ _ => Iff.rfl
  | .function _ _ body | .block body => Stmt.nearestElseAll_mapTokens body
  | .ifThen _ thenBranch => Stmt.nearestElse_mapTokens thenBranch
  | .ifElse _ thenBranch elseBranch => by
    simp only [Stmt.mapTokens, Stmt.NearestElse, Stmt.isOpen_mapTokens,
      Stmt.nearestElse_mapTokens thenBranch, Stmt.nearestElse_mapTokens elseBranch]
  | .whileLoop _ body | .forLoop _ _ _ body => Stmt.nearestElse_mapTokens body

/-- A change of tokens leaves the alternatives of some statements where they belong. -/
theorem Stmt.nearestElseAll_mapTokens : (trees : List Stmt) →
    (Stmt.NearestElseAll (Stmt.mapTokensOfList change trees) ↔ Stmt.NearestElseAll trees)
  | [] => Iff.rfl
  | first :: rest => by
    simp only [Stmt.mapTokensOfList, Stmt.NearestElseAll, Stmt.nearestElse_mapTokens first,
      Stmt.nearestElseAll_mapTokens rest]

end

mutual

/-- A change of tokens leaves the number of arguments in an expression. -/
theorem Expr.keepsLimits_mapTokens : (tree : Expr) →
    ((tree.mapTokens change).KeepsLimits ↔ tree.KeepsLimits)
  | .literal _ | .variable _ => Iff.rfl
  | .grouping inner | .unary _ inner | .assign _ inner => Expr.keepsLimits_mapTokens inner
  | .call callee arguments _ => by
    have length : (Expr.mapTokensOfList change arguments).length = arguments.length := by
      rw [Expr.mapTokensOfList_eq_map, List.length_map]
    simp only [Expr.mapTokens, Expr.KeepsLimits, Expr.keepsLimits_mapTokens callee,
      Expr.keepLimits_mapTokens arguments, length]
  | .binary left _ right | .logical left _ right => by
    simp only [Expr.mapTokens, Expr.KeepsLimits, Expr.keepsLimits_mapTokens left,
      Expr.keepsLimits_mapTokens right]

/-- A change of tokens leaves the number of arguments in some expressions. -/
theorem Expr.keepLimits_mapTokens : (trees : List Expr) →
    (Expr.KeepLimits (Expr.mapTokensOfList change trees) ↔ Expr.KeepLimits trees)
  | [] => Iff.rfl
  | first :: rest => by
    simp only [Expr.mapTokensOfList, Expr.KeepLimits, Expr.keepsLimits_mapTokens first,
      Expr.keepLimits_mapTokens rest]

end

/-- A change of tokens leaves the number of arguments in the first clause of a loop. -/
theorem LoopStart.keepsLimits_mapTokens (start : LoopStart) :
    (start.mapTokens change).KeepsLimits ↔ start.KeepsLimits := by
  cases start <;> simp [LoopStart.mapTokens, LoopStart.KeepsLimits, Expr.keepsLimits_mapTokens]

mutual

/-- A change of tokens leaves the numbers of arguments and parameters in a statement. -/
theorem Stmt.keepsLimits_mapTokens : (tree : Stmt) →
    ((tree.mapTokens change).KeepsLimits ↔ tree.KeepsLimits)
  | .expression value | .print value => Expr.keepsLimits_mapTokens change value
  | .var _ initializer => by
    simp [Stmt.mapTokens, Stmt.KeepsLimits, Expr.keepsLimits_mapTokens]
  | .function _ parameters body => by
    simp only [Stmt.mapTokens, Stmt.KeepsLimits, Stmt.keepLimits_mapTokens body, List.length_map]
  | .block body => Stmt.keepLimits_mapTokens body
  | .ifThen _ thenBranch => by
    simp only [Stmt.mapTokens, Stmt.KeepsLimits, Expr.keepsLimits_mapTokens,
      Stmt.keepsLimits_mapTokens thenBranch]
  | .ifElse _ thenBranch elseBranch => by
    simp only [Stmt.mapTokens, Stmt.KeepsLimits, Expr.keepsLimits_mapTokens,
      Stmt.keepsLimits_mapTokens thenBranch, Stmt.keepsLimits_mapTokens elseBranch]
  | .whileLoop _ body => by
    simp only [Stmt.mapTokens, Stmt.KeepsLimits, Expr.keepsLimits_mapTokens,
      Stmt.keepsLimits_mapTokens body]
  | .forLoop _ _ _ body => by
    simp [Stmt.mapTokens, Stmt.KeepsLimits, Expr.keepsLimits_mapTokens,
      LoopStart.keepsLimits_mapTokens, Stmt.keepsLimits_mapTokens body]

/-- A change of tokens leaves the numbers of arguments and parameters in some statements. -/
theorem Stmt.keepLimits_mapTokens : (trees : List Stmt) →
    (Stmt.KeepLimits (Stmt.mapTokensOfList change trees) ↔ Stmt.KeepLimits trees)
  | [] => Iff.rfl
  | first :: rest => by
    simp only [Stmt.mapTokensOfList, Stmt.KeepLimits, Stmt.keepsLimits_mapTokens first,
      Stmt.keepLimits_mapTokens rest]

end

end

end Source

namespace Grammar

open Source

variable {α : Type} {change : Token → Token}

/-- A phrase with its tokens and its tree changed. -/
def Phrase.map (change : Token → Token) (changeTree : α → α) (phrase : Phrase α) : Phrase α :=
  ⟨phrase.tokens.map change, changeTree phrase.tree⟩

/-- A link with its tokens and its tree changed. -/
def Link.map (change : Token → Token) (changeTree : α → α) (link : Link α) : Link α :=
  ⟨link.toPhrase.map change changeTree, change link.joint⟩

/-- Changed phrases that follow one another have the changed tokens. -/
theorem spelled_map (changeTree : α → α) (phrases : List (Phrase α)) :
    spelled (phrases.map (Phrase.map change changeTree)) = (spelled phrases).map change := by
  rw [spelled, spelled, List.flatMap_map, List.map_flatMap]
  rfl

/-- Changed links that follow one another have the changed tokens. -/
theorem linked_map (changeTree : α → α) (links : List (Link α)) :
    linked (links.map (Link.map change changeTree)) = (linked links).map change := by
  rw [linked, linked, List.flatMap_map, List.map_flatMap]
  rfl

/-- Changed phrases that follow one another have the changed trees. -/
theorem map_tree_map (phrases : List (Phrase Stmt)) :
    (phrases.map (Phrase.map change (Stmt.mapTokens change))).map Phrase.tree =
      Stmt.mapTokensOfList change (phrases.map Phrase.tree) := by
  rw [Stmt.mapTokensOfList_eq_map, List.map_map, List.map_map]
  rfl

/-- Operands with an operator between them change with their tokens. -/
theorem ChainRule.mapTokens_join {rank operand : Rank} {operators : List Kind}
    {join : Expr → Token → Expr → Expr} (rule : ChainRule rank operators operand join)
    (left : Expr) (operator : Token) (right : Expr) :
    (join left operator right).mapTokens change =
      join (left.mapTokens change) (change operator) (right.mapTokens change) := by
  cases rule <;> rfl

/-- A chain of operators changes with its tokens. -/
theorem ChainRule.mapTokens_foldl {rank operand : Rank} {operators : List Kind}
    {join : Expr → Token → Expr → Expr} (rule : ChainRule rank operators operand join)
    (others : List (Link Expr)) (first : Expr) :
    (others.foldl (fun left link => join left link.joint link.tree) first).mapTokens change =
      (others.map (Link.map change (Expr.mapTokens change))).foldl
        (fun left link => join left link.joint link.tree) (first.mapTokens change) := by
  induction others generalizing first with
  | nil => rfl
  | cons link others ih =>
    rw [List.foldl_cons, ih, rule.mapTokens_join]
    rfl

variable (keeps : KeepsSpelling change)

include keeps

/-- A literal is one with its token changed, and has the same value. -/
theorem IsLiteral.mapTokens {token : Token} {value : Literal} (isLiteral : IsLiteral token value) :
    IsLiteral (change token) value := by
  have lexeme := keeps.lexeme_eq token
  cases isLiteral with
  | nil isKind => exact .nil (keeps.isKind isKind)
  | true isKind => exact .true (keeps.isKind isKind)
  | false isKind => exact .false (keeps.isKind isKind)
  | number isKind =>
    rw [← lexeme]
    exact .number (keeps.isKind isKind)
  | string isKind =>
    rw [← lexeme]
    exact .string (keeps.isKind isKind)

/-- An expression is one with its tokens changed. -/
theorem Expression.mapTokens {rank : Rank} {tokens : List Token} {tree : Expr}
    (expression : Expression rank tokens tree) :
    Expression rank (tokens.map change) (tree.mapTokens change) := by
  induction expression with
  | assign isName isEqual _ ih =>
    exact .assign (keeps.isKind isName) (keeps.isKind isEqual) ih
  | operation _ ih => exact .operation ih
  | @chain _ _ _ _ _ _ others rule _ joints _ ih areOperands =>
    rw [List.map_append, rule.mapTokens_foldl,
      ← linked_map (Expr.mapTokens change)]
    refine .chain rule ih ?_ ?_
    · simpa [Link.map, keeps.kind_eq] using joints
    · simpa [Link.map, Phrase.map] using areOperands
  | prefixed isPrefix _ ih => exact .prefixed (by rwa [keeps.kind_eq]) ih
  | unprefixed _ ih => exact .unprefixed ih
  | uncalled _ ih => exact .uncalled ih
  | callEmpty _ isOpening isClosing ih =>
    rw [List.map_append]
    exact .callEmpty ih (keeps.isKind isOpening) (keeps.isKind isClosing)
  | @callWith _ _ _ _ others _ _ _ isOpening _ commas _ isClosing ih first areArguments =>
    let changed := others.map (Link.map change (Expr.mapTokens change))
    have areCommas : ∀ link ∈ changed, link.joint.kind = .comma := by
      simpa [changed, Link.map, keeps.kind_eq] using commas
    have areChanged : ∀ link ∈ changed, Expression .assignment link.tokens link.tree := by
      simpa [changed, Link.map, Phrase.map] using areArguments
    have whole := Expression.callWith ih (keeps.isKind isOpening) first areCommas
      areChanged (keeps.isKind isClosing)
    simpa [changed, linked_map, Expr.mapTokens, Expr.mapTokensOfList_eq_map, Link.map, Phrase.map,
      Function.comp_def] using whole
  | literal isLiteral => exact .literal (isLiteral.mapTokens keeps)
  | named isName => exact .named (keeps.isKind isName)
  | grouping isOpening _ isClosing ih =>
    rw [List.map_cons, List.map_append]
    exact .grouping (keeps.isKind isOpening) ih (keeps.isKind isClosing)

/-- An optional expression is one with its tokens changed. -/
theorem OptionalExpression.mapTokens {tokens : List Token} {value : Option Expr}
    (expression : OptionalExpression tokens value) :
    OptionalExpression (tokens.map change) (value.map (Expr.mapTokens change)) := by
  cases expression with
  | absent => exact .absent
  | present isValue => exact .present (isValue.mapTokens keeps)

/-- Parameters are some with their tokens changed. -/
theorem Parameters.mapTokens {tokens parameters : List Token}
    (areParameters : Parameters tokens parameters) :
    Parameters (tokens.map change) (parameters.map change) := by
  cases areParameters with
  | absent => exact .absent
  | @present _ others isName commas names =>
    let changed := others.map (Link.map change change)
    have areCommas : ∀ link ∈ changed, link.joint.kind = .comma := by
      simpa [changed, Link.map, keeps.kind_eq] using commas
    have areNames : ∀ link ∈ changed, link.tree.kind = .identifier ∧ link.tokens = [link.tree] := by
      intro link isLink
      obtain ⟨original, isOriginal, rfl⟩ := List.mem_map.mp isLink
      obtain ⟨isIdentifier, alone⟩ := names original isOriginal
      exact ⟨keeps.isKind isIdentifier, congrArg (List.map change) alone⟩
    have whole := Parameters.present (keeps.isKind isName) areCommas areNames
    simpa [changed, linked_map, Link.map, Phrase.map, Function.comp_def] using whole

/-- A declaration of a variable is one with its tokens changed. -/
theorem Variable.mapTokens {tokens : List Token} {name : Token} {initializer : Option Expr}
    (declaration : Variable tokens name initializer) :
    Variable (tokens.map change) (change name) (initializer.map (Expr.mapTokens change)) := by
  cases declaration with
  | plain isKeyword isName isSemicolon =>
    exact .plain (keeps.isKind isKeyword) (keeps.isKind isName)
      (keeps.isKind isSemicolon)
  | initialized isKeyword isName isEqual isValue isSemicolon =>
    simp only [List.map_cons, List.map_append]
    exact .initialized (keeps.isKind isKeyword) (keeps.isKind isName)
      (keeps.isKind isEqual) (isValue.mapTokens keeps)
      (keeps.isKind isSemicolon)

/-- The first clause of a loop is one with its tokens changed. -/
theorem FirstClause.mapTokens {tokens : List Token} {start : Option LoopStart}
    (clause : FirstClause tokens start) :
    FirstClause (tokens.map change) (start.map (LoopStart.mapTokens change)) := by
  cases clause with
  | var declaration => exact .var (declaration.mapTokens keeps)
  | expression isValue isSemicolon =>
    rw [List.map_append]
    exact .expression (isValue.mapTokens keeps) (keeps.isKind isSemicolon)
  | absent isSemicolon => exact .absent (keeps.isKind isSemicolon)

/-- A statement is one with its tokens changed. -/
theorem Statement.mapTokens {position : Position} {tokens : List Token} {tree : Stmt}
    (statement : Statement position tokens tree) :
    Statement position (tokens.map change) (tree.mapTokens change) := by
  -- Both functions and blocks hold declarations, which are changed one by one.
  have body {phrases : List (Phrase Stmt)}
      (each : ∀ phrase ∈ phrases, Statement .declaration (phrase.tokens.map change)
        (phrase.tree.mapTokens change)) :
      ∀ phrase ∈ phrases.map (Phrase.map change (Stmt.mapTokens change)),
        Statement .declaration phrase.tokens phrase.tree := by
    simpa [Phrase.map] using each
  induction statement with
  | function isKeyword isName isOpening parameters isClosing isBrace _ isLast ih =>
    have whole := Statement.function (keeps.isKind isKeyword)
      (keeps.isKind isName) (keeps.isKind isOpening)
      (parameters.mapTokens keeps) (keeps.isKind isClosing)
      (keeps.isKind isBrace) (body ih) (keeps.isKind isLast)
    rw [spelled_map, map_tree_map] at whole
    simpa [Stmt.mapTokens] using whole
  | var declaration => exact .var (declaration.mapTokens keeps)
  | plain _ ih => exact .plain ih
  | expression isValue isSemicolon =>
    rw [List.map_append]
    exact .expression (isValue.mapTokens keeps) (keeps.isKind isSemicolon)
  | forLoop isKeyword isOpening start condition isSemicolon increment isClosing _ ih =>
    simp only [List.map_cons, List.map_append]
    exact .forLoop (keeps.isKind isKeyword) (keeps.isKind isOpening)
      (start.mapTokens keeps) (condition.mapTokens keeps) (keeps.isKind isSemicolon)
      (increment.mapTokens keeps) (keeps.isKind isClosing) ih
  | ifThen isKeyword isOpening condition isClosing _ ih =>
    simp only [List.map_cons, List.map_append]
    exact .ifThen (keeps.isKind isKeyword) (keeps.isKind isOpening)
      (condition.mapTokens keeps) (keeps.isKind isClosing) ih
  | ifElse isKeyword isOpening condition isClosing _ isWord _ thenIh elseIh =>
    simp only [List.map_cons, List.map_append]
    exact .ifElse (keeps.isKind isKeyword) (keeps.isKind isOpening)
      (condition.mapTokens keeps) (keeps.isKind isClosing) thenIh
      (keeps.isKind isWord) elseIh
  | print isKeyword isValue isSemicolon =>
    simp only [List.map_cons, List.map_append]
    exact .print (keeps.isKind isKeyword) (isValue.mapTokens keeps)
      (keeps.isKind isSemicolon)
  | whileLoop isKeyword isOpening condition isClosing _ ih =>
    simp only [List.map_cons, List.map_append]
    exact .whileLoop (keeps.isKind isKeyword) (keeps.isKind isOpening)
      (condition.mapTokens keeps) (keeps.isKind isClosing) ih
  | block isOpening _ isClosing ih =>
    have whole := Statement.block (keeps.isKind isOpening) (body ih)
      (keeps.isKind isClosing)
    rw [spelled_map, map_tree_map] at whole
    simpa [Stmt.mapTokens] using whole

/-- A program is one with its tokens changed. -/
theorem IsProgram.mapTokens {tokens : List Token} {program : List Stmt}
    (isProgram : IsProgram tokens program) :
    IsProgram (tokens.map change) (Stmt.mapTokensOfList change program) := by
  obtain ⟨items, declarations, rfl, rfl⟩ := isProgram
  refine ⟨items.map (Phrase.map change (Stmt.mapTokens change)), ?_, (spelled_map _ items).symm,
    (map_tree_map items).symm⟩
  intro item isItem
  obtain ⟨original, isOriginal, rfl⟩ := List.mem_map.mp isItem
  exact (declarations original isOriginal).mapTokens keeps

end Grammar

end Lox
