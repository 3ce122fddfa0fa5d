import Lox.Proofs.Grammar.Tokens
import Lox.Proofs.Node.Leaves
import Lox.Source.Desugar

/-!
# Where the leaves of a tree come from

The tree of a phrase keeps names, operators and closing parentheses of the phrase and no other
tokens, and its literals are those that tokens of the phrase write. Writing loops without clauses adds
no more than a condition that always holds. So what is known of the tokens of a source is known of all
leaves of its program.
-/

namespace Lox.Grammar

open Source Node

/-- The tokens that a tree may keep: those that are no literals by a text of their own. -/
def kept (tokens : List Token) : List Token :=
  tokens.filter fun token => token.kind ≠ .string ∧ token.kind ≠ .number ∧ token.kind ≠ .error

/-- A token may be kept if it is there and its kind is no other. -/
@[grind =]
theorem mem_kept {tokens : List Token} {token : Token} :
    token ∈ kept tokens ↔
      token ∈ tokens ∧ token.kind ≠ .string ∧ token.kind ≠ .number ∧ token.kind ≠ .error := by
  simp [kept]

/-- Whatever a tree has for a token is among some leaves: the token itself, if it may be kept, and the
literal that it writes. -/
structure Gives (among : Leaf → Prop) (token : Token) : Prop where
  kept : token.kind ≠ .string ∧ token.kind ≠ .number ∧ token.kind ≠ .error →
    ∀ role, among (.token role token)
  literal : ∀ value, IsLiteral token value → among (.literal value)

/-- Whatever a tree has for some tokens is among some leaves. -/
def AllGive (among : Leaf → Prop) (tokens : List Token) : Prop :=
  ∀ token ∈ tokens, Gives among token

variable {among : Leaf → Prop}

/-- A token of a kind that may be kept is among the leaves. -/
theorem Gives.keeps {token : Token} {kind : Kind} (gives : Gives among token) (isKind : token.kind = kind)
    (mayKeep : kind ≠ .string ∧ kind ≠ .number ∧ kind ≠ .error) (role : Role) :
    among (.token role token) :=
  gives.kept (isKind ▸ mayKeep) role

/-- Some tokens and one before them. -/
@[simp]
theorem allGive_cons {token : Token} {tokens : List Token} :
    AllGive among (token :: tokens) ↔ Gives among token ∧ AllGive among tokens :=
  List.forall_mem_cons

/-- Some tokens and others behind them. -/
@[simp]
theorem allGive_append {tokens others : List Token} :
    AllGive among (tokens ++ others) ↔ AllGive among tokens ∧ AllGive among others :=
  List.forall_mem_append

/-- Links and one before them. -/
theorem allGive_linked_cons {α : Type} {link : Link α} {others : List (Link α)} :
    AllGive among (linked (link :: others)) ↔
      Gives among link.joint ∧ AllGive among link.tokens ∧ AllGive among (linked others) := by
  simp [linked]

/-- Phrases and one before them. -/
theorem allGive_spelled_cons {α : Type} {phrase : Phrase α} {others : List (Phrase α)} :
    AllGive among (spelled (phrase :: others)) ↔
      AllGive among phrase.tokens ∧ AllGive among (spelled others) := by
  simp [spelled]

/-- Operands of a level with an operator between them are within the leaves. -/
theorem ChainRule.within_join {rank operand : Rank} {operators : List Kind}
    {join : Expr → Token → Expr → Expr} (rule : ChainRule rank operators operand join)
    {left right : Expr} {operator : Token} (isOperator : operator.kind ∈ operators)
    (gives : Gives among operator) (isLeft : left.node.Within among) (isRight : right.node.Within among) :
    (join left operator right).node.Within among := by
  have mayKeep : ∀ kind ∈ operators, kind ≠ .string ∧ kind ≠ .number ∧ kind ≠ .error :=
    rule.forall_operator (by decide)
  have isLeaf := gives.keeps rfl (mayKeep _ isOperator) .operator
  cases rule <;> exact ⟨isLeft, isLeaf, isRight⟩

/-- A chain of operators is within the leaves. -/
theorem ChainRule.within {rank operand : Rank} {operators : List Kind}
    {join : Expr → Token → Expr → Expr} (rule : ChainRule rank operators operand join)
    {others : List (Link Expr)} (joints : ∀ link ∈ others, link.joint.kind ∈ operators)
    (operands : ∀ link ∈ others, AllGive among link.tokens → link.tree.node.Within among)
    (allGive : AllGive among (linked others)) {first : Expr} (isFirst : first.node.Within among) :
    (others.foldl (fun left link => join left link.joint link.tree) first).node.Within among := by
  induction others generalizing first with
  | nil => exact isFirst
  | cons link others ih =>
    rw [List.forall_mem_cons] at joints operands
    obtain ⟨gives, inside, rest⟩ := allGive_linked_cons.mp allGive
    exact ih joints.2 operands.2 rest (rule.within_join joints.1 gives isFirst (operands.1 inside))

/-- Arguments are within the leaves. -/
theorem areWithin_arguments {others : List (Link Expr)}
    (arguments : ∀ link ∈ others, AllGive among link.tokens → link.tree.node.Within among)
    (allGive : AllGive among (linked others)) :
    AreWithin among (Expr.nodes (others.map fun link => link.tree)) := by
  induction others with
  | nil => trivial
  | cons link others ih =>
    rw [List.forall_mem_cons] at arguments
    obtain ⟨-, inside, rest⟩ := allGive_linked_cons.mp allGive
    exact ⟨arguments.1 inside, ih arguments.2 rest⟩

/-- The tree of an expression is within the leaves that its tokens give. -/
theorem Expression.within {rank : Rank} {tokens : List Token} {tree : Expr}
    (expression : Expression rank tokens tree) : AllGive among tokens → tree.node.Within among := by
  induction expression with
  | assign isName _ _ ih =>
    intro allGive
    obtain ⟨gives, -, rest⟩ : _ ∧ _ ∧ _ := by simpa using allGive
    exact ⟨gives.keeps isName (by decide) _, ih rest⟩
  | operation _ ih => exact ih
  | chain rule _ joints _ ih others =>
    intro allGive
    obtain ⟨inside, rest⟩ := allGive_append.mp allGive
    exact rule.within joints others rest (ih inside)
  | prefixed isOperator _ ih =>
    intro allGive
    obtain ⟨gives, rest⟩ := allGive_cons.mp allGive
    refine ⟨gives.keeps rfl ?_ _, ih rest⟩
    obtain isKind | isKind := isOperator <;> rw [isKind] <;> decide
  | unprefixed _ ih => exact ih
  | uncalled _ ih => exact ih
  | callEmpty _ _ isClosing ih =>
    intro allGive
    obtain ⟨inside, -, gives, -⟩ : _ ∧ _ ∧ _ ∧ _ := by simpa using allGive
    exact ⟨ih inside, gives.keeps isClosing (by decide) _, trivial⟩
  | callWith _ _ _ _ _ isClosing ih first others =>
    intro allGive
    obtain ⟨inside, -, isFirst, areOthers, gives, -⟩ : _ ∧ _ ∧ _ ∧ _ ∧ _ ∧ _ := by
      simpa using allGive
    exact ⟨ih inside, gives.keeps isClosing (by decide) _, first isFirst,
      areWithin_arguments others areOthers⟩
  | literal isLiteral => exact fun allGive => (allGive_cons.mp allGive).1.literal _ isLiteral
  | named isName => exact fun allGive => (allGive_cons.mp allGive).1.keeps isName (by decide) _
  | grouping _ _ _ ih =>
    intro allGive
    obtain ⟨-, inside, -⟩ : _ ∧ _ ∧ _ := by simpa using allGive
    exact ih inside

/-- An optional expression is within the leaves that its tokens give. -/
theorem OptionalExpression.within {tokens : List Token} {value : Option Expr}
    (expression : OptionalExpression tokens value) (allGive : AllGive among tokens) :
    ∀ found ∈ value, found.node.Within among := by
  cases expression with
  | absent => exact fun _ => nofun
  | present isValue =>
    rintro found ⟨⟩
    exact isValue.within allGive

/-- The names of parameters are given by their phrase. -/
theorem Parameters.within {tokens parameters : List Token}
    (areParameters : Parameters tokens parameters) (allGive : AllGive among tokens) :
    ∀ parameter ∈ parameters, among (.token .parameter parameter) := by
  cases areParameters with
  | absent => exact List.forall_mem_nil _
  | @present first others isName _ names =>
    obtain ⟨gives, rest⟩ := allGive_cons.mp allGive
    refine List.forall_mem_cons.mpr ⟨gives.keeps isName (by decide) _, List.forall_mem_map.mpr ?_⟩
    intro link isLink
    obtain ⟨isName, spelled⟩ := names link isLink
    have inside : link.tree ∈ linked others :=
      List.mem_flatMap.mpr ⟨link, isLink, by simp [spelled]⟩
    exact (rest _ inside).keeps isName (by decide) _

/-- A declaration of a variable is within the leaves that its tokens give. -/
theorem Variable.within {tokens : List Token} {name : Token} {initializer : Option Expr}
    (declaration : Variable tokens name initializer) (allGive : AllGive among tokens) :
    (Node.var name (Expr.optionalNode initializer)).Within among := by
  cases declaration with
  | plain _ isName _ =>
    obtain ⟨-, gives, -⟩ : _ ∧ _ ∧ _ := by simpa using allGive
    exact ⟨gives.keeps isName (by decide) _, trivial⟩
  | initialized _ isName _ isValue _ =>
    obtain ⟨-, gives, -, inside, -⟩ : _ ∧ _ ∧ _ ∧ _ ∧ _ := by simpa using allGive
    exact ⟨gives.keeps isName (by decide) _, isValue.within inside⟩

/-- The first clause of a loop is within the leaves that its tokens give. -/
theorem FirstClause.within {tokens : List Token} {start : Option LoopStart}
    (clause : FirstClause tokens start) (allGive : AllGive among tokens) :
    ∀ first ∈ start, first.node.Within among := by
  cases clause with
  | absent => exact fun _ => nofun
  | var declaration =>
    rintro first ⟨⟩
    exact declaration.within allGive
  | expression isValue _ =>
    rintro first ⟨⟩
    have inside := (allGive_append.mp allGive).1
    exact isValue.within inside

/-- Statements one after another are within the leaves. -/
theorem areWithin_statements {phrases : List (Phrase Stmt)}
    (statements : ∀ phrase ∈ phrases, AllGive among phrase.tokens → phrase.tree.node.Within among)
    (allGive : AllGive among (spelled phrases)) :
    AreWithin among (Stmt.nodes (phrases.map Phrase.tree)) := by
  induction phrases with
  | nil => trivial
  | cons phrase phrases ih =>
    rw [List.forall_mem_cons] at statements
    obtain ⟨inside, rest⟩ := allGive_spelled_cons.mp allGive
    exact ⟨statements.1 inside, ih statements.2 rest⟩

/-- A loop with clauses is within the leaves if its parts are, and a condition that always holds. -/
theorem within_loopNode (always : among (.literal (.bool true))) {start : Option LoopStart}
    {condition increment : Option Expr} {body : Node}
    (isStart : ∀ first ∈ start, first.node.Within among)
    (isCondition : ∀ found ∈ condition, found.node.Within among)
    (isIncrement : ∀ found ∈ increment, found.node.Within among) (isBody : body.Within among) :
    (loopNode start condition increment body).Within among := by
  cases start <;> cases condition <;> cases increment <;>
    simp_all [loopNode, Within, AreWithin]

/-- The tree of a statement is within the leaves that its tokens give. -/
theorem Statement.within (always : among (.literal (.bool true))) {position : Position}
    {tokens : List Token} {tree : Stmt} (statement : Statement position tokens tree) :
    AllGive among tokens → tree.node.Within among := by
  induction statement with
  | function _ isName _ parameters _ _ _ _ ih =>
    intro allGive
    obtain ⟨-, gives, -, names, -, -, inside, -⟩ : _ ∧ _ ∧ _ ∧ _ ∧ _ ∧ _ ∧ _ ∧ _ := by
      simpa using allGive
    exact ⟨gives.keeps isName (by decide) _, parameters.within names, areWithin_statements ih inside⟩
  | var declaration => exact declaration.within
  | plain _ ih => exact ih
  | expression isValue _ =>
    intro allGive
    have inside := (allGive_append.mp allGive).1
    exact isValue.within inside
  | forLoop _ _ start condition _ increment _ _ ih =>
    intro allGive
    obtain ⟨-, -, first, test, -, last, -, inside⟩ : _ ∧ _ ∧ _ ∧ _ ∧ _ ∧ _ ∧ _ ∧ _ := by
      simpa using allGive
    exact within_loopNode always (start.within first) (condition.within test) (increment.within last)
      (ih inside)
  | ifThen _ _ condition _ _ ih =>
    intro allGive
    obtain ⟨-, -, test, -, inside⟩ : _ ∧ _ ∧ _ ∧ _ ∧ _ := by simpa using allGive
    exact ⟨condition.within test, ih inside, trivial⟩
  | ifElse _ _ condition _ _ _ _ thenIh elseIh =>
    intro allGive
    obtain ⟨-, -, test, -, isThen, -, isElse⟩ : _ ∧ _ ∧ _ ∧ _ ∧ _ ∧ _ ∧ _ := by simpa using allGive
    exact ⟨condition.within test, thenIh isThen, elseIh isElse⟩
  | print _ isValue _ =>
    intro allGive
    obtain ⟨-, inside, -⟩ : _ ∧ _ ∧ _ := by simpa using allGive
    exact isValue.within inside
  | whileLoop _ _ condition _ _ ih =>
    intro allGive
    obtain ⟨-, -, test, -, inside⟩ : _ ∧ _ ∧ _ ∧ _ ∧ _ := by simpa using allGive
    exact ⟨condition.within test, ih inside⟩
  | block _ _ _ ih =>
    intro allGive
    obtain ⟨-, inside, -⟩ : _ ∧ _ ∧ _ := by simpa using allGive
    exact areWithin_statements ih inside

/-- The tree of a program is within the leaves that its tokens give. -/
theorem IsProgram.within (always : among (.literal (.bool true))) {tokens : List Token}
    {program : List Stmt} (isProgram : IsProgram tokens program) (allGive : AllGive among tokens) :
    AreWithin among (Stmt.nodes program) := by
  obtain ⟨items, declarations, rfl, rfl⟩ := isProgram
  exact areWithin_statements (fun item isItem => (declarations item isItem).within always) allGive

/-- Where the leaves of a tree come from: a token that may be kept, a token that writes the literal, or
the condition of a loop that has none. -/
def Origin (tokens : List Token) : Leaf → Prop
  | .token _ found => found ∈ kept tokens
  | .literal value => value = .bool true ∨ ∃ token ∈ tokens, IsLiteral token value

/-- The leaves of the tree of a program come from its tokens. -/
theorem IsProgram.origin {tokens : List Token} {program : List Stmt}
    (isProgram : IsProgram tokens program) :
    ∀ leaf ∈ leavesOfList (Stmt.nodes program), Origin tokens leaf := by
  refine (areWithin_iff_leaves _).mp (isProgram.within (.inl rfl) fun token isToken => ?_)
  exact ⟨fun mayKeep _ => mem_kept.mpr ⟨isToken, mayKeep⟩,
    fun value isLiteral => .inr ⟨token, isToken, isLiteral⟩⟩

/-- The tree of a program keeps tokens of the program. -/
theorem IsProgram.tokens_subset {tokens : List Token} {program : List Stmt}
    (isProgram : IsProgram tokens program) :
    Node.tokensOfList (Stmt.nodes program) ⊆ kept tokens := by
  intro token isToken
  rw [tokensOfList_eq_leaves] at isToken
  obtain ⟨leaf, isLeaf, isFound⟩ := List.mem_filterMap.mp isToken
  have origin := isProgram.origin leaf isLeaf
  cases leaf with
  | token role found =>
    obtain rfl := Option.some.inj isFound
    exact origin
  | literal value => cases isFound

end Lox.Grammar
