import Lox.Proofs.Node.Matching

/-!
# The leaves of program trees

At the ends of a tree stand tokens, each of which is kept for something, and literals. A tree is within
some leaves when all of its own are among them.

Its tokens and its string literals are leaves of the tree, so what is known of leaves is known of them.
-/

namespace Lox

/-- What stands at the end of a tree. -/
inductive Leaf where
  | token (role : Role) (token : Token)
  | literal (value : Literal)

namespace Leaf

/-- The token of a leaf. -/
def token? : Leaf → Option Token
  | .token _ found => some found
  | .literal _ => none

/-- The text of a leaf that is a string literal. -/
def string? : Leaf → Option Text
  | .literal (.text content) => some content
  | _ => none

end Leaf

namespace Node

mutual

/-- The leaves of a node. -/
def leaves : Node → List Leaf
  | .null => []
  | .list items => leavesOfList items
  | .block statements => leavesOfList statements
  | .expression value | .print value | .grouping value => value.leaves
  | .function name parameters body =>
    .token .declared name :: parameters.map (.token .parameter) ++ leavesOfList body
  | .conditional condition thenBranch elseBranch =>
    condition.leaves ++ thenBranch.leaves ++ elseBranch.leaves
  | .var name initializer => .token .declared name :: initializer.leaves
  | .loop condition body => condition.leaves ++ body.leaves
  | .assign name value => .token .assigned name :: value.leaves
  | .binary left operator right | .logical left operator right =>
    left.leaves ++ .token .operator operator :: right.leaves
  | .call callee paren arguments =>
    callee.leaves ++ .token .closing paren :: leavesOfList arguments
  | .literal value => [.literal value]
  | .unary operator operand => .token .operator operator :: operand.leaves
  | .variable name => [.token .read name]

/-- The leaves of some nodes. -/
def leavesOfList : List Node → List Leaf
  | [] => []
  | first :: rest => first.leaves ++ leavesOfList rest

end

mutual

/-- All leaves of a node are among some. -/
def Within (among : Leaf → Prop) : Node → Prop
  | .null => True
  | .list items => AreWithin among items
  | .block statements => AreWithin among statements
  | .expression value | .print value | .grouping value => value.Within among
  | .function name parameters body =>
    among (.token .declared name) ∧ (∀ parameter ∈ parameters, among (.token .parameter parameter)) ∧
      AreWithin among body
  | .conditional condition thenBranch elseBranch =>
    condition.Within among ∧ thenBranch.Within among ∧ elseBranch.Within among
  | .var name initializer => among (.token .declared name) ∧ initializer.Within among
  | .loop condition body => condition.Within among ∧ body.Within among
  | .assign name value => among (.token .assigned name) ∧ value.Within among
  | .binary left operator right | .logical left operator right =>
    left.Within among ∧ among (.token .operator operator) ∧ right.Within among
  | .call callee paren arguments =>
    callee.Within among ∧ among (.token .closing paren) ∧ AreWithin among arguments
  | .literal value => among (.literal value)
  | .unary operator operand => among (.token .operator operator) ∧ operand.Within among
  | .variable name => among (.token .read name)

/-- All leaves of some nodes are among some. -/
def AreWithin (among : Leaf → Prop) : List Node → Prop
  | [] => True
  | first :: rest => first.Within among ∧ AreWithin among rest

end

variable {among : Leaf → Prop}

/-- Some nodes are within leaves when each of them is. -/
theorem areWithin_iff (nodes : List Node) : AreWithin among nodes ↔ ∀ node ∈ nodes, node.Within among := by
  induction nodes with
  | nil => simp [AreWithin]
  | cons first rest ih => rw [AreWithin, ih, List.forall_mem_cons]

section

attribute [local simp] Within AreWithin leaves leavesOfList tokens tokensOfList strings stringsOfList
  Leaf.token? Leaf.string? List.filterMap_cons or_imp forall_and

mutual

/-- A node is within the leaves that its own are among. -/
theorem within_iff : (node : Node) → (node.Within among ↔ ∀ leaf ∈ node.leaves, among leaf)
  | .null => by simp
  | .list items | .block items => by simp [areWithin_iff_leaves items]
  | .expression value | .print value | .grouping value => by simp [within_iff value]
  | .function _ _ body => by simp [areWithin_iff_leaves body]
  | .conditional condition thenBranch elseBranch => by
    simp [within_iff condition, within_iff thenBranch, within_iff elseBranch]
  | .var _ value | .assign _ value => by simp [within_iff value]
  | .loop condition body => by simp [within_iff condition, within_iff body]
  | .binary left _ right | .logical left _ right => by simp [within_iff left, within_iff right]
  | .call callee _ arguments => by simp [within_iff callee, areWithin_iff_leaves arguments]
  | .literal _ => by simp
  | .unary _ operand => by simp [within_iff operand]
  | .variable _ => by simp

/-- Some nodes are within the leaves that their own are among. -/
theorem areWithin_iff_leaves : (nodes : List Node) →
    (AreWithin among nodes ↔ ∀ leaf ∈ leavesOfList nodes, among leaf)
  | [] => by simp
  | first :: rest => by simp [within_iff first, areWithin_iff_leaves rest]

end

mutual

/-- The tokens of a node are those of its leaves. -/
theorem tokens_eq_leaves : (node : Node) → node.tokens = node.leaves.filterMap Leaf.token?
  | .null | .literal _ | .variable _ => rfl
  | .list items | .block items => by simp [tokensOfList_eq_leaves items]
  | .expression value | .print value | .grouping value => by simp [tokens_eq_leaves value]
  | .function _ _ body => by simp [tokensOfList_eq_leaves body, Function.comp_def]
  | .conditional condition thenBranch elseBranch => by
    simp [tokens_eq_leaves condition, tokens_eq_leaves thenBranch, tokens_eq_leaves elseBranch]
  | .var _ value | .assign _ value => by simp [tokens_eq_leaves value]
  | .loop condition body => by simp [tokens_eq_leaves condition, tokens_eq_leaves body]
  | .binary left _ right | .logical left _ right => by
    simp [tokens_eq_leaves left, tokens_eq_leaves right]
  | .call callee _ arguments => by simp [tokens_eq_leaves callee, tokensOfList_eq_leaves arguments]
  | .unary _ operand => by simp [tokens_eq_leaves operand]

/-- The tokens of some nodes are those of their leaves. -/
theorem tokensOfList_eq_leaves : (nodes : List Node) →
    tokensOfList nodes = (leavesOfList nodes).filterMap Leaf.token?
  | [] => rfl
  | first :: rest => by simp [tokens_eq_leaves first, tokensOfList_eq_leaves rest]

end

mutual

/-- The string literals of a node are those of its leaves. -/
theorem strings_eq_leaves : (node : Node) → node.strings = node.leaves.filterMap Leaf.string?
  | .null | .variable _ => rfl
  | .literal value => by cases value <;> rfl
  | .list items | .block items => by simp [stringsOfList_eq_leaves items]
  | .expression value | .print value | .grouping value => by simp [strings_eq_leaves value]
  | .function _ _ body => by simp [stringsOfList_eq_leaves body]
  | .conditional condition thenBranch elseBranch => by
    simp [strings_eq_leaves condition, strings_eq_leaves thenBranch, strings_eq_leaves elseBranch]
  | .var _ value | .assign _ value => by simp [strings_eq_leaves value]
  | .loop condition body => by simp [strings_eq_leaves condition, strings_eq_leaves body]
  | .binary left _ right | .logical left _ right => by
    simp [strings_eq_leaves left, strings_eq_leaves right]
  | .call callee _ arguments => by
    simp [strings_eq_leaves callee, stringsOfList_eq_leaves arguments]
  | .unary _ operand => by simp [strings_eq_leaves operand]

/-- The string literals of some nodes are those of their leaves. -/
theorem stringsOfList_eq_leaves : (nodes : List Node) →
    stringsOfList nodes = (leavesOfList nodes).filterMap Leaf.string?
  | [] => rfl
  | first :: rest => by simp [strings_eq_leaves first, stringsOfList_eq_leaves rest]

end

end

end Node

end Lox
