import Lox.Proofs.Grammar.Alternative
import Lox.Proofs.Node.Leaves
import Lox.Source.Desugar
import Lox.Source.Limits
import Mathlib.Data.Option.Basic

/-!
# Trees that keep the limits

A tree keeps the limits when no call in it has more than 255 arguments and no function more than
255 parameters. The search for an excess finds none exactly in these trees, and where alternatives
belong makes no difference to it. What it finds in other trees is about the limits, at a parameter or at
a closing parenthesis of the tree.
-/

namespace Lox.Source

mutual

/-- No call in an expression has too many arguments. -/
def Expr.KeepsLimits : Expr → Prop
  | .literal _ | .variable _ => True
  | .grouping inner => inner.KeepsLimits
  | .call callee arguments _ =>
    callee.KeepsLimits ∧ Expr.KeepLimits arguments ∧ arguments.length ≤ 255
  | .unary _ operand => operand.KeepsLimits
  | .binary left _ right | .logical left _ right => left.KeepsLimits ∧ right.KeepsLimits
  | .assign _ value => value.KeepsLimits

/-- No call in some expressions has too many arguments. -/
def Expr.KeepLimits : List Expr → Prop
  | [] => True
  | first :: rest => first.KeepsLimits ∧ Expr.KeepLimits rest

end

/-- No call in the first clause of a loop has too many arguments. -/
def LoopStart.KeepsLimits : LoopStart → Prop
  | .var _ initializer => ∀ value ∈ initializer, value.KeepsLimits
  | .expression value => value.KeepsLimits

mutual

/-- No call in a statement has too many arguments, and no function too many parameters. -/
def Stmt.KeepsLimits : Stmt → Prop
  | .expression value | .print value => value.KeepsLimits
  | .var _ initializer => ∀ value ∈ initializer, value.KeepsLimits
  | .function _ parameters body => parameters.length ≤ 255 ∧ Stmt.KeepLimits body
  | .block body => Stmt.KeepLimits body
  | .ifThen condition thenBranch => condition.KeepsLimits ∧ thenBranch.KeepsLimits
  | .ifElse condition thenBranch elseBranch =>
    condition.KeepsLimits ∧ thenBranch.KeepsLimits ∧ elseBranch.KeepsLimits
  | .whileLoop condition body => condition.KeepsLimits ∧ body.KeepsLimits
  | .forLoop start condition increment body =>
    (∀ first ∈ start, first.KeepsLimits) ∧ (∀ value ∈ condition, value.KeepsLimits) ∧
      (∀ value ∈ increment, value.KeepsLimits) ∧ body.KeepsLimits

/-- No call in some statements has too many arguments, and no function too many parameters. -/
def Stmt.KeepLimits : List Stmt → Prop
  | [] => True
  | first :: rest => first.KeepsLimits ∧ Stmt.KeepLimits rest

end

/-- A call has no excess exactly when it has at most 255 arguments. -/
theorem argumentExcess?_eq_none (arguments : List Expr) (paren : Token) :
    (if maxArguments < arguments.length then some (Diagnostic.tooManyArguments paren)
      else none) = none ↔ arguments.length ≤ 255 := by
  unfold maxArguments
  split
  · next excess => simpa using excess
  · next none => simpa using none

mutual

/-- The search in an expression finds nothing exactly when the expression keeps the limits. -/
theorem Expr.excess?_eq_none : (tree : Expr) → (tree.excess? = none ↔ tree.KeepsLimits)
  | .literal _ => by simp [Expr.excess?, Expr.KeepsLimits]
  | .variable _ => by simp [Expr.excess?, Expr.KeepsLimits]
  | .grouping inner => by
    simpa only [Expr.excess?, Expr.KeepsLimits] using Expr.excess?_eq_none inner
  | .call callee arguments paren => by
    simp only [Expr.excess?, Expr.KeepsLimits, Option.orElse_eq_none,
      Expr.excess?_eq_none callee, Expr.excessOfList?_eq_none arguments,
      argumentExcess?_eq_none arguments paren]
  | .unary _ operand => by
    simpa only [Expr.excess?, Expr.KeepsLimits] using Expr.excess?_eq_none operand
  | .binary left _ right => by
    simp only [Expr.excess?, Expr.KeepsLimits, Option.orElse_eq_none, Expr.excess?_eq_none left,
      Expr.excess?_eq_none right]
  | .logical left _ right => by
    simp only [Expr.excess?, Expr.KeepsLimits, Option.orElse_eq_none, Expr.excess?_eq_none left,
      Expr.excess?_eq_none right]
  | .assign _ value => by
    simpa only [Expr.excess?, Expr.KeepsLimits] using Expr.excess?_eq_none value

/-- The search in some expressions finds nothing exactly when all of them keep the limits. -/
theorem Expr.excessOfList?_eq_none :
    (trees : List Expr) → (Expr.excessOfList? trees = none ↔ Expr.KeepLimits trees)
  | [] => by simp [Expr.excessOfList?, Expr.KeepLimits]
  | first :: rest => by
    simp only [Expr.excessOfList?, Expr.KeepLimits, Option.orElse_eq_none, Expr.excess?_eq_none first,
      Expr.excessOfList?_eq_none rest]

end

/-- The search in an optional expression finds nothing exactly when it keeps the limits. -/
theorem Expr.excessOfOption?_eq_none (value : Option Expr) :
    Expr.excessOfOption? value = none ↔ ∀ tree ∈ value, tree.KeepsLimits := by
  cases value <;> simp [Expr.excessOfOption?, Expr.excess?_eq_none]

/-- The search in a first clause finds nothing exactly when it keeps the limits. -/
theorem LoopStart.excess?_eq_none (start : LoopStart) :
    start.excess? = none ↔ start.KeepsLimits := by
  cases start with
  | var name initializer => exact Expr.excessOfOption?_eq_none initializer
  | expression value => exact Expr.excess?_eq_none value

/-- The search in an optional first clause finds nothing exactly when it keeps the limits. -/
theorem LoopStart.bind_excess?_eq_none (start : Option LoopStart) :
    start.bind LoopStart.excess? = none ↔ ∀ first ∈ start, first.KeepsLimits := by
  cases start <;> simp [LoopStart.excess?_eq_none]

/-- A parameter list has no excess exactly when it has at most 255 parameters. -/
theorem parameterExcess?_eq_none (parameters : List Token) :
    parameterExcess? parameters = none ↔ parameters.length ≤ 255 := by
  unfold parameterExcess? maxArguments
  split
  · next excess =>
    have nonempty : parameters ≠ [] := List.ne_nil_of_length_pos (by omega)
    rw [List.getLast?_eq_some_getLast nonempty]
    simp only [Option.map_some, reduceCtorEq, false_iff]
    omega
  · next none => simp only [true_iff]; omega

mutual

/-- The search in a statement finds nothing exactly when the statement keeps the limits. -/
theorem Stmt.excess?_eq_none : (tree : Stmt) → (tree.excess? = none ↔ tree.KeepsLimits)
  | .expression value => by
    simpa only [Stmt.excess?, Stmt.KeepsLimits] using Expr.excess?_eq_none value
  | .print value => by
    simpa only [Stmt.excess?, Stmt.KeepsLimits] using Expr.excess?_eq_none value
  | .var _ initializer => by
    simpa only [Stmt.excess?, Stmt.KeepsLimits] using Expr.excessOfOption?_eq_none initializer
  | .function _ parameters body => by
    simp only [Stmt.excess?, Stmt.KeepsLimits, Option.orElse_eq_none, parameterExcess?_eq_none,
      Stmt.excessOfList?_eq_none body]
  | .block body => by
    simpa only [Stmt.excess?, Stmt.KeepsLimits] using Stmt.excessOfList?_eq_none body
  | .ifThen condition thenBranch => by
    simp only [Stmt.excess?, Stmt.KeepsLimits, Option.orElse_eq_none, Expr.excess?_eq_none,
      Stmt.excess?_eq_none thenBranch]
  | .ifElse condition thenBranch elseBranch => by
    simp only [Stmt.excess?, Stmt.KeepsLimits, Option.orElse_eq_none, Expr.excess?_eq_none,
      Stmt.excess?_eq_none thenBranch, Stmt.excess?_eq_none elseBranch]
  | .whileLoop condition body => by
    simp only [Stmt.excess?, Stmt.KeepsLimits, Option.orElse_eq_none, Expr.excess?_eq_none,
      Stmt.excess?_eq_none body]
  | .forLoop start condition increment body => by
    simp only [Stmt.excess?, Stmt.KeepsLimits, Option.orElse_eq_none, LoopStart.bind_excess?_eq_none,
      Expr.excessOfOption?_eq_none, Stmt.excess?_eq_none body]

/-- The search in some statements finds nothing exactly when all of them keep the limits. -/
theorem Stmt.excessOfList?_eq_none :
    (trees : List Stmt) → (Stmt.excessOfList? trees = none ↔ Stmt.KeepLimits trees)
  | [] => by simp [Stmt.excessOfList?, Stmt.KeepLimits]
  | first :: rest => by
    simp only [Stmt.excessOfList?, Stmt.KeepLimits, Option.orElse_eq_none, Stmt.excess?_eq_none first,
      Stmt.excessOfList?_eq_none rest]

end

/-- An alternative for an open conditional adds its own calls and functions only. -/
theorem Stmt.keepsLimits_attach {tree alternative : Stmt} (isOpen : tree.isOpen = true) :
    (tree.attach alternative).KeepsLimits ↔ tree.KeepsLimits ∧ alternative.KeepsLimits := by
  fun_induction Stmt.attach tree alternative with
  | case1 condition thenBranch alternative thenOpen ih =>
    simp only [Stmt.KeepsLimits, ih thenOpen, and_assoc]
  | case2 condition thenBranch alternative thenClosed =>
    simp only [Stmt.KeepsLimits, and_assoc]
  | case3 condition thenBranch elseBranch alternative ih =>
    simp only [Stmt.KeepsLimits, ih isOpen, and_assoc]
  | case4 condition body alternative ih => simp only [Stmt.KeepsLimits, ih isOpen, and_assoc]
  | case5 start condition increment body alternative ih =>
    simp only [Stmt.KeepsLimits, ih isOpen, and_assoc]
  | case6 other => simp_all [Stmt.isOpen]

mutual

/-- Settling a statement changes none of its calls and functions. -/
theorem Stmt.keepsLimits_settled :
    (tree : Stmt) → (tree.settled.KeepsLimits ↔ tree.KeepsLimits)
  | .expression _ => Iff.rfl
  | .print _ => Iff.rfl
  | .var _ _ => Iff.rfl
  | .function _ _ body => by
    simp only [Stmt.settled, Stmt.KeepsLimits, Stmt.keepLimits_settledAll body]
  | .block body => by
    simp only [Stmt.settled, Stmt.KeepsLimits, Stmt.keepLimits_settledAll body]
  | .ifThen _ thenBranch => by
    simp only [Stmt.settled, Stmt.KeepsLimits, Stmt.keepsLimits_settled thenBranch]
  | .ifElse condition thenBranch elseBranch => by
    have isOpen : (Stmt.ifThen condition thenBranch.settled).isOpen = true := rfl
    simp only [Stmt.settled, Stmt.keepsLimits_attach isOpen, Stmt.KeepsLimits,
      Stmt.keepsLimits_settled thenBranch, Stmt.keepsLimits_settled elseBranch, and_assoc]
  | .whileLoop _ body => by
    simp only [Stmt.settled, Stmt.KeepsLimits, Stmt.keepsLimits_settled body]
  | .forLoop _ _ _ body => by
    simp only [Stmt.settled, Stmt.KeepsLimits, Stmt.keepsLimits_settled body]

/-- Settling some statements changes none of their calls and functions. -/
theorem Stmt.keepLimits_settledAll :
    (trees : List Stmt) → (Stmt.KeepLimits (Stmt.settledAll trees) ↔ Stmt.KeepLimits trees)
  | [] => Iff.rfl
  | first :: rest => by
    simp only [Stmt.settledAll, Stmt.KeepLimits, Stmt.keepsLimits_settled first,
      Stmt.keepLimits_settledAll rest]

end

/-- A diagnostic is about one of the limits. -/
def IsLimit : Diagnostic → Prop
  | .tooManyParameters _ | .tooManyArguments _ => True
  | _ => False

/-- A diagnostic is about one of the limits, at a parameter or a closing parenthesis among some leaves. -/
def IsLimitAt (among : Leaf → Prop) : Diagnostic → Prop
  | .tooManyParameters last => among (.token .parameter last)
  | .tooManyArguments paren => among (.token .closing paren)
  | _ => False

/-- At whatever leaf it is, such a diagnostic is about one of the limits. -/
theorem IsLimitAt.isLimit {among : Leaf → Prop} {diagnostic : Diagnostic}
    (isLimitAt : IsLimitAt among diagnostic) : IsLimit diagnostic := by
  cases diagnostic with
  | tooManyParameters | tooManyArguments => trivial
  | _ => exact isLimitAt

variable {among : Leaf → Prop}

/-- A choice is about the limits when both of its sides are. -/
theorem isLimitAt_orElse {first second : Option Diagnostic}
    (isFirst : ∀ found ∈ first, IsLimitAt among found)
    (isSecond : ∀ found ∈ second, IsLimitAt among found) :
    ∀ found ∈ (first <|> second), IsLimitAt among found := by
  cases first with
  | none => simpa using isSecond
  | some diagnostic => simpa using isFirst

mutual

/-- The search in an expression finds only limits, at leaves of it. -/
theorem Expr.isLimitAt_excess? : (tree : Expr) → tree.node.Within among →
    ∀ found ∈ tree.excess?, IsLimitAt among found
  | .literal _, _ => by simp [Expr.excess?]
  | .variable _, _ => by simp [Expr.excess?]
  | .grouping inner, within => Expr.isLimitAt_excess? inner within
  | .call callee arguments paren, within => by
    refine isLimitAt_orElse (Expr.isLimitAt_excess? callee within.1)
      (isLimitAt_orElse (Expr.isLimitAt_excessOfList? arguments within.2.2) ?_)
    intro found isFound
    obtain ⟨-, rfl⟩ : _ ∧ Diagnostic.tooManyArguments paren = found := by simpa using isFound
    exact within.2.1
  | .unary _ operand, within => Expr.isLimitAt_excess? operand within.2
  | .binary left _ right, within =>
    isLimitAt_orElse (Expr.isLimitAt_excess? left within.1) (Expr.isLimitAt_excess? right within.2.2)
  | .logical left _ right, within =>
    isLimitAt_orElse (Expr.isLimitAt_excess? left within.1) (Expr.isLimitAt_excess? right within.2.2)
  | .assign _ value, within => Expr.isLimitAt_excess? value within.2

/-- The search in some expressions finds only limits, at leaves of them. -/
theorem Expr.isLimitAt_excessOfList? : (trees : List Expr) → Node.AreWithin among (Expr.nodes trees) →
    ∀ found ∈ Expr.excessOfList? trees, IsLimitAt among found
  | [], _ => by simp [Expr.excessOfList?]
  | first :: rest, within =>
    isLimitAt_orElse (Expr.isLimitAt_excess? first within.1)
      (Expr.isLimitAt_excessOfList? rest within.2)

end

/-- The search in an optional expression finds only limits, at leaves of it. -/
theorem Expr.isLimitAt_excessOfOption? (value : Option Expr)
    (within : ∀ tree ∈ value, tree.node.Within among) :
    ∀ found ∈ Expr.excessOfOption? value, IsLimitAt among found := by
  cases value with
  | none => simp [Expr.excessOfOption?]
  | some tree => exact Expr.isLimitAt_excess? tree (within tree rfl)

/-- An optional expression is there if its node is within some leaves. -/
theorem Expr.within_of_optionalNode {value : Option Expr}
    (within : (Expr.optionalNode value).Within among) : ∀ tree ∈ value, tree.node.Within among := by
  rintro tree ⟨⟩
  exact within

/-- The search in an optional first clause finds only limits, at leaves of it. -/
theorem LoopStart.isLimitAt_excess? (start : Option LoopStart)
    (within : ∀ first ∈ start, first.node.Within among) :
    ∀ found ∈ start.bind LoopStart.excess?, IsLimitAt among found := by
  match start with
  | none => simp
  | some (.var name initializer) =>
    exact Expr.isLimitAt_excessOfOption? initializer (Expr.within_of_optionalNode (within _ rfl).2)
  | some (.expression value) => exact Expr.isLimitAt_excess? value (within _ rfl)

/-- The search in some parameters finds only limits, at one of them. -/
theorem isLimitAt_parameterExcess? (parameters : List Token)
    (within : ∀ parameter ∈ parameters, among (.token .parameter parameter)) :
    ∀ found ∈ parameterExcess? parameters, IsLimitAt among found := by
  intro found isFound
  unfold parameterExcess? at isFound
  split at isFound
  · obtain ⟨last, isLast, rfl⟩ := Option.map_eq_some_iff.mp isFound
    exact within last (List.mem_of_getLast? isLast)
  · cases isFound

/-- The parts of a loop with clauses are within the leaves that the loop is within. -/
theorem within_parts_of_loopNode {start : Option LoopStart} {condition increment : Option Expr}
    {body : Node} (within : (loopNode start condition increment body).Within among) :
    (∀ first ∈ start, first.node.Within among) ∧ (∀ tree ∈ condition, tree.node.Within among) ∧
      (∀ tree ∈ increment, tree.node.Within among) ∧ body.Within among := by
  cases start <;> cases condition <;> cases increment <;>
    simp_all [loopNode, Node.Within, Node.AreWithin]

mutual

/-- The search in a statement finds only limits, at leaves of it. -/
theorem Stmt.isLimitAt_excess? : (tree : Stmt) → tree.node.Within among →
    ∀ found ∈ tree.excess?, IsLimitAt among found
  | .expression value, within => Expr.isLimitAt_excess? value within
  | .print value, within => Expr.isLimitAt_excess? value within
  | .var _ initializer, within =>
    Expr.isLimitAt_excessOfOption? initializer (Expr.within_of_optionalNode within.2)
  | .function _ parameters body, within =>
    isLimitAt_orElse (isLimitAt_parameterExcess? parameters within.2.1)
      (Stmt.isLimitAt_excessOfList? body within.2.2)
  | .block body, within => Stmt.isLimitAt_excessOfList? body within
  | .ifThen condition thenBranch, within =>
    isLimitAt_orElse (Expr.isLimitAt_excess? condition within.1)
      (Stmt.isLimitAt_excess? thenBranch within.2.1)
  | .ifElse condition thenBranch elseBranch, within =>
    isLimitAt_orElse (Expr.isLimitAt_excess? condition within.1)
      (isLimitAt_orElse (Stmt.isLimitAt_excess? thenBranch within.2.1)
        (Stmt.isLimitAt_excess? elseBranch within.2.2))
  | .whileLoop condition body, within =>
    isLimitAt_orElse (Expr.isLimitAt_excess? condition within.1)
      (Stmt.isLimitAt_excess? body within.2)
  | .forLoop start condition increment body, within => by
    obtain ⟨isStart, isCondition, isIncrement, isBody⟩ := within_parts_of_loopNode within
    exact isLimitAt_orElse (LoopStart.isLimitAt_excess? start isStart)
      (isLimitAt_orElse (Expr.isLimitAt_excessOfOption? condition isCondition)
        (isLimitAt_orElse (Expr.isLimitAt_excessOfOption? increment isIncrement)
          (Stmt.isLimitAt_excess? body isBody)))

/-- The search in some statements finds only limits, at leaves of them. -/
theorem Stmt.isLimitAt_excessOfList? : (trees : List Stmt) → Node.AreWithin among (Stmt.nodes trees) →
    ∀ found ∈ Stmt.excessOfList? trees, IsLimitAt among found
  | [], _ => by simp [Stmt.excessOfList?]
  | first :: rest, within =>
    isLimitAt_orElse (Stmt.isLimitAt_excess? first within.1)
      (Stmt.isLimitAt_excessOfList? rest within.2)

end

/-- The search in some statements finds only limits. -/
theorem Stmt.isLimit_excessOfList? (trees : List Stmt) (found : Diagnostic)
    (isFound : found ∈ Stmt.excessOfList? trees) : IsLimit found :=
  have anywhere : Node.AreWithin (fun _ => True) (Stmt.nodes trees) :=
    (Node.areWithin_iff_leaves _).mpr fun _ _ => trivial
  (Stmt.isLimitAt_excessOfList? trees anywhere found isFound).isLimit

end Lox.Source
