import Lox.Source.Desugar

/-!
# Loops without clauses

A loop with clauses stands for a plain loop: the last clause ends each round, a condition that is
absent always holds, and the first clause comes before the loop in a block of its own. Here this
is said of source trees, and the program of a tree is that of the tree written without clauses.
-/

namespace Lox.Source

/-- The statement that a first clause is. -/
def LoopStart.statement : LoopStart → Stmt
  | .var name initializer => .var name initializer
  | .expression value => .expression value

/-- A round of a loop with its last clause. -/
def roundWith (increment : Option Expr) (body : Stmt) : Stmt :=
  match increment with
  | none => body
  | some value => .block [body, .expression value]

/-- A loop behind its first clause. -/
def loopBehind (start : Option LoopStart) (loop : Stmt) : Stmt :=
  match start with
  | none => loop
  | some first => .block [first.statement, loop]

mutual

/-- The statement written without clauses. -/
def Stmt.unrolled : Stmt → Stmt
  | .function name parameters body => .function name parameters (Stmt.unrolledAll body)
  | .block body => .block (Stmt.unrolledAll body)
  | .ifThen condition thenBranch => .ifThen condition thenBranch.unrolled
  | .ifElse condition thenBranch elseBranch =>
    .ifElse condition thenBranch.unrolled elseBranch.unrolled
  | .whileLoop condition body => .whileLoop condition body.unrolled
  | .forLoop start condition increment body =>
    loopBehind start
      (.whileLoop (condition.getD (.literal (.bool true))) (roundWith increment body.unrolled))
  | other => other

/-- Some statements written without clauses. -/
def Stmt.unrolledAll : List Stmt → List Stmt
  | [] => []
  | first :: rest => first.unrolled :: Stmt.unrolledAll rest

end

mutual

/-- There is no loop with clauses in a statement. -/
def Stmt.Plain : Stmt → Prop
  | .forLoop _ _ _ _ => False
  | .function _ _ body => Stmt.PlainAll body
  | .block body => Stmt.PlainAll body
  | .ifThen _ thenBranch => thenBranch.Plain
  | .ifElse _ thenBranch elseBranch => thenBranch.Plain ∧ elseBranch.Plain
  | .whileLoop _ body => body.Plain
  | _ => True

/-- There is no loop with clauses in some statements. -/
def Stmt.PlainAll : List Stmt → Prop
  | [] => True
  | first :: rest => first.Plain ∧ Stmt.PlainAll rest

end

/-- A loop behind its first clause is plain when the loop is. -/
theorem plain_loopBehind (start : Option LoopStart) {loop : Stmt} (plain : loop.Plain) :
    (loopBehind start loop).Plain := by
  match start with
  | none => exact plain
  | some (.var _ _) => exact ⟨trivial, plain, trivial⟩
  | some (.expression _) => exact ⟨trivial, plain, trivial⟩

/-- A round is plain when its body is. -/
theorem plain_roundWith (increment : Option Expr) {body : Stmt} (plain : body.Plain) :
    (roundWith increment body).Plain := by
  cases increment with
  | none => exact plain
  | some _ => exact ⟨plain, trivial, trivial⟩

mutual

/-- No clauses are left. -/
theorem Stmt.plain_unrolled : (tree : Stmt) → tree.unrolled.Plain
  | .expression _ => trivial
  | .print _ => trivial
  | .var _ _ => trivial
  | .function _ _ body => Stmt.plainAll_unrolledAll body
  | .block body => Stmt.plainAll_unrolledAll body
  | .ifThen _ thenBranch => Stmt.plain_unrolled thenBranch
  | .ifElse _ thenBranch elseBranch =>
    ⟨Stmt.plain_unrolled thenBranch, Stmt.plain_unrolled elseBranch⟩
  | .whileLoop _ body => Stmt.plain_unrolled body
  | .forLoop start _ increment body =>
    plain_loopBehind start (plain_roundWith increment (Stmt.plain_unrolled body))

/-- No clauses are left in some statements. -/
theorem Stmt.plainAll_unrolledAll : (trees : List Stmt) → Stmt.PlainAll (Stmt.unrolledAll trees)
  | [] => trivial
  | first :: rest => ⟨Stmt.plain_unrolled first, Stmt.plainAll_unrolledAll rest⟩

end

/-- The node of a loop with clauses is that of the plain loop that it stands for. -/
theorem loopNode_eq (start : Option LoopStart) (condition increment : Option Expr) (body : Stmt) :
    loopNode start condition increment body.node =
      (loopBehind start (.whileLoop (condition.getD (.literal (.bool true)))
        (roundWith increment body))).node := by
  rcases start with _ | _ | _ <;> cases condition <;> cases increment <;> rfl

mutual

/-- Writing a statement without clauses keeps its node. -/
theorem Stmt.node_unrolled : (tree : Stmt) → tree.unrolled.node = tree.node
  | .expression _ => rfl
  | .print _ => rfl
  | .var _ _ => rfl
  | .function _ _ body => by simp only [Stmt.unrolled, Stmt.node, Stmt.nodes_unrolledAll body]
  | .block body => by simp only [Stmt.unrolled, Stmt.node, Stmt.nodes_unrolledAll body]
  | .ifThen _ thenBranch => by simp only [Stmt.unrolled, Stmt.node, Stmt.node_unrolled thenBranch]
  | .ifElse _ thenBranch elseBranch => by
    simp only [Stmt.unrolled, Stmt.node, Stmt.node_unrolled thenBranch,
      Stmt.node_unrolled elseBranch]
  | .whileLoop _ body => by simp only [Stmt.unrolled, Stmt.node, Stmt.node_unrolled body]
  | .forLoop start condition increment body => by
    rw [Stmt.unrolled, Stmt.node, ← Stmt.node_unrolled body, loopNode_eq]

/-- Writing some statements without clauses keeps their nodes. -/
theorem Stmt.nodes_unrolledAll : (trees : List Stmt) →
    Stmt.nodes (Stmt.unrolledAll trees) = Stmt.nodes trees
  | [] => rfl
  | first :: rest => by
    simp only [Stmt.unrolledAll, Stmt.nodes, Stmt.node_unrolled first, Stmt.nodes_unrolledAll rest]

end

end Lox.Source
