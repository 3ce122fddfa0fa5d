import Lox.Proofs.Grammar.Derivation

/-!
# Alternatives belong to the nearest condition

The grammar lets an alternative behind nested conditionals belong to any of them. A tree is
settled when each of its alternatives belongs to the nearest conditional that can take it, which
means that what stands before an alternative does not end in an open conditional.

Every tree of a statement can be settled without a change to its tokens: an alternative moves
inwards to the last open conditional of the branch before it.
-/

namespace Lox.Source.Stmt

open Lox.Grammar

/-- Whether a statement ends in a conditional that could still take an alternative. -/
def isOpen : Stmt → Bool
  | .ifThen _ _ => true
  | .ifElse _ _ elseBranch => elseBranch.isOpen
  | .whileLoop _ body => body.isOpen
  | .forLoop _ _ _ body => body.isOpen
  | _ => false

mutual

/-- Every alternative in a statement belongs to the nearest conditional that can take it. -/
def NearestElse : Stmt → Prop
  | .function _ _ body => NearestElseAll body
  | .block body => NearestElseAll body
  | .ifThen _ thenBranch => thenBranch.NearestElse
  | .ifElse _ thenBranch elseBranch =>
    thenBranch.isOpen = false ∧ thenBranch.NearestElse ∧ elseBranch.NearestElse
  | .whileLoop _ body => body.NearestElse
  | .forLoop _ _ _ body => body.NearestElse
  | _ => True

/-- Every alternative in some statements belongs to the nearest conditional that can take it. -/
def NearestElseAll : List Stmt → Prop
  | [] => True
  | first :: rest => first.NearestElse ∧ NearestElseAll rest

end

/-- A list of statements is settled when each of them is. -/
theorem nearestElseAll_iff (statements : List Stmt) :
    NearestElseAll statements ↔ ∀ statement ∈ statements, statement.NearestElse := by
  induction statements with
  | nil => simp [NearestElseAll]
  | cons first rest ih => simp [NearestElseAll, ih]

/-- The statement with an alternative for the last of its open conditionals. -/
def attach : (tree alternative : Stmt) → Stmt
  | .ifThen condition thenBranch, alternative =>
    if thenBranch.isOpen then .ifThen condition (thenBranch.attach alternative)
    else .ifElse condition thenBranch alternative
  | .ifElse condition thenBranch elseBranch, alternative =>
    .ifElse condition thenBranch (elseBranch.attach alternative)
  | .whileLoop condition body, alternative => .whileLoop condition (body.attach alternative)
  | .forLoop start condition increment body, alternative =>
    .forLoop start condition increment (body.attach alternative)
  | other, _ => other

mutual

/-- The tree of the same tokens in which every alternative belongs to the nearest conditional
that can take it. -/
def settled : Stmt → Stmt
  | .function name parameters body => .function name parameters (settledAll body)
  | .block body => .block (settledAll body)
  | .ifThen condition thenBranch => .ifThen condition thenBranch.settled
  | .ifElse condition thenBranch elseBranch =>
    (Stmt.ifThen condition thenBranch.settled).attach elseBranch.settled
  | .whileLoop condition body => .whileLoop condition body.settled
  | .forLoop start condition increment body => .forLoop start condition increment body.settled
  | other => other

/-- The settled trees of some statements. -/
def settledAll : List Stmt → List Stmt
  | [] => []
  | first :: rest => first.settled :: settledAll rest

end

/-- Settling some statements settles each of them. -/
theorem settledAll_eq_map (statements : List Stmt) :
    settledAll statements = statements.map settled := by
  induction statements with
  | nil => rfl
  | cons first rest ih => simp [settledAll, ih]

/-- An alternative for an open conditional of a settled statement leaves it settled. -/
theorem nearestElse_attach {alternative tree : Stmt} (settledTree : tree.NearestElse)
    (settledAlternative : alternative.NearestElse) (isOpen : tree.isOpen = true) :
    (tree.attach alternative).NearestElse := by
  fun_induction attach tree alternative with
  | case1 condition thenBranch alternative thenOpen ih =>
    exact ih settledTree settledAlternative thenOpen
  | case2 condition thenBranch alternative thenClosed =>
    exact ⟨by simpa using thenClosed, settledTree, settledAlternative⟩
  | case3 condition thenBranch elseBranch alternative ih =>
    exact ⟨settledTree.1, settledTree.2.1, ih settledTree.2.2 settledAlternative isOpen⟩
  | case4 condition body alternative ih => exact ih settledTree settledAlternative isOpen
  | case5 start condition increment body alternative ih =>
    exact ih settledTree settledAlternative isOpen
  | case6 => exact settledTree

mutual

/-- A settled statement has its alternatives at the nearest conditionals. -/
theorem nearestElse_settled : (tree : Stmt) → tree.settled.NearestElse
  | .expression _ => trivial
  | .print _ => trivial
  | .var _ _ => trivial
  | .function _ _ body => nearestElseAll_settledAll body
  | .block body => nearestElseAll_settledAll body
  | .ifThen _ thenBranch => nearestElse_settled thenBranch
  | .ifElse _ thenBranch elseBranch =>
    nearestElse_attach (nearestElse_settled thenBranch) (nearestElse_settled elseBranch) rfl
  | .whileLoop _ body => nearestElse_settled body
  | .forLoop _ _ _ body => nearestElse_settled body

/-- Settled statements have their alternatives at the nearest conditionals. -/
theorem nearestElseAll_settledAll : (trees : List Stmt) → NearestElseAll (settledAll trees)
  | [] => trivial
  | first :: rest => ⟨nearestElse_settled first, nearestElseAll_settledAll rest⟩

end

end Lox.Source.Stmt

namespace Lox.Grammar

open Source

/-- An alternative behind a statement with an open conditional makes a statement again. -/
theorem Statement.attach {position : Position} {tokens elseTokens : List Token}
    {tree alternative : Stmt} {word : Token} (statement : Statement position tokens tree)
    (isOpen : tree.isOpen = true) (isElse : word.kind = .elseWord)
    (branch : Statement .body elseTokens alternative) :
    Statement position (tokens ++ word :: elseTokens) (tree.attach alternative) := by
  induction statement with
  | function => simp [Stmt.isOpen] at isOpen
  | var => simp [Stmt.isOpen] at isOpen
  | plain _ ih => exact .plain (ih isOpen)
  | expression => simp [Stmt.isOpen] at isOpen
  | forLoop keyword opening start condition semicolon increment closing _ ih =>
    simpa [Stmt.attach] using
      Statement.forLoop keyword opening start condition semicolon increment closing (ih isOpen)
  | @ifThen _ _ _ _ _ _ thenBranch keyword opening condition closing thenStatement ih =>
    by_cases thenOpen : thenBranch.isOpen = true
    · simpa [Stmt.attach, thenOpen] using
        Statement.ifThen keyword opening condition closing (ih thenOpen)
    · simpa [Stmt.attach, thenOpen] using
        Statement.ifElse keyword opening condition closing thenStatement isElse branch
  | ifElse keyword opening condition closing thenStatement word _ _ ih =>
    simpa [Stmt.attach] using
      Statement.ifElse keyword opening condition closing thenStatement word (ih isOpen)
  | print => simp [Stmt.isOpen] at isOpen
  | whileLoop keyword opening condition closing _ ih =>
    simpa [Stmt.attach] using Statement.whileLoop keyword opening condition closing (ih isOpen)
  | block => simp [Stmt.isOpen] at isOpen

/-- A phrase with its tree settled. -/
def Phrase.settled (phrase : Phrase Stmt) : Phrase Stmt :=
  ⟨phrase.tokens, phrase.tree.settled⟩

/-- Settling the trees of phrases keeps their tokens. -/
theorem spelled_settled (phrases : List (Phrase Stmt)) :
    spelled (phrases.map Phrase.settled) = spelled phrases := by
  simp [spelled, List.flatMap_map, Phrase.settled]

/-- The trees of settled phrases are the settled trees. -/
theorem map_tree_settled (phrases : List (Phrase Stmt)) :
    (phrases.map Phrase.settled).map Phrase.tree = Stmt.settledAll (phrases.map Phrase.tree) := by
  simp [Stmt.settledAll_eq_map, Phrase.settled]

/-- A statement keeps its tokens when its tree is settled. -/
theorem Statement.settled {position : Position} {tokens : List Token} {tree : Stmt}
    (statement : Statement position tokens tree) : Statement position tokens tree.settled := by
  induction statement with
  | @function _ _ _ _ _ _ _ _ body keyword name opening parameters closing brace _ last ih =>
    have declarations : ∀ phrase ∈ body.map Phrase.settled,
        Statement .declaration phrase.tokens phrase.tree := by
      simpa [Phrase.settled] using ih
    have whole :=
      Statement.function keyword name opening parameters closing brace declarations last
    rw [spelled_settled, map_tree_settled] at whole
    exact whole
  | var declaration => exact .var declaration
  | plain _ ih => exact .plain ih
  | expression value semicolon => exact .expression value semicolon
  | forLoop keyword opening start condition semicolon increment closing _ ih =>
    exact .forLoop keyword opening start condition semicolon increment closing ih
  | ifThen keyword opening condition closing _ ih =>
    exact .ifThen keyword opening condition closing ih
  | ifElse keyword opening condition closing _ word _ thenIh elseIh =>
    simpa [Stmt.settled] using
      (Statement.ifThen keyword opening condition closing thenIh).attach rfl word elseIh
  | print keyword value semicolon => exact .print keyword value semicolon
  | whileLoop keyword opening condition closing _ ih =>
    exact .whileLoop keyword opening condition closing ih
  | @block _ _ body opening _ closing ih =>
    have declarations : ∀ phrase ∈ body.map Phrase.settled,
        Statement .declaration phrase.tokens phrase.tree := by
      simpa [Phrase.settled] using ih
    have whole := Statement.block opening declarations closing
    rw [spelled_settled, map_tree_settled] at whole
    exact whole

/-- A program keeps its tokens when its tree is settled. -/
theorem IsProgram.settled {tokens : List Token} {program : List Stmt}
    (isProgram : IsProgram tokens program) : IsProgram tokens (Stmt.settledAll program) := by
  obtain ⟨items, areDeclarations, rfl, rfl⟩ := isProgram
  refine ⟨items.map Phrase.settled, ?_, (spelled_settled items).symm, (map_tree_settled items).symm⟩
  intro item member
  obtain ⟨original, originalMember, rfl⟩ := List.mem_map.mp member
  exact (areDeclarations original originalMember).settled

end Lox.Grammar
