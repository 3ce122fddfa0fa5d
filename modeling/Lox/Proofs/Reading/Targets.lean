import Lox.Proofs.Grammar.Tokens
import Lox.Proofs.Reading.Forks

/-!
# Targets of assignments

While an operand is read an equals sign waits for the assignment around it, where a star goes on with the
operand. Every other reader settles the matter: the operand is what the assignment would have for its
target, so the equals sign is taken behind a name and reported for its target behind anything else. The
report of a wrong target tells exactly where a star might stand.

The readers are gone through from the operands up to the declarations of a program.
-/

namespace Lox.Source

open Lox.Grammar Parse

variable {fork : Fork} {bound fuel : Nat} {operand nested : Parse Expr}

/-- The rest of a grouping. -/
theorem parts_groupTail (parts : Parts fork false bound nested) :
    Parts fork false bound
      (do
        let inner ← nested
        let _ ← expect .rightParen
        pure (Expr.grouping inner)) :=
  parts.bind fun inner => (Parts.expect .rightParen (by decide)).bind fun _ =>
    Parts.pure (Expr.grouping inner)

/-- The first token tells whether it is an operand by itself, begins a grouping or begins no operand. -/
theorem primary_cons (nested : Parse Expr) (token : Token) :
    (∃ value, ∀ rest, primary nested (token :: rest) = .ok (value, rest)) ∨
      (∀ rest, primary nested (token :: rest) =
        (do
          let inner ← nested
          let _ ← expect .rightParen
          pure (Expr.grouping inner) : Parse Expr) rest) ∨
      ∀ rest, primary nested (token :: rest) = .error ⟨false, token :: rest⟩ := by
  cases found : Literal.ofToken? token with
  | some value => exact .inl ⟨.literal value, fun rest => by simp only [primary, found]⟩
  | none =>
    by_cases isName : token.kind = .identifier
    · exact .inl ⟨.variable token, fun rest => by simp only [primary, found, if_pos isName]⟩
    · by_cases isOpening : token.kind = .leftParen
      · refine .inr (.inl fun rest => ?_)
        simp only [primary, found, if_neg isName, if_pos isOpening]
        rfl
      · refine .inr (.inr fun rest => ?_)
        simp only [primary, found, if_neg isName, if_neg isOpening]

/-- A token that begins no operand stays where it is. -/
theorem primary_of_not_operandKinds (nested : Parse Expr) {token : Token}
    (noOperand : token.kind ∉ operandKinds) (rest : List Token) :
    primary nested (token :: rest) = .error ⟨false, token :: rest⟩ := by
  have noLiteral : Literal.ofToken? token = none := by
    by_contra isLiteral
    obtain ⟨value, isValue⟩ := Option.ne_none_iff_exists'.mp isLiteral
    exact noOperand ((isLiteral_iff token value).mpr isValue).kind_mem
  have noName : token.kind ≠ .identifier := by
    intro isName
    rw [isName] at noOperand
    exact noOperand (by decide)
  have noOpening : token.kind ≠ .leftParen := by
    intro isOpening
    rw [isOpening] at noOperand
    exact noOperand (by decide)
  simp only [primary, noLiteral, if_neg noName, if_neg noOpening]

/-- A literal, a name or an expression in parentheses. -/
theorem parts_primary (parts : Parts fork false bound nested) :
    Parts fork false (bound + 1) (primary nested) := by
  have tail := parts_groupTail parts
  refine ⟨⟨fun tokens => ?shrinks, fun tokens rest failed => ?reports⟩, fun taken short => ?parts⟩
  case shrinks =>
    cases tokens with
    | nil => exact Nat.le_refl _
    | cons token rest =>
      obtain ⟨value, done⟩ | goesOn | stays := primary_cons nested token
      · rw [done]
        exact Nat.le_succ _
      · rw [goesOn]
        exact (tail.shrinks rest).trans (Nat.le_succ _)
      · rw [stays]
        exact Nat.le_refl _
  case reports =>
    cases tokens with
    | nil => cases failed
    | cons token more =>
      obtain ⟨value, done⟩ | goesOn | stays := primary_cons nested token
      · rw [done] at failed
        cases failed
      · rw [goesOn] at failed
        exact tail.reports more rest failed
      · rw [stays] at failed
        cases failed
  case parts =>
    cases taken with
    | nil =>
      have onEqual := @primary_of_not_operandKinds nested fork.equal
        (by rw [fork.isEqual]; decide) fork.behindEqual
      have onStar := @primary_of_not_operandKinds nested fork.star
        (by rw [fork.isStar]; decide) fork.behindStar
      rw [List.nil_append, List.nil_append, Fork.assigned, Fork.multiplied, onEqual, onStar]
      exact @Parting.failed _ fork false false [] fun _ => rfl
    | cons token behind =>
      rw [List.cons_append, List.cons_append]
      obtain ⟨value, done⟩ | goesOn | stays := primary_cons nested token
      · rw [done, done]
        exact .ended (absurd · Bool.false_ne_true)
      · rw [goesOn, goesOn]
        exact tail.parts behind (Nat.lt_of_succ_lt_succ short)
      · rw [stays, stays]
        exact @Parting.failed _ fork false false (token :: behind) fun _ => rfl

/-- The calls behind a callee. -/
theorem parts_callsRest (parts : Parts fork false bound nested) (fuel : Nat) (callee : Expr) :
    Parts fork false bound (callsRest nested fuel callee) := by
  induction fuel generalizing callee with
  | zero => exact Parts.pure callee
  | succ fuel ih =>
    refine (Parts.accept [.leftParen] (by decide)).bind fun found => ?_
    cases found with
    | none => exact Parts.pure callee
    | some _ =>
      exact ((parts.separated fuel).optionalBefore .rightParen (by decide)).bind fun arguments =>
        (Parts.expect .rightParen (by decide)).bind fun paren =>
          ih (.call callee (arguments.getD []) paren)

/-- A primary expression and its calls. -/
theorem parts_calls (reads : Reads (Expression .assignment) nested)
    (parts : Parts fork false bound nested) (fuel : Nat) :
    Parts fork false (bound + 1) (calls fuel nested) :=
  (parts_primary parts).bind_of_takes ((reads_primary reads).takes fun _ _ => Expression.ne_nil)
    fun callee => parts_callsRest parts fuel callee

/-- Prefix operators and their operand. -/
theorem parts_unary (reads : Reads (Expression .assignment) nested)
    (parts : Parts fork false bound nested) (fuel : Nat) :
    Parts fork false (bound + 1) (unary fuel nested) :=
  (Parts.acceptAll prefixOperators (by decide) (by decide)).bind fun operators =>
    (parts_calls reads parts fuel).bind fun operand =>
      Parts.pure (operators.foldr Expr.unary operand)

/-- No operator of a level is an equals sign, so it is left behind the first operand. -/
theorem chainRest_assigned (level : Level) (operand : Parse Expr) (fuel : Nat) (first : Expr) :
    chainRest level operand fuel first fork.assigned = .ok (first, fork.assigned) := by
  cases fuel with
  | zero => rfl
  | succ fuel =>
    have noEqual : .equal ∉ level.operators := by cases level <;> decide
    have stays : accept level.operators fork.assigned = .ok (none, fork.assigned) :=
      if_neg (by rwa [fork.isEqual])
    rw [chainRest, bind_apply, stays]
    rfl

/-- What follows the first operand of a product goes on with a star. -/
theorem parts_chainRest_product (parts : Parts fork false bound operand) (enough : bound ≤ fuel)
    (first : Expr) : Parts fork true bound (chainRest .product operand fuel first) := by
  induction fuel generalizing bound first with
  | zero =>
    have steady := (@Parts.pure Expr fork bound first).toSteady
    exact ⟨steady, fun taken short => absurd short (by omega)⟩
  | succ fuel ih =>
    let goesOn (operator : Token) : Parse Expr := operand >>= fun right =>
      chainRest .product operand fuel (Level.product.join first operator right)
    have partsBehind (smaller : Nat) (less : smaller ≤ bound) (few : smaller ≤ fuel)
        (operator : Token) : Parts fork true smaller (goesOn operator) :=
      (parts.mono less).bind fun right => ih (parts.mono less) few _
    have steadyBehind (operator : Token) : Steady (goesOn operator) :=
      (partsBehind 0 (Nat.zero_le _) (Nat.zero_le _) operator).toSteady
    have takes {operator : Token} (rest : List Token)
        (isOperator : operator.kind ∈ Level.product.operators) :
        chainRest .product operand (fuel + 1) first (operator :: rest) = goesOn operator rest := by
      have accepted : accept Level.product.operators (operator :: rest) = .ok (some operator, rest) :=
        if_pos isOperator
      rw [chainRest, bind_apply, accepted]
    have stops {token : Token} (rest : List Token)
        (noOperator : token.kind ∉ Level.product.operators) :
        chainRest .product operand (fuel + 1) first (token :: rest) = .ok (first, token :: rest) := by
      have accepted : accept Level.product.operators (token :: rest) = .ok (none, token :: rest) :=
        if_neg noOperator
      rw [chainRest, bind_apply, accepted]
      rfl
    refine ⟨(Steady.accept _).bind fun found => ?_, fun taken short => ?_⟩
    · cases found with
      | none => exact (@Parts.pure Expr fork bound first).toSteady
      | some operator => exact steadyBehind operator
    · cases taken with
      | nil =>
        rw [List.nil_append, chainRest_assigned, List.nil_append, Fork.multiplied,
          takes _ (by rw [fork.isStar]; decide)]
        exact .waiting rfl ((steadyBehind fork.star).shrinks fork.behindStar)
      | cons token behind =>
        rw [List.cons_append, List.cons_append]
        by_cases isOperator : token.kind ∈ Level.product.operators
        · rw [takes _ isOperator, takes _ isOperator]
          rw [List.length_cons] at short
          exact (partsBehind (bound - 1) (by omega) (by omega) token).parts behind (by omega)
        · rw [stops _ isOperator, stops _ isOperator]
          exact @Parting.ended _ fork true first (token :: behind) fun _ => List.cons_ne_nil _ _

/-- A product of operands. -/
theorem parts_product (reads : Reads (Expression .unary) operand)
    (parts : Parts fork false (bound + 1) operand) (enough : bound ≤ fuel) :
    Parts fork true (bound + 1) (chain fuel .product operand) :=
  parts.bind_of_takes (reads.takes fun _ _ => Expression.ne_nil) fun first =>
    parts_chainRest_product (parts.mono (Nat.le_succ _)) enough first

/-- What follows the first operand of a level parts if there is anything of it before the fork. -/
theorem parts_chainRest (level : Level) (parts : Parts fork true bound operand) (fuel : Nat)
    (first : Expr) :
    Steady (chainRest level operand fuel first) ∧
      ∀ taken, taken ≠ [] → taken.length < bound →
        Parting fork true (chainRest level operand fuel first (taken ++ fork.assigned))
          (chainRest level operand fuel first (taken ++ fork.multiplied)) := by
  induction fuel generalizing first with
  | zero =>
    refine ⟨(@Parts.pure Expr fork bound first).toSteady, fun taken isThere _ => ?_⟩
    exact .ended fun _ => isThere
  | succ fuel ih =>
    let goesOn (operator : Token) : Parse Expr := operand >>= fun right =>
      chainRest level operand fuel (level.join first operator right)
    have steadyBehind (operator : Token) : Steady (goesOn operator) :=
      parts.toSteady.bind fun right => (ih _).1
    constructor
    · refine (Steady.accept _).bind fun found => ?_
      cases found with
      | none => exact (@Parts.pure Expr fork bound first).toSteady
      | some operator => exact steadyBehind operator
    · intro taken isThere short
      obtain ⟨token, behind, rfl⟩ := List.exists_cons_of_ne_nil isThere
      rw [List.length_cons] at short
      rw [List.cons_append, List.cons_append, chainRest, bind_apply, bind_apply]
      by_cases isOperator : token.kind ∈ level.operators
      · have accepted (rest : List Token) :
            accept level.operators (token :: rest) = .ok (some token, rest) := if_pos isOperator
        rw [accepted, accepted]
        refine (parts.parts behind (by omega)).bind (fun right => (ih _).1) ?_ ?_
        · intro right others isBehind done
          have shrinks := parts.length_behind_le done
          exact (ih _).2 others (isBehind rfl) (by omega)
        · intro _ right second gone
          rw [chainRest_assigned]
          exact .waiting rfl gone
      · have accepted (rest : List Token) :
            accept level.operators (token :: rest) = .ok (none, token :: rest) := if_neg isOperator
        rw [accepted, accepted]
        exact @Parting.ended _ fork true first (token :: behind) fun _ => List.cons_ne_nil _ _

/-- A chain of a level whose operands are chains. -/
theorem parts_chain (level : Level) (parts : Parts fork true bound operand) (fuel : Nat) :
    Parts fork true bound (chain fuel level operand) := by
  have rest (first : Expr) := parts_chainRest level parts fuel first
  refine ⟨parts.toSteady.bind fun first => (rest first).1, fun taken short => ?_⟩
  refine (parts.parts taken short).bind (fun first => (rest first).1) ?_ ?_
  · intro first behind isBehind done
    have shrinks := parts.length_behind_le done
    exact (rest first).2 behind (isBehind rfl) (by omega)
  · intro _ first second gone
    rw [chainRest_assigned]
    exact .waiting rfl gone

/-- An expression that is no assignment. -/
theorem parts_operation (reads : Reads (Expression .assignment) nested)
    (parts : Parts fork false bound nested) (enough : bound ≤ fuel) :
    Parts fork true (bound + 1) (operation fuel nested) := by
  refine parts_chain .disjunction ?_ fuel
  refine parts_chain .conjunction ?_ fuel
  refine parts_chain .equality ?_ fuel
  refine parts_chain .comparison ?_ fuel
  refine parts_chain .sum ?_ fuel
  exact parts_product (reads_unary reads fuel) (parts_unary reads parts fuel) enough

/-- What follows the target of an assignment, or another expression. -/
def settle (nested : Parse Expr) (target : Expr) : Parse Expr := do
  if (← peek) = some .equal then
    match target with
    | .variable name => do
      let _ ← expect .equal
      let value ← nested
      pure (.assign name value)
    | _ => failTarget
  else pure target

/-- An assignment is a target and what follows it. -/
theorem assignment_eq_bind (fuel : Nat) (nested : Parse Expr) :
    assignment fuel nested = operation fuel nested >>= settle nested :=
  rfl

/-- Behind a name an equals sign is taken, and behind any other target it is reported. -/
theorem settle_equal (nested : Parse Expr) (target : Expr) {equal : Token}
    (isEqual : equal.kind = .equal) :
    (∃ change : Expr → Expr, ∀ rest,
      settle nested target (equal :: rest) = (change <$> nested) rest) ∨
      ∀ rest, settle nested target (equal :: rest) = .error ⟨true, equal :: rest⟩ := by
  have isPeeked (rest : List Token) : (equal :: rest).head?.map Token.kind = some .equal :=
    congrArg some isEqual
  cases target with
  | «variable» name =>
    refine .inl ⟨.assign name, fun rest => ?_⟩
    have taken : expect .equal (equal :: rest) = .ok (equal, rest) := if_pos isEqual
    change (if (equal :: rest).head?.map Token.kind = some .equal then _ else _ : Parse Expr) _ = _
    rw [if_pos (isPeeked rest), bind_apply, taken, map_eq_pure_bind]
  | _ =>
    refine .inr fun rest => ?_
    change (if (equal :: rest).head?.map Token.kind = some .equal then _ else _ : Parse Expr) _ = _
    rw [if_pos (isPeeked rest)]
    rfl

/-- Before anything but an equals sign the target is the expression. -/
theorem settle_other (nested : Parse Expr) (target : Expr) {tokens : List Token}
    (noEqual : Avoids [.equal] tokens) : settle nested target tokens = .ok (target, tokens) := by
  have isPeeked : tokens.head?.map Token.kind ≠ some .equal := by
    cases tokens with
    | nil => exact Option.some_ne_none _ |>.symm
    | cons token rest =>
      intro isEqual
      exact noEqual token rfl (List.mem_singleton.mpr (Option.some.inj isEqual))
  change (if tokens.head?.map Token.kind = some .equal then _ else _ : Parse Expr) _ = _
  rw [if_neg isPeeked]
  rfl

/-- An assignment or another expression. Here the matter of an equals sign that waits is settled. -/
theorem parts_assignment (reads : Reads (Expression .assignment) nested)
    (parts : Parts fork false bound nested) (enough : bound ≤ fuel) :
    Parts fork false (bound + 1) (assignment fuel nested) := by
  have target := parts_operation reads parts enough
  have steady (target : Expr) : Steady (settle nested target) := by
    constructor
    · intro tokens
      by_cases avoids : Avoids [.equal] tokens
      · rw [settle_other nested target avoids]
        exact Nat.le_refl _
      · obtain ⟨equal, isFirst, isEqual⟩ := by simpa [Avoids] using avoids
        obtain ⟨rest, rfl⟩ := List.head?_eq_some_iff.mp isFirst
        obtain ⟨change, taken⟩ | reported := settle_equal nested target isEqual
        · rw [taken]
          exact ((parts.map change).shrinks rest).trans (Nat.le_succ _)
        · rw [reported]
          exact Nat.le_refl _
    · intro tokens more failed
      by_cases avoids : Avoids [.equal] tokens
      · rw [settle_other nested target avoids] at failed
        cases failed
      · obtain ⟨equal, isFirst, isEqual⟩ := by simpa [Avoids] using avoids
        obtain ⟨rest, rfl⟩ := List.head?_eq_some_iff.mp isFirst
        obtain ⟨change, taken⟩ | reported := settle_equal nested target isEqual
        · rw [taken] at failed
          exact (parts.map change).reports rest more failed
        · rw [reported] at failed
          cases failed
          exact ⟨equal, rest, rfl, isEqual⟩
  rw [assignment_eq_bind]
  refine ⟨target.toSteady.bind steady, fun taken short => ?_⟩
  refine (target.parts taken short).bind steady ?_ ?_
  · intro target behind isBehind done
    obtain ⟨token, behind, rfl⟩ := List.exists_cons_of_ne_nil (isBehind rfl)
    have shrinks := (parts_operation reads parts enough).length_behind_le done
    rw [List.length_cons] at shrinks
    rw [List.cons_append, List.cons_append]
    by_cases isEqual : token.kind = .equal
    · obtain ⟨change, goesOn⟩ | reported := settle_equal nested target isEqual
      · rw [goesOn, goesOn]
        exact (parts.map change).parts behind (by omega)
      · rw [reported, reported]
        exact @Parting.failed _ fork false true (token :: behind) fun isNil =>
          absurd isNil (List.cons_ne_nil _ _)
    · have avoids (rest : List Token) : Avoids [.equal] (token :: rest) :=
        avoids_cons.mpr (by simpa using isEqual)
      rw [settle_other nested target (avoids _), settle_other nested target (avoids _)]
      exact @Parting.ended _ fork false target (token :: behind) (absurd · Bool.false_ne_true)
  · intro _ target second gone
    obtain ⟨change, goesOn⟩ | reported := settle_equal nested target fork.isEqual
    · rw [Fork.assigned, goesOn]
      exact .passed ((parts.map change).shrinks fork.behindEqual)
    · rw [Fork.assigned, reported]
      exact .refused gone

/-- An expression. -/
theorem parts_expression (fuel : Nat) : Parts fork false fuel (expression fuel) := by
  induction fuel with
  | zero => exact Parts.fail
  | succ fuel ih => exact parts_assignment (reads_expression fuel) ih (Nat.le_refl fuel)

/-- An expression and its semicolon. -/
theorem parts_terminated (fuel : Nat) : Parts fork false fuel (terminated fuel) :=
  (parts_expression fuel).bind fun value => (Parts.expect .semicolon (by decide)).bind fun _ =>
    Parts.pure value

/-- A condition in parentheses. -/
theorem parts_condition (fuel : Nat) : Parts fork false fuel (condition fuel) :=
  (Parts.expect .leftParen (by decide)).bind fun _ => (parts_expression fuel).bind fun value =>
    (Parts.expect .rightParen (by decide)).bind fun _ => Parts.pure value

/-- The rest of a variable declaration. -/
theorem parts_variableTail (fuel : Nat) : Parts fork false fuel (variableTail fuel) := by
  refine (Parts.expect .identifier (by decide)).bind fun name =>
    (Parts.accept [.equal] (by decide)).bind fun found => ?_
  cases found with
  | none => exact (Parts.expect .semicolon (by decide)).bind fun _ => Parts.pure (name, none)
  | some _ =>
    exact (parts_expression fuel).bind fun value =>
      (Parts.expect .semicolon (by decide)).bind fun _ => Parts.pure (name, some value)

/-- The first clause of a loop. -/
theorem parts_loopStart (fuel : Nat) : Parts fork false fuel (loopStart fuel) := by
  refine (Parts.accept [.semicolon, .varWord] (by decide)).bind fun found => ?_
  cases found with
  | none => exact ((parts_terminated fuel).map LoopStart.expression).map some
  | some token =>
    dsimp only
    split
    · exact Parts.pure none
    · exact (parts_variableTail fuel).bind fun declared => Parts.pure _

variable {inner : Position → Parse Stmt}

/-- Declarations up to a closing brace. -/
theorem parts_blockTail (parts : ∀ position, Parts fork false bound (inner position)) (fuel : Nat) :
    Parts fork false bound (blockTail fuel inner) :=
  ((parts .declaration).itemsUntil (some .rightBrace) (by decide) (by decide) fuel).bind fun body =>
    (Parts.expect .rightBrace (by decide)).bind fun _ => Parts.pure body

/-- The rest of a function declaration. -/
theorem parts_functionTail (parts : ∀ position, Parts fork false bound (inner position))
    (fuel : Nat) : Parts fork false bound (functionTail fuel inner) := by
  have name : Parts fork false bound (expect .identifier) := Parts.expect .identifier (by decide)
  have parameters := (name.separated fuel).optionalBefore .rightParen (by decide)
  refine name.bind fun name => (Parts.expect .leftParen (by decide)).bind fun _ =>
    parameters.bind fun parameters => (Parts.expect .rightParen (by decide)).bind fun _ =>
      (Parts.expect .leftBrace (by decide)).bind fun _ => ?_
  exact (parts_blockTail parts fuel).bind fun body =>
    Parts.pure (Stmt.function name (parameters.getD []) body)

/-- The rest of a loop with clauses. -/
theorem parts_forTail (parts : ∀ position, Parts fork false bound (inner position))
    (enough : bound ≤ fuel) : Parts fork false bound (forTail fuel inner) := by
  have value : Parts fork false bound (expression fuel) := (parts_expression fuel).mono enough
  have start : Parts fork false bound (loopStart fuel) := (parts_loopStart fuel).mono enough
  have condition := value.optionalBefore .semicolon (by decide)
  have increment := value.optionalBefore .rightParen (by decide)
  refine (Parts.expect .leftParen (by decide)).bind fun _ => start.bind fun start =>
    condition.bind fun condition => (Parts.expect .semicolon (by decide)).bind fun _ =>
      increment.bind fun increment => (Parts.expect .rightParen (by decide)).bind fun _ => ?_
  exact (parts .body).bind fun body => Parts.pure (Stmt.forLoop start condition increment body)

/-- The rest of a conditional. -/
theorem parts_ifTail (parts : ∀ position, Parts fork false bound (inner position))
    (enough : bound ≤ fuel) : Parts fork false bound (ifTail fuel inner) := by
  refine ((parts_condition fuel).mono enough).bind fun test => (parts .body).bind fun thenBranch =>
    (Parts.accept [.elseWord] (by decide)).bind fun found => ?_
  cases found with
  | none => exact Parts.pure _
  | some _ => exact (parts .body).bind fun elseBranch => Parts.pure _

/-- The rest of a loop without clauses. -/
theorem parts_whileTail (parts : ∀ position, Parts fork false bound (inner position))
    (enough : bound ≤ fuel) : Parts fork false bound (whileTail fuel inner) :=
  ((parts_condition fuel).mono enough).bind fun test => (parts .body).bind fun body =>
    Parts.pure (Stmt.whileLoop test body)

/-- A statement at a position. -/
theorem parts_statementWith (parts : ∀ position, Parts fork false bound (inner position))
    (enough : bound + 1 ≤ fuel) (position : Position) :
    Parts fork false (bound + 1) (statementWith fuel inner position) := by
  have less : bound ≤ fuel := Nat.le_of_succ_le enough
  have noStar : .star ∉ leadingKinds position := by cases position <;> decide
  refine Parts.accept_bind (leadingKinds position) noStar
    (((parts_terminated fuel).mono enough).map Stmt.expression) fun token => ?_
  dsimp only
  split
  · exact parts_functionTail parts fuel
  · exact ((parts_variableTail fuel).mono less).bind fun declared => Parts.pure _
  · exact parts_forTail parts less
  · exact parts_ifTail parts less
  · exact ((parts_terminated fuel).mono less).map Stmt.print
  · exact parts_whileTail parts less
  · exact (parts_blockTail parts fuel).map Stmt.block

/-- A statement. -/
theorem parts_statement (fuel : Nat) (position : Position) :
    Parts fork false fuel (statement fuel position) := by
  induction fuel generalizing position with
  | zero => exact Parts.fail
  | succ fuel ih => exact parts_statementWith ih (Nat.le_refl _) position

/-- The declarations of a program. -/
theorem parts_declarations (fuel : Nat) : Parts fork false fuel (declarations fuel) :=
  (parts_statement fuel .declaration).itemsUntil none (by decide) (by decide) fuel

end Lox.Source
