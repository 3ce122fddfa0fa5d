import Lox.Proofs.Grammar.Renaming
import Lox.Proofs.Reading.Language
import Lox.Proofs.Token.Layout

/-!
# Only the spelling is read

What a reader does depends on the kinds and lexemes of the tokens. On tokens that are changed otherwise
it does what it does on the tokens themselves, and all tokens in what comes of it are changed likewise,
whether it succeeds or fails.

Lines are such a change. So tokens that are spelled alike are read as trees that differ in the lines of
tokens only, or refused with diagnostics that differ in their lines only.
-/

namespace Lox.Source.Parse

variable {α β γ δ : Type} {change : Token → Token}

/-- A result with its value and its tokens changed. -/
def changed (change : Token → Token) (changeValue : α → β) :
    Except Failure (α × List Token) → Except Failure (β × List Token)
  | .ok (value, rest) => .ok (changeValue value, rest.map change)
  | .error failure => .error { failure with rest := failure.rest.map change }

/-- A second reader does on changed tokens what a first does on the tokens. -/
def Carries (change : Token → Token) (changeValue : α → β) (first : Parse α) (second : Parse β) : Prop :=
  ∀ tokens, second (tokens.map change) = changed change changeValue (first tokens)

namespace Carries

variable {changeValue : α → β} {changeFinal : γ → δ} {first : Parse α} {second : Parse β}

/-- A value that is there without reading. -/
theorem pure (value : α) : Carries change changeValue (Pure.pure value) (Pure.pure (changeValue value)) :=
  fun _ => rfl

/-- A failure at the next token. -/
theorem fail : Carries change changeValue Parse.fail Parse.fail :=
  fun _ => rfl

/-- A failure at an operand. -/
theorem failTarget : Carries change changeValue Parse.failTarget Parse.failTarget :=
  fun _ => rfl

/-- Readers in sequence. -/
theorem bind {next : α → Parse γ} {next' : β → Parse δ} (carries : Carries change changeValue first second)
    (follow : ∀ value, Carries change changeFinal (next value) (next' (changeValue value))) :
    Carries change changeFinal (first >>= next) (second >>= next') := by
  intro tokens
  rw [bind_apply, bind_apply, carries tokens]
  cases first tokens with
  | error failure => rfl
  | ok result => exact follow result.1 result.2

/-- Readers of which a value is made in the end. -/
theorem map {make : α → γ} {make' : β → δ} (carries : Carries change changeValue first second)
    (same : ∀ value, make' (changeValue value) = changeFinal (make value)) :
    Carries change changeFinal (make <$> first) (make' <$> second) := by
  rw [map_eq_pure_bind, map_eq_pure_bind]
  refine carries.bind fun value => ?_
  rw [same]
  exact .pure (make value)

section

variable (keeps : KeepsSpelling change)

include keeps

/-- The kind of the next token is the same. -/
theorem peek : Carries change id Parse.peek Parse.peek := by
  intro tokens
  cases tokens with
  | nil => rfl
  | cons token rest =>
    rw [List.map_cons, Parse.peek, Parse.peek, List.head?_cons, Option.map_some, keeps.kind_eq]
    rfl

/-- A token that has to be of a kind. -/
theorem expect (kind : Kind) : Carries change change (Parse.expect kind) (Parse.expect kind) := by
  intro tokens
  cases tokens with
  | nil => rfl
  | cons token rest =>
    rw [List.map_cons, Parse.expect, Parse.expect, keeps.kind_eq]
    split <;> rfl

/-- A token that may be of some kinds. -/
theorem accept (kinds : List Kind) :
    Carries change (Option.map change) (Parse.accept kinds) (Parse.accept kinds) := by
  intro tokens
  cases tokens with
  | nil => rfl
  | cons token rest =>
    rw [List.map_cons, Parse.accept, Parse.accept, keeps.kind_eq]
    split <;> rfl

/-- A run of tokens of some kinds. -/
theorem acceptAll (kinds : List Kind) :
    Carries change (List.map change) (Parse.acceptAll kinds) (Parse.acceptAll kinds) := by
  intro tokens
  have same : (fun token : Token => decide (token.kind ∈ kinds)) ∘ change =
      fun token => decide (token.kind ∈ kinds) :=
    funext fun token => by rw [Function.comp_apply, keeps.kind_eq]
  rw [acceptAll_apply, acceptAll_apply, List.takeWhile_map, List.dropWhile_map, same]
  rfl

/-- An item that may be left out. -/
theorem optionalBefore (kind : Kind) (carries : Carries change changeValue first second) :
    Carries change (Option.map changeValue) (Parse.optionalBefore kind first)
      (Parse.optionalBefore kind second) := by
  refine (peek keeps).bind fun seen => ?_
  dsimp only [id]
  split
  · exact .pure none
  · exact carries.map fun _ => rfl

/-- Items with commas between them. -/
theorem separated (carries : Carries change changeValue first second) (fuel : Nat) :
    Carries change (List.map changeValue) (Parse.separated first fuel)
      (Parse.separated second fuel) := by
  induction fuel with
  | zero => exact .fail
  | succ fuel ih =>
    refine carries.bind fun value => (accept keeps [.comma]).bind fun found => ?_
    cases found with
    | none => exact .pure [value]
    | some comma => exact ih.bind fun others => .pure (value :: others)

/-- Items up to the token of a kind. -/
theorem itemsUntil (stop : Option Kind) (carries : Carries change changeValue first second) (fuel : Nat) :
    Carries change (List.map changeValue) (Parse.itemsUntil stop first fuel)
      (Parse.itemsUntil stop second fuel) := by
  induction fuel with
  | zero => exact .pure []
  | succ fuel ih =>
    refine (peek keeps).bind fun seen => ?_
    dsimp only [id]
    split
    · exact .pure []
    · exact carries.bind fun value => ih.bind fun others => .pure (value :: others)

end

end Carries

end Lox.Source.Parse

namespace Lox.Source

open Parse

section

variable {change : Token → Token} (keeps : KeepsSpelling change)

/-- A reader of expressions reads changed tokens as the changed expression. -/
abbrev CarriesExpr (change : Token → Token) (reader : Parse Expr) : Prop :=
  Carries change (Expr.mapTokens change) reader reader

/-- A reader of statements reads changed tokens as the changed statement. -/
abbrev CarriesStmt (change : Token → Token) (reader : Parse Stmt) : Prop :=
  Carries change (Stmt.mapTokens change) reader reader

include keeps

/-- The literal that a token is. -/
theorem ofToken?_change (token : Token) : Literal.ofToken? (change token) = Literal.ofToken? token := by
  rw [Literal.ofToken?, Literal.ofToken?, keeps.kind_eq, keeps.lexeme_eq]

/-- What follows the first operand of a level. -/
theorem carries_chainRest (level : Level) {operand : Parse Expr} (carries : CarriesExpr change operand)
    (fuel : Nat) (left : Expr) :
    Carries change (Expr.mapTokens change) (chainRest level operand fuel left)
      (chainRest level operand fuel (left.mapTokens change)) := by
  induction fuel generalizing left with
  | zero => exact .pure left
  | succ fuel ih =>
    refine (Carries.accept keeps level.operators).bind fun found => ?_
    cases found with
    | none => exact .pure left
    | some operator =>
      refine carries.bind fun right => ?_
      have joined : (level.join left operator right).mapTokens change =
          level.join (left.mapTokens change) (change operator) (right.mapTokens change) := by
        cases level <;> rfl
      have rest := ih (level.join left operator right)
      rwa [joined] at rest

/-- A chain of a level. -/
theorem carries_chain (level : Level) {operand : Parse Expr} (carries : CarriesExpr change operand)
    (fuel : Nat) : CarriesExpr change (chain fuel level operand) :=
  carries.bind fun left => carries_chainRest keeps level carries fuel left

section

variable {nested : Parse Expr} (carries : CarriesExpr change nested)

include carries

/-- A literal, a name or an expression in parentheses. -/
theorem carries_primary : CarriesExpr change (primary nested) := by
  intro tokens
  cases tokens with
  | nil => rfl
  | cons token rest =>
    rw [List.map_cons, primary, primary, ofToken?_change keeps, keeps.kind_eq]
    cases Literal.ofToken? token with
    | some value => rfl
    | none =>
      dsimp only
      split
      · rfl
      · split
        · have inParentheses : CarriesExpr change
              (do
                let inner ← nested
                let _ ← expect .rightParen
                pure (Expr.grouping inner)) :=
            carries.bind fun inner => (Carries.expect keeps .rightParen).bind fun _ =>
              .pure (Expr.grouping inner)
          exact inParentheses rest
        · rfl

/-- The calls behind a callee. -/
theorem carries_callsRest (fuel : Nat) (callee : Expr) :
    Carries change (Expr.mapTokens change) (callsRest nested fuel callee)
      (callsRest nested fuel (callee.mapTokens change)) := by
  induction fuel generalizing callee with
  | zero => exact .pure callee
  | succ fuel ih =>
    refine (Carries.accept keeps [.leftParen]).bind fun found => ?_
    cases found with
    | none => exact .pure callee
    | some opening =>
      refine ((carries.separated keeps fuel).optionalBefore keeps .rightParen).bind fun arguments => ?_
      refine (Carries.expect keeps .rightParen).bind fun paren => ?_
      have areArguments : (arguments.map (List.map (Expr.mapTokens change))).getD [] =
          Expr.mapTokensOfList change (arguments.getD []) := by
        rw [Expr.mapTokensOfList_eq_map]
        cases arguments <;> rfl
      rw [areArguments]
      exact ih (.call callee (arguments.getD []) paren)

/-- A primary expression and its calls. -/
theorem carries_calls (fuel : Nat) : CarriesExpr change (calls fuel nested) :=
  (carries_primary keeps carries).bind fun callee => carries_callsRest keeps carries fuel callee

/-- Prefix operators and their operand. -/
theorem carries_unary (fuel : Nat) : CarriesExpr change (unary fuel nested) := by
  refine (Carries.acceptAll keeps prefixOperators).bind fun operators =>
    (carries_calls keeps carries fuel).bind fun operand => ?_
  have whole : (operators.map change).foldr Expr.unary (operand.mapTokens change) =
      (operators.foldr Expr.unary operand).mapTokens change := by
    induction operators with
    | nil => rfl
    | cons operator operators ih => exact congrArg (Expr.unary (change operator)) ih
  rw [whole]
  exact .pure (operators.foldr Expr.unary operand)

/-- An expression that is no assignment. -/
theorem carries_operation (fuel : Nat) : CarriesExpr change (operation fuel nested) := by
  unfold operation
  induction Level.all with
  | nil => exact carries_unary keeps carries fuel
  | cons level levels ih => exact carries_chain keeps level ih fuel

/-- An assignment or another expression. -/
theorem carries_assignment (fuel : Nat) : CarriesExpr change (assignment fuel nested) := by
  refine (carries_operation keeps carries fuel).bind fun target => ?_
  refine (Carries.peek keeps).bind fun seen => ?_
  dsimp only [id]
  split
  · cases target with
    | «variable» name =>
      exact (Carries.expect keeps .equal).bind fun _ => carries.bind fun value =>
        .pure (Expr.assign name value)
    | _ => exact .failTarget
  · exact .pure target

end

/-- An expression. -/
theorem carries_expression (fuel : Nat) : CarriesExpr change (expression fuel) := by
  induction fuel with
  | zero => exact .fail
  | succ fuel ih => exact carries_assignment keeps ih fuel

/-- An expression and its semicolon. -/
theorem carries_terminated (fuel : Nat) : CarriesExpr change (terminated fuel) :=
  (carries_expression keeps fuel).bind fun value =>
    (Carries.expect keeps .semicolon).bind fun _ => .pure value

/-- A condition in parentheses. -/
theorem carries_condition (fuel : Nat) : CarriesExpr change (condition fuel) :=
  (Carries.expect keeps .leftParen).bind fun _ => (carries_expression keeps fuel).bind fun value =>
    (Carries.expect keeps .rightParen).bind fun _ => .pure value

/-- The rest of a variable declaration. -/
theorem carries_variableTail (fuel : Nat) :
    Carries change (Prod.map change (Option.map (Expr.mapTokens change))) (variableTail fuel)
      (variableTail fuel) := by
  refine (Carries.expect keeps .identifier).bind fun name =>
    (Carries.accept keeps [.equal]).bind fun found => ?_
  cases found with
  | none => exact (Carries.expect keeps .semicolon).bind fun _ => .pure (name, none)
  | some equal =>
    exact (carries_expression keeps fuel).bind fun value =>
      (Carries.expect keeps .semicolon).bind fun _ => .pure (name, some value)

/-- The first clause of a loop. -/
theorem carries_loopStart (fuel : Nat) :
    Carries change (Option.map (LoopStart.mapTokens change)) (loopStart fuel) (loopStart fuel) := by
  refine (Carries.accept keeps [.semicolon, .varWord]).bind fun found => ?_
  cases found with
  | none =>
    have value : Carries change (LoopStart.mapTokens change)
        (LoopStart.expression <$> terminated fuel) (LoopStart.expression <$> terminated fuel) :=
      (carries_terminated keeps fuel).map fun _ => rfl
    exact value.map fun _ => rfl
  | some token =>
    dsimp only [Option.map]
    rw [keeps.kind_eq]
    split
    · exact .pure none
    · exact (carries_variableTail keeps fuel).bind fun declared =>
        .pure (some (LoopStart.var declared.1 declared.2))

/-- The rest of a variable declaration as a statement. -/
theorem carries_varTail (fuel : Nat) : CarriesStmt change (varTail fuel) :=
  (carries_variableTail keeps fuel).bind fun declared => .pure (Stmt.var declared.1 declared.2)

section

variable {nested : Position → Parse Stmt} (carries : ∀ position, CarriesStmt change (nested position))

include carries

/-- Declarations up to a closing brace. -/
theorem carries_blockTail (fuel : Nat) :
    Carries change (Stmt.mapTokensOfList change) (blockTail fuel nested) (blockTail fuel nested) := by
  rw [funext (Stmt.mapTokensOfList_eq_map change)]
  exact ((carries .declaration).itemsUntil keeps (some .rightBrace) fuel).bind fun body =>
    (Carries.expect keeps .rightBrace).bind fun _ => .pure body

/-- The rest of a function declaration. -/
theorem carries_functionTail (fuel : Nat) : CarriesStmt change (functionTail fuel nested) := by
  refine (Carries.expect keeps .identifier).bind fun name =>
    (Carries.expect keeps .leftParen).bind fun _ => ?_
  refine (((Carries.expect keeps .identifier).separated keeps fuel).optionalBefore keeps
    .rightParen).bind fun parameters => ?_
  refine (Carries.expect keeps .rightParen).bind fun _ => (Carries.expect keeps .leftBrace).bind
    fun _ => (carries_blockTail keeps carries fuel).bind fun body => ?_
  have areParameters : (parameters.map (List.map change)).getD [] = (parameters.getD []).map change := by
    cases parameters <;> rfl
  rw [areParameters]
  exact .pure (Stmt.function name (parameters.getD []) body)

/-- The rest of a loop with clauses. -/
theorem carries_forTail (fuel : Nat) : CarriesStmt change (forTail fuel nested) := by
  refine (Carries.expect keeps .leftParen).bind fun _ => (carries_loopStart keeps fuel).bind
    fun start => ?_
  refine ((carries_expression keeps fuel).optionalBefore keeps .semicolon).bind fun condition => ?_
  refine (Carries.expect keeps .semicolon).bind fun _ => ?_
  refine ((carries_expression keeps fuel).optionalBefore keeps .rightParen).bind fun increment => ?_
  exact (Carries.expect keeps .rightParen).bind fun _ => (carries .body).bind fun body =>
    .pure (Stmt.forLoop start condition increment body)

/-- The rest of a conditional. -/
theorem carries_ifTail (fuel : Nat) : CarriesStmt change (ifTail fuel nested) := by
  refine (carries_condition keeps fuel).bind fun test => (carries .body).bind fun thenBranch =>
    (Carries.accept keeps [.elseWord]).bind fun found => ?_
  cases found with
  | none => exact .pure (Stmt.ifThen test thenBranch)
  | some word => exact (carries .body).bind fun elseBranch => .pure (Stmt.ifElse test thenBranch elseBranch)

/-- The rest of a loop without clauses. -/
theorem carries_whileTail (fuel : Nat) : CarriesStmt change (whileTail fuel nested) :=
  (carries_condition keeps fuel).bind fun test => (carries .body).bind fun body =>
    .pure (Stmt.whileLoop test body)

/-- A statement at a position. -/
theorem carries_statementWith (fuel : Nat) (position : Position) :
    CarriesStmt change (statementWith fuel nested position) := by
  refine (Carries.accept keeps (leadingKinds position)).bind fun found => ?_
  cases found with
  | none => exact (carries_terminated keeps fuel).map fun _ => rfl
  | some token =>
    dsimp only [Option.map]
    rw [keeps.kind_eq]
    split
    · exact carries_functionTail keeps carries fuel
    · exact carries_varTail keeps fuel
    · exact carries_forTail keeps carries fuel
    · exact carries_ifTail keeps carries fuel
    · exact (carries_terminated keeps fuel).map fun _ => rfl
    · exact carries_whileTail keeps carries fuel
    · exact (carries_blockTail keeps carries fuel).map fun _ => rfl

end

/-- A statement. -/
theorem carries_statement (fuel : Nat) (position : Position) :
    CarriesStmt change (statement fuel position) := by
  induction fuel generalizing position with
  | zero => exact .fail
  | succ fuel ih => exact carries_statementWith keeps ih (fuel + 1) position

/-- All declarations. -/
theorem carries_declarations (fuel : Nat) :
    Carries change (Stmt.mapTokensOfList change) (declarations fuel) (declarations fuel) := by
  rw [funext (Stmt.mapTokensOfList_eq_map change)]
  exact (carries_statement keeps fuel .declaration).itemsUntil keeps none fuel

end

end Lox.Source

namespace Lox

/-- A token without its line. -/
def Token.unplaced (token : Token) : Token :=
  { token with line := 0 }

/-- Without its line a token is spelled the same. -/
theorem Token.keepsSpelling_unplaced : KeepsSpelling Token.unplaced :=
  ⟨fun _ => rfl, fun _ => rfl⟩

/-- Tokens that are spelled alike are the same without their lines. -/
theorem Token.map_unplaced_of_spelling {tokens tokens' : List Token}
    (same : tokens.map Token.spelling = tokens'.map Token.spelling) :
    tokens.map Token.unplaced = tokens'.map Token.unplaced := by
  let placed (spelling : Kind × List UInt8) : Token := ⟨spelling.1, spelling.2, 0⟩
  have whole : Token.unplaced = placed ∘ Token.spelling := rfl
  rw [whole, ← List.map_map, ← List.map_map, same]

/-- A diagnostic without its line. -/
def Diagnostic.unplaced : Diagnostic → Diagnostic
  | .lexical token => .lexical token.unplaced
  | .unexpected token => .unexpected token.unplaced
  | .invalidTarget token => .invalidTarget token.unplaced
  | .endOfInput _ => .endOfInput 0
  | .tooManyParameters last => .tooManyParameters last.unplaced
  | .tooManyArguments paren => .tooManyArguments paren.unplaced

namespace Source

/-- The diagnostic of a failure among tokens without lines. -/
theorem Failure.diagnostic_unplaced (tokens : List Token) (failure : Failure) :
    Failure.diagnostic (tokens.map Token.unplaced)
        { failure with rest := failure.rest.map Token.unplaced } =
      (failure.diagnostic tokens).unplaced := by
  obtain ⟨invalidTarget, rest⟩ := failure
  cases rest with
  | nil =>
    have noLine : (((tokens.map Token.unplaced).getLast?).map Token.line).getD 0 = 0 := by
      rw [List.getLast?_map]
      cases tokens.getLast? <;> rfl
    exact congrArg Diagnostic.endOfInput noLine
  | cons token rest =>
    change _ = Diagnostic.unplaced (if token.kind = .error then .lexical token
      else if invalidTarget then .invalidTarget token else .unexpected token)
    rw [apply_ite Diagnostic.unplaced, apply_ite Diagnostic.unplaced]
    rfl

/-- Tokens without lines are read as the tree without lines, or refused with the diagnostic without
its line. -/
theorem ofTokens_unplaced (tokens : List Token) :
    ofTokens (tokens.map Token.unplaced) =
      ((ofTokens tokens).map (Stmt.mapTokensOfList Token.unplaced)).mapError Diagnostic.unplaced := by
  have carried := carries_declarations Token.keepsSpelling_unplaced (tokens.length + 1) tokens
  unfold ofTokens
  rw [List.length_map, carried]
  cases declarations (tokens.length + 1) tokens with
  | ok result => rfl
  | error failure => exact congrArg Except.error (Failure.diagnostic_unplaced tokens failure)

section

attribute [local simp] Expr.mapTokens Expr.mapTokensOfList Expr.excess? Expr.excessOfList? Option.map_or

mutual

/-- The excess in an expression without lines. -/
theorem Expr.excess?_unplaced : (tree : Expr) →
    (tree.mapTokens Token.unplaced).excess? = tree.excess?.map Diagnostic.unplaced
  | .literal _ | .variable _ => rfl
  | .grouping inner | .unary _ inner | .assign _ inner => Expr.excess?_unplaced inner
  | .call callee arguments paren => by
    have length : (Expr.mapTokensOfList Token.unplaced arguments).length = arguments.length := by
      rw [Expr.mapTokensOfList_eq_map, List.length_map]
    have own : (if maxArguments < arguments.length then some (Diagnostic.tooManyArguments paren)
          else none).map Diagnostic.unplaced =
        if maxArguments < arguments.length then some (.tooManyArguments paren.unplaced) else none := by
      split <;> rfl
    simp only [Expr.mapTokens, Expr.excess?, Option.orElse_eq_orElse, Option.orElse_eq_or, Option.map_or,
      own, Expr.excess?_unplaced callee, Expr.excessOfList?_unplaced arguments, length]
  | .binary left _ right | .logical left _ right => by
    simp [Expr.excess?_unplaced left, Expr.excess?_unplaced right]

/-- The excess in some expressions without lines. -/
theorem Expr.excessOfList?_unplaced : (trees : List Expr) →
    Expr.excessOfList? (Expr.mapTokensOfList Token.unplaced trees) =
      (Expr.excessOfList? trees).map Diagnostic.unplaced
  | [] => rfl
  | first :: rest => by simp [Expr.excess?_unplaced first, Expr.excessOfList?_unplaced rest]

end

/-- The excess in an optional expression without lines. -/
theorem Expr.excessOfOption?_unplaced (value : Option Expr) :
    Expr.excessOfOption? (value.map (Expr.mapTokens Token.unplaced)) =
      (Expr.excessOfOption? value).map Diagnostic.unplaced := by
  cases value with
  | none => rfl
  | some tree => exact Expr.excess?_unplaced tree

/-- The excess in an optional first clause without lines. -/
theorem LoopStart.excess?_unplaced (start : Option LoopStart) :
    (start.map (LoopStart.mapTokens Token.unplaced)).bind LoopStart.excess? =
      (start.bind LoopStart.excess?).map Diagnostic.unplaced := by
  match start with
  | none => rfl
  | some (.var _ initializer) => exact Expr.excessOfOption?_unplaced initializer
  | some (.expression value) => exact Expr.excess?_unplaced value

/-- The excess of a parameter list without lines. -/
theorem parameterExcess?_unplaced (parameters : List Token) :
    parameterExcess? (parameters.map Token.unplaced) =
      (parameterExcess? parameters).map Diagnostic.unplaced := by
  unfold parameterExcess?
  rw [List.length_map, List.getLast?_map]
  split
  · cases parameters.getLast? <;> rfl
  · rfl

attribute [local simp] Stmt.mapTokens Stmt.mapTokensOfList Stmt.excess? Stmt.excessOfList?
  Expr.excess?_unplaced Expr.excessOfOption?_unplaced LoopStart.excess?_unplaced
  parameterExcess?_unplaced

mutual

/-- The excess in a statement without lines. -/
theorem Stmt.excess?_unplaced : (tree : Stmt) →
    (tree.mapTokens Token.unplaced).excess? = tree.excess?.map Diagnostic.unplaced
  | .expression _ | .print _ | .var _ _ => by simp
  | .function _ _ body | .block body => by simp [Stmt.excessOfList?_unplaced body]
  | .ifThen _ thenBranch => by simp [Stmt.excess?_unplaced thenBranch]
  | .ifElse _ thenBranch elseBranch => by
    simp [Stmt.excess?_unplaced thenBranch, Stmt.excess?_unplaced elseBranch]
  | .whileLoop _ body | .forLoop _ _ _ body => by simp [Stmt.excess?_unplaced body]

/-- The excess in some statements without lines. -/
theorem Stmt.excessOfList?_unplaced : (trees : List Stmt) →
    Stmt.excessOfList? (Stmt.mapTokensOfList Token.unplaced trees) =
      (Stmt.excessOfList? trees).map Diagnostic.unplaced
  | [] => rfl
  | first :: rest => by simp [Stmt.excess?_unplaced first, Stmt.excessOfList?_unplaced rest]

end

end

end Source

namespace Program

/-- The program without the lines of its tokens. -/
def unplaced (program : Program) : Program :=
  Node.mapTokensOfList Token.unplaced program

/-- The program of some tokens. -/
def ofTokens (tokens : List Token) : Except Diagnostic Program := do
  let tree ← Source.ofTokens tokens
  match Source.Stmt.excessOfList? tree with
  | some excess => .error excess
  | none => .ok (Source.Stmt.nodes tree)

/-- The program of a source is that of its tokens. -/
theorem ofSource_eq (source : List UInt8) : ofSource source = ofTokens (Source.tokens source) := by
  unfold ofSource ofTokens Source.read
  cases Source.ofTokens (Source.tokens source) with
  | error diagnostic => rfl
  | ok tree =>
    change Except.map _ (match Source.Stmt.excessOfList? tree with | some _ => _ | none => _) =
      match Source.Stmt.excessOfList? tree with | some _ => _ | none => _
    cases Source.Stmt.excessOfList? tree <;> rfl

/-- The program of tokens without lines is that of the tokens, without lines. -/
theorem ofTokens_unplaced (tokens : List Token) :
    ofTokens (tokens.map Token.unplaced) =
      ((ofTokens tokens).map unplaced).mapError Diagnostic.unplaced := by
  unfold ofTokens
  rw [Source.ofTokens_unplaced]
  cases Source.ofTokens tokens with
  | error diagnostic => rfl
  | ok tree =>
    change (match Source.Stmt.excessOfList? (Source.Stmt.mapTokensOfList Token.unplaced tree) with
        | some _ => _ | none => _) =
      Except.mapError _ (Except.map _
        (match Source.Stmt.excessOfList? tree with | some _ => _ | none => _))
    rw [Source.Stmt.excessOfList?_unplaced]
    cases Source.Stmt.excessOfList? tree with
    | some excess => rfl
    | none => exact congrArg Except.ok (Source.Stmt.nodes_mapTokens Token.unplaced tree)

/-- Sources with tokens that are spelled alike have programs that are the same without lines, or are
refused with diagnostics that are. -/
theorem ofSource_unplaced {first second : List UInt8}
    (same : (tokens first).map Token.spelling = (tokens second).map Token.spelling) :
    ((ofSource first).map unplaced).mapError Diagnostic.unplaced =
      ((ofSource second).map unplaced).mapError Diagnostic.unplaced := by
  have upToEnd : (Source.tokens first).map Token.spelling = (Source.tokens second).map Token.spelling := by
    rw [Source.tokens, Source.tokens, List.map_dropLast, List.map_dropLast, same]
  rw [ofSource_eq, ofSource_eq, ← ofTokens_unplaced, ← ofTokens_unplaced,
    Token.map_unplaced_of_spelling upToEnd]

end Program

end Lox
