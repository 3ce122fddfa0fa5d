import Lox.Source.Expression

/-!
# Statements

The first token of a statement says which form it has; all other statements are expressions. Only
declarations may introduce names, so the bodies of loops and conditionals cannot be declarations
by themselves. An alternative belongs to the nearest condition.
-/

namespace Lox.Source

/-- Where a statement stands: in a list of declarations, or as the body of another statement. -/
inductive Position where
  | declaration
  | body
  deriving DecidableEq, Inhabited, Repr

open Parse

/-- The rest of a variable declaration. -/
def variableTail (fuel : Nat) : Parse (Token × Option Expr) := do
  let name ← expect .identifier
  match ← accept [.equal] with
  | none => do
    let _ ← expect .semicolon
    pure (name, none)
  | some _ => do
    let initializer ← expression fuel
    let _ ← expect .semicolon
    pure (name, some initializer)

/-- An expression with the semicolon that ends it. -/
def terminated (fuel : Nat) : Parse Expr := do
  let value ← expression fuel
  let _ ← expect .semicolon
  pure value

/-- A condition in parentheses. -/
def condition (fuel : Nat) : Parse Expr := do
  let _ ← expect .leftParen
  let value ← expression fuel
  let _ ← expect .rightParen
  pure value

/-- Declarations after their opening brace, and the brace that closes them. -/
def blockTail (fuel : Nat) (nested : Position → Parse Stmt) : Parse (List Stmt) := do
  let body ← itemsUntil (some .rightBrace) (nested .declaration) fuel
  let _ ← expect .rightBrace
  pure body

/-- The rest of a function declaration. -/
def functionTail (fuel : Nat) (nested : Position → Parse Stmt) : Parse Stmt := do
  let name ← expect .identifier
  let _ ← expect .leftParen
  let parameters ← optionalBefore .rightParen (separated (expect .identifier) fuel)
  let _ ← expect .rightParen
  let _ ← expect .leftBrace
  let body ← blockTail fuel nested
  pure (.function name (parameters.getD []) body)

/-- The first clause of a loop. -/
def loopStart (fuel : Nat) : Parse (Option LoopStart) := do
  match ← accept [.semicolon, .varWord] with
  | none => some <$> LoopStart.expression <$> terminated fuel
  | some token =>
    if token.kind = .semicolon then pure none
    else do
      let (name, initializer) ← variableTail fuel
      pure (some (.var name initializer))

/-- The rest of a loop with clauses. -/
def forTail (fuel : Nat) (nested : Position → Parse Stmt) : Parse Stmt := do
  let _ ← expect .leftParen
  let start ← loopStart fuel
  let condition ← optionalBefore .semicolon (expression fuel)
  let _ ← expect .semicolon
  let increment ← optionalBefore .rightParen (expression fuel)
  let _ ← expect .rightParen
  let body ← nested .body
  pure (.forLoop start condition increment body)

/-- The rest of a conditional. -/
def ifTail (fuel : Nat) (nested : Position → Parse Stmt) : Parse Stmt := do
  let test ← condition fuel
  let thenBranch ← nested .body
  match ← accept [.elseWord] with
  | none => pure (.ifThen test thenBranch)
  | some _ => do
    let elseBranch ← nested .body
    pure (.ifElse test thenBranch elseBranch)

/-- The rest of a loop without clauses. -/
def whileTail (fuel : Nat) (nested : Position → Parse Stmt) : Parse Stmt := do
  let test ← condition fuel
  let body ← nested .body
  pure (.whileLoop test body)

/-- The rest of a variable declaration as a statement. -/
def varTail (fuel : Nat) : Parse Stmt := do
  let (name, initializer) ← variableTail fuel
  pure (.var name initializer)

/-- The kinds that begin a statement of a form of its own at a position. -/
def leadingKinds : Position → List Kind
  | .declaration => [.funWord, .varWord, .forWord, .ifWord, .printWord, .whileWord, .leftBrace]
  | .body => [.forWord, .ifWord, .printWord, .whileWord, .leftBrace]

/-- A statement in which those inside it are read by the given reader. -/
def statementWith (fuel : Nat) (nested : Position → Parse Stmt) (position : Position) :
    Parse Stmt := do
  match ← accept (leadingKinds position) with
  | none => Stmt.expression <$> terminated fuel
  | some token =>
    match token.kind with
    | .funWord => functionTail fuel nested
    | .varWord => varTail fuel
    | .forWord => forTail fuel nested
    | .ifWord => ifTail fuel nested
    | .printWord => Stmt.print <$> terminated fuel
    | .whileWord => whileTail fuel nested
    | _ => Stmt.block <$> blockTail fuel nested

/-- A statement at a position. -/
def statement : (fuel : Nat) → Position → Parse Stmt
  | 0, _ => fail
  | fuel + 1, position => statementWith (fuel + 1) (statement fuel) position

/-- The declarations up to the end of the tokens. -/
def declarations (fuel : Nat) : Parse (List Stmt) :=
  itemsUntil none (statement fuel .declaration) fuel

/-- The diagnostic of a failure among some tokens. -/
def Failure.diagnostic (tokens : List Token) (failure : Failure) : Diagnostic :=
  match failure.rest with
  | [] => .endOfInput ((tokens.getLast?.map Token.line).getD 0)
  | token :: _ =>
    if token.kind = .error then .lexical token
    else if failure.invalidTarget then .invalidTarget token
    else .unexpected token

/-- The source tree of the tokens of a source, of which an end token is no part. -/
def ofTokens (tokens : List Token) : Except Diagnostic (List Stmt) :=
  match declarations (tokens.length + 1) tokens with
  | .ok (program, _) => .ok program
  | .error failure => .error (failure.diagnostic tokens)

end Lox.Source
