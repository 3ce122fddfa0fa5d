import Lox.Source.Statement

/-!
# The grammar of programs

One relation for each part of the grammar says which tokens make up a phrase and which tree the
phrase has. A rule with a repetition takes the list of its repeated phrases, so chains of
operators name the tree that groups them to the left.

The relations are ambiguous where an alternative may belong to several conditions. They know
nothing of readers, of look-ahead or of a bound on nesting.
-/

namespace Lox.Grammar

open Source

variable {α : Type}

/-- A stretch of tokens with the tree that it stands for. -/
structure Phrase (α : Type) where
  tokens : List Token
  tree : α

/-- A phrase behind the token that joins it to what stands before. -/
structure Link (α : Type) extends Phrase α where
  joint : Token

/-- The tokens of phrases that follow one another. -/
def spelled (phrases : List (Phrase α)) : List Token :=
  phrases.flatMap Phrase.tokens

/-- The tokens of links that follow one another. -/
def linked (links : List (Link α)) : List Token :=
  links.flatMap fun link => link.joint :: link.tokens

/-- The tokens that are literals by themselves, with their values. -/
inductive IsLiteral : Token → Literal → Prop
  | nil {token : Token} : token.kind = .nilWord → IsLiteral token .nil
  | true {token : Token} : token.kind = .trueWord → IsLiteral token (.bool true)
  | false {token : Token} : token.kind = .falseWord → IsLiteral token (.bool false)
  | number {token : Token} :
      token.kind = .number → IsLiteral token (.number (Number.ofLexeme token.lexeme))
  | string {token : Token} :
      token.kind = .string →
      IsLiteral token (.text (Text.decode (token.lexeme.drop 1).dropLast))

/-- The forms of expressions from the loosest to the tightest. -/
inductive Rank where
  | assignment | disjunction | conjunction | equality | comparison | sum | product | unary | call
  | primary
  deriving DecidableEq, Repr

/-- The ranks whose expressions are operands with operators between them: the operators, the rank
of the operands, and the tree of an operator between two operands. -/
inductive ChainRule : Rank → List Kind → Rank → (Expr → Token → Expr → Expr) → Prop
  | disjunction : ChainRule .disjunction [.orWord] .conjunction .logical
  | conjunction : ChainRule .conjunction [.andWord] .equality .logical
  | equality : ChainRule .equality [.bangEqual, .equalEqual] .comparison .binary
  | comparison :
      ChainRule .comparison [.greater, .greaterEqual, .less, .lessEqual] .sum .binary
  | sum : ChainRule .sum [.minus, .plus] .product .binary
  | product : ChainRule .product [.slash, .star] .unary .binary

/-- The tokens and the tree of an expression of a rank. -/
inductive Expression : Rank → List Token → Expr → Prop
  | assign {name equal : Token} {tokens : List Token} {value : Expr} :
      name.kind = .identifier → equal.kind = .equal → Expression .assignment tokens value →
      Expression .assignment (name :: equal :: tokens) (.assign name value)
  | operation {tokens : List Token} {value : Expr} :
      Expression .disjunction tokens value → Expression .assignment tokens value
  | chain {rank operand : Rank} {operators : List Kind} {join : Expr → Token → Expr → Expr}
      {tokens : List Token} {first : Expr} {others : List (Link Expr)} :
      ChainRule rank operators operand join → Expression operand tokens first →
      (∀ link ∈ others, link.joint.kind ∈ operators) →
      (∀ link ∈ others, Expression operand link.tokens link.tree) →
      Expression rank (tokens ++ linked others)
        (others.foldl (fun left link => join left link.joint link.tree) first)
  | prefixed {operator : Token} {tokens : List Token} {operand : Expr} :
      operator.kind = .bang ∨ operator.kind = .minus → Expression .unary tokens operand →
      Expression .unary (operator :: tokens) (.unary operator operand)
  | unprefixed {tokens : List Token} {value : Expr} :
      Expression .call tokens value → Expression .unary tokens value
  | uncalled {tokens : List Token} {value : Expr} :
      Expression .primary tokens value → Expression .call tokens value
  | callEmpty {tokens : List Token} {callee : Expr} {opening closing : Token} :
      Expression .call tokens callee → opening.kind = .leftParen → closing.kind = .rightParen →
      Expression .call (tokens ++ [opening, closing]) (.call callee [] closing)
  | callWith {tokens firstTokens : List Token} {callee first : Expr} {others : List (Link Expr)}
      {opening closing : Token} :
      Expression .call tokens callee → opening.kind = .leftParen →
      Expression .assignment firstTokens first → (∀ link ∈ others, link.joint.kind = .comma) →
      (∀ link ∈ others, Expression .assignment link.tokens link.tree) →
      closing.kind = .rightParen →
      Expression .call (tokens ++ opening :: (firstTokens ++ linked others ++ [closing]))
        (.call callee (first :: others.map fun link => link.tree) closing)
  | literal {token : Token} {value : Literal} :
      IsLiteral token value → Expression .primary [token] (.literal value)
  | named {token : Token} :
      token.kind = .identifier → Expression .primary [token] (.variable token)
  | grouping {opening closing : Token} {tokens : List Token} {inner : Expr} :
      opening.kind = .leftParen → Expression .assignment tokens inner →
      closing.kind = .rightParen →
      Expression .primary (opening :: (tokens ++ [closing])) (.grouping inner)

/-- An expression that may be left out. -/
inductive OptionalExpression : List Token → Option Expr → Prop
  | absent : OptionalExpression [] none
  | present {tokens : List Token} {value : Expr} :
      Expression .assignment tokens value → OptionalExpression tokens (some value)

/-- The parameters of a function, which may be left out. -/
inductive Parameters : List Token → List Token → Prop
  | absent : Parameters [] []
  | present {first : Token} {others : List (Link Token)} :
      first.kind = .identifier → (∀ link ∈ others, link.joint.kind = .comma) →
      (∀ link ∈ others, link.tree.kind = .identifier ∧ link.tokens = [link.tree]) →
      Parameters (first :: linked others) (first :: others.map fun link => link.tree)

/-- A declaration of a variable with the name and the initializer that it gives. -/
inductive Variable : List Token → Token → Option Expr → Prop
  | plain {keyword name semicolon : Token} :
      keyword.kind = .varWord → name.kind = .identifier → semicolon.kind = .semicolon →
      Variable [keyword, name, semicolon] name none
  | initialized {keyword name equal semicolon : Token} {tokens : List Token} {value : Expr} :
      keyword.kind = .varWord → name.kind = .identifier → equal.kind = .equal →
      Expression .assignment tokens value → semicolon.kind = .semicolon →
      Variable (keyword :: name :: equal :: (tokens ++ [semicolon])) name (some value)

/-- The first clause of a loop with clauses. -/
inductive FirstClause : List Token → Option LoopStart → Prop
  | var {tokens : List Token} {name : Token} {initializer : Option Expr} :
      Variable tokens name initializer → FirstClause tokens (some (.var name initializer))
  | expression {tokens : List Token} {value : Expr} {semicolon : Token} :
      Expression .assignment tokens value → semicolon.kind = .semicolon →
      FirstClause (tokens ++ [semicolon]) (some (.expression value))
  | absent {semicolon : Token} : semicolon.kind = .semicolon → FirstClause [semicolon] none

/-- The tokens and the tree of a statement at a position. -/
inductive Statement : Position → List Token → Stmt → Prop
  | function {keyword name opening closing brace last : Token} {parameterTokens : List Token}
      {parameters : List Token} {body : List (Phrase Stmt)} :
      keyword.kind = .funWord → name.kind = .identifier → opening.kind = .leftParen →
      Parameters parameterTokens parameters → closing.kind = .rightParen →
      brace.kind = .leftBrace →
      (∀ phrase ∈ body, Statement .declaration phrase.tokens phrase.tree) →
      last.kind = .rightBrace →
      Statement .declaration
        (keyword :: name :: opening ::
          (parameterTokens ++ closing :: brace :: (spelled body ++ [last])))
        (.function name parameters (body.map Phrase.tree))
  | var {tokens : List Token} {name : Token} {initializer : Option Expr} :
      Variable tokens name initializer → Statement .declaration tokens (.var name initializer)
  | plain {tokens : List Token} {tree : Stmt} :
      Statement .body tokens tree → Statement .declaration tokens tree
  | expression {tokens : List Token} {value : Expr} {semicolon : Token} :
      Expression .assignment tokens value → semicolon.kind = .semicolon →
      Statement .body (tokens ++ [semicolon]) (.expression value)
  | forLoop {keyword opening semicolon closing : Token}
      {startTokens conditionTokens incrementTokens bodyTokens : List Token}
      {start : Option LoopStart} {condition increment : Option Expr} {body : Stmt} :
      keyword.kind = .forWord → opening.kind = .leftParen → FirstClause startTokens start →
      OptionalExpression conditionTokens condition → semicolon.kind = .semicolon →
      OptionalExpression incrementTokens increment → closing.kind = .rightParen →
      Statement .body bodyTokens body →
      Statement .body
        (keyword :: opening ::
          (startTokens ++ (conditionTokens ++
            semicolon :: (incrementTokens ++ closing :: bodyTokens))))
        (.forLoop start condition increment body)
  | ifThen {keyword opening closing : Token} {conditionTokens thenTokens : List Token}
      {condition : Expr} {thenBranch : Stmt} :
      keyword.kind = .ifWord → opening.kind = .leftParen →
      Expression .assignment conditionTokens condition → closing.kind = .rightParen →
      Statement .body thenTokens thenBranch →
      Statement .body (keyword :: opening :: (conditionTokens ++ closing :: thenTokens))
        (.ifThen condition thenBranch)
  | ifElse {keyword opening closing word : Token}
      {conditionTokens thenTokens elseTokens : List Token}
      {condition : Expr} {thenBranch elseBranch : Stmt} :
      keyword.kind = .ifWord → opening.kind = .leftParen →
      Expression .assignment conditionTokens condition → closing.kind = .rightParen →
      Statement .body thenTokens thenBranch → word.kind = .elseWord →
      Statement .body elseTokens elseBranch →
      Statement .body
        (keyword :: opening ::
          (conditionTokens ++ closing :: (thenTokens ++ word :: elseTokens)))
        (.ifElse condition thenBranch elseBranch)
  | print {keyword semicolon : Token} {tokens : List Token} {value : Expr} :
      keyword.kind = .printWord → Expression .assignment tokens value →
      semicolon.kind = .semicolon →
      Statement .body (keyword :: (tokens ++ [semicolon])) (.print value)
  | whileLoop {keyword opening closing : Token} {conditionTokens bodyTokens : List Token}
      {condition : Expr} {body : Stmt} :
      keyword.kind = .whileWord → opening.kind = .leftParen →
      Expression .assignment conditionTokens condition → closing.kind = .rightParen →
      Statement .body bodyTokens body →
      Statement .body (keyword :: opening :: (conditionTokens ++ closing :: bodyTokens))
        (.whileLoop condition body)
  | block {opening closing : Token} {body : List (Phrase Stmt)} :
      opening.kind = .leftBrace →
      (∀ phrase ∈ body, Statement .declaration phrase.tokens phrase.tree) →
      closing.kind = .rightBrace →
      Statement .body (opening :: (spelled body ++ [closing])) (.block (body.map Phrase.tree))

/-- Every expression has tokens. -/
theorem Expression.ne_nil {rank : Rank} {tokens : List Token} {tree : Expr}
    (expression : Expression rank tokens tree) : tokens ≠ [] := by
  induction expression with
  | operation _ ih => exact ih
  | chain _ _ _ _ ih _ => simp [ih]
  | unprefixed _ ih => exact ih
  | uncalled _ ih => exact ih
  | _ => simp

/-- Every statement has tokens. -/
theorem Statement.ne_nil {position : Position} {tokens : List Token} {tree : Stmt}
    (statement : Statement position tokens tree) : tokens ≠ [] := by
  induction statement with
  | var declaration => cases declaration <;> simp
  | plain _ ih => exact ih
  | _ => simp

/-- The tokens and the tree of a program: declarations that follow one another. -/
def IsProgram (tokens : List Token) (program : List Stmt) : Prop :=
  ∃ items : List (Phrase Stmt),
    (∀ item ∈ items, Statement .declaration item.tokens item.tree) ∧
      tokens = spelled items ∧ program = items.map Phrase.tree

/-- The tokens are those of a program. -/
def Sentence (tokens : List Token) : Prop :=
  ∃ program, IsProgram tokens program

/-- The tokens are the beginning of those of a program. -/
def Viable (tokens : List Token) : Prop :=
  ∃ more, Sentence (tokens ++ more)

end Lox.Grammar
