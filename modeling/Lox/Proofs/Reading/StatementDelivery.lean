import Lox.Proofs.Grammar.Alternative
import Lox.Proofs.Reading.ExpressionDelivery
import Lox.Proofs.Reading.Statements

/-!
# Which statements the readers deliver

Every settled statement of the grammar is delivered by its reader once there is as much fuel as it
has tokens. A statement that could take an alternative may be followed by whatever is none, and
every other statement by anything.

So a program is read with the settled tree of its tokens, and there is no other such tree.
-/

namespace Lox.Source

open Lox.Grammar Parse

variable {fuel : Nat} {follow : List Token → Prop}

/-- An expression and the semicolon that ends it. -/
theorem delivers_terminated {tokens : List Token} {value : Expr} {semicolon : Token}
    (isValue : Expression .assignment tokens value) (isSemicolon : semicolon.kind = .semicolon)
    (enough : tokens.length < fuel) :
    Delivers follow (terminated fuel) (tokens ++ [semicolon]) value := by
  apply (delivers_of_expression isValue enough).bind
    (Delivers.expect_bind isSemicolon (Delivers.pure value))
  intro rest _
  rw [List.singleton_append, avoids_cons, isSemicolon]
  decide

/-- A condition in parentheses, and what follows it. -/
theorem delivers_condition {β : Type} {opening closing : Token} {tokens more : List Token}
    {value : Expr} {next : Expr → Parse β} {final : β} (isOpening : opening.kind = .leftParen)
    (isValue : Expression .assignment tokens value) (isClosing : closing.kind = .rightParen)
    (enough : tokens.length < fuel) (delivers : Delivers follow (next value) more final) :
    Delivers follow (condition fuel >>= next) (opening :: (tokens ++ closing :: more)) final := by
  have inParens : Delivers (fun _ => True) (condition fuel) (opening :: (tokens ++ [closing]))
      value := by
    refine Delivers.expect_bind isOpening ((delivers_of_expression isValue enough).bind
      (Delivers.expect_bind isClosing (Delivers.pure value)) fun rest _ => ?_)
    exact avoids_of_rightParen ⟨closing, rest, rfl, by simp [isClosing]⟩
  simpa using inParens.bind delivers fun _ _ => trivial

/-- An expression that may be left out, before the token that ends it. -/
theorem delivers_optional {kind : Kind} {tokens : List Token} {value : Option Expr}
    (isOptional : OptionalExpression tokens value) (noBeginning : kind ∉ Rank.assignment.beginning)
    (noContinuing : kind ∉ Rank.assignment.continuing) (enough : tokens.length < fuel) :
    Delivers (BeginsWith [kind]) (optionalBefore kind (expression fuel)) tokens value := by
  cases isOptional with
  | absent => exact Delivers.optionalBefore_none kind _
  | present isValue =>
    have starts (rest : List Token) : Avoids [kind] (tokens ++ rest) :=
      (isValue.begins.append rest).avoids fun other isBeginning same =>
        noBeginning (List.mem_singleton.mp same ▸ isBeginning)
    apply ((delivers_of_expression isValue enough).optionalBefore_some starts).mono
    exact fun rest begins => begins.avoids fun other same =>
      List.mem_singleton.mp same ▸ noContinuing

/-- The rest of a variable declaration. -/
theorem delivers_variableTail {keyword : Token} {tokens : List Token} {name : Token}
    {initializer : Option Expr} (declaration : Variable (keyword :: tokens) name initializer)
    (enough : tokens.length < fuel) :
    Delivers follow (variableTail fuel) tokens (name, initializer) := by
  cases declaration with
  | @plain _ _ semicolon _ isName isSemicolon =>
    refine Delivers.expect_bind isName (Delivers.accept_none_bind ?_ ?_)
    · intro rest _
      rw [List.singleton_append, avoids_cons, isSemicolon]
      decide
    · exact Delivers.expect_bind isSemicolon (Delivers.pure _)
  | @initialized _ _ _ semicolon _ value _ isName isEqual isValue isSemicolon =>
    simp only [List.length_cons, List.length_append] at enough
    refine Delivers.expect_bind isName (Delivers.accept_bind (by simp [isEqual]) ?_)
    apply (delivers_of_expression isValue (by omega)).bind
      (Delivers.expect_bind isSemicolon (Delivers.pure (name, some value)))
    intro rest _
    rw [List.singleton_append, avoids_cons, isSemicolon]
    decide

/-- The parameters of a function before the parenthesis that closes them. -/
theorem delivers_parameters {tokens parameters : List Token}
    (areParameters : Parameters tokens parameters) (enough : tokens.length ≤ fuel) :
    ∃ found : Option (List Token), found.getD [] = parameters ∧
      Delivers (BeginsWith [.rightParen])
        (optionalBefore .rightParen (separated (expect .identifier) fuel)) tokens found := by
  cases areParameters with
  | absent => exact ⟨none, rfl, Delivers.optionalBefore_none .rightParen _⟩
  | @present first others isName commas names =>
    refine ⟨some (first :: others.map fun link => link.tree), rfl, ?_⟩
    have shorter := length_le_linked others
    simp only [List.length_cons] at enough
    have delivers : ∀ link ∈ others,
        Delivers (fun _ => True) (expect .identifier) link.tokens link.tree := by
      intro link member
      rw [(names link member).2]
      exact Delivers.expect (names link member).1
    have items := (Delivers.expect isName).separated (show others.length < fuel by omega) commas
      delivers fun _ _ _ => trivial
    have starts (rest : List Token) : Avoids [.rightParen] (([first] ++ linked others) ++ rest) :=
      avoids_cons.mpr (by rw [isName]; decide)
    exact (items.optionalBefore_some starts).mono fun rest begins =>
      ⟨trivial, begins.avoids (by decide)⟩

/-- A declaration of a variable begins with its keyword. -/
theorem Variable.eq_cons {tokens : List Token} {name : Token} {initializer : Option Expr}
    (declaration : Variable tokens name initializer) :
    ∃ keyword rest, tokens = keyword :: rest ∧ keyword.kind = .varWord := by
  cases declaration with
  | plain isKeyword => exact ⟨_, _, rfl, isKeyword⟩
  | initialized isKeyword => exact ⟨_, _, rfl, isKeyword⟩

/-- The first clause of a loop. -/
theorem delivers_loopStart {tokens : List Token} {start : Option LoopStart}
    (isStart : FirstClause tokens start) (enough : tokens.length ≤ fuel) :
    Delivers follow (loopStart fuel) tokens start := by
  cases isStart with
  | @var _ name initializer declaration =>
    obtain ⟨keyword, rest, rfl, isKeyword⟩ := Variable.eq_cons declaration
    have noSemicolon : keyword.kind ≠ .semicolon := by simp [isKeyword]
    apply Delivers.accept_bind (by simp [isKeyword])
    dsimp only
    rw [if_neg noSemicolon]
    rw [List.length_cons] at enough
    have delivers : Delivers follow (variableTail fuel) rest (name, initializer) :=
      delivers_variableTail declaration (by omega)
    exact delivers.bind_pure fun declared => some (LoopStart.var declared.1 declared.2)
  | @expression inside value semicolon isValue isSemicolon =>
    simp only [List.length_cons, List.length_append, List.length_nil] at enough
    have delivers : Delivers follow (terminated fuel) (inside ++ [semicolon]) value :=
      delivers_terminated isValue isSemicolon (by omega)
    refine Delivers.accept_none_bind ?_ ((delivers.map LoopStart.expression).map some)
    exact fun rest _ => ((isValue.begins.append _).append rest).avoids (by decide)
  | absent isSemicolon =>
    apply Delivers.accept_bind (by simp [isSemicolon])
    dsimp only
    rw [if_pos isSemicolon]
    exact Delivers.pure none

/-- Some statements are no longer than their tokens. -/
theorem length_le_spelled {phrases : List (Phrase Stmt)}
    (declarations : ∀ phrase ∈ phrases, Statement .declaration phrase.tokens phrase.tree) :
    phrases.length ≤ (spelled phrases).length := by
  induction phrases with
  | nil => exact Nat.zero_le _
  | cons phrase phrases ih =>
    have split : spelled (phrase :: phrases) = phrase.tokens ++ spelled phrases := rfl
    have shorter := ih fun phrase member => declarations phrase (by simp [member])
    have positive := List.length_pos_iff.mpr (declarations phrase (by simp)).ne_nil
    rw [split, List.length_append, List.length_cons]
    omega

/-- A phrase is no longer than some that it is one of. -/
theorem length_le_of_mem_spelled {α : Type} {phrases : List (Phrase α)} {phrase : Phrase α}
    (member : phrase ∈ phrases) : phrase.tokens.length ≤ (spelled phrases).length := by
  have sublist : phrase.tokens.Sublist (spelled phrases) :=
    List.sublist_flatten_of_mem (List.mem_map_of_mem member)
  exact sublist.length_le

/-- Whatever may follow a statement: only what is no alternative, if it could take one. -/
def MayFollow (tree : Stmt) (rest : List Token) : Prop :=
  tree.isOpen = true → Avoids [.elseWord] rest

/-- Declarations that are delivered one by one are delivered up to a token that ends them. -/
theorem delivers_items {stop : Option Kind} {reader : Parse Stmt} {items : List (Phrase Stmt)}
    (enough : items.length ≤ fuel) (noStatement : ∀ kind ∈ statementKinds, some kind ≠ stop)
    (declarations : ∀ item ∈ items, Statement .declaration item.tokens item.tree)
    (delivers : ∀ item ∈ items, Delivers (MayFollow item.tree) reader item.tokens item.tree) :
    Delivers (fun rest => Avoids [.elseWord] rest ∧ rest.head?.map Token.kind = stop)
      (itemsUntil stop reader fuel) (spelled items) (items.map Phrase.tree) := by
  refine Delivers.itemsUntil enough ?_ ?_ ?_
  · exact fun item member => (delivers item member).mono fun rest avoids _ => avoids
  · intro item member rest
    exact ((declarations item member).begins.append rest).avoids (by decide)
  · intro item member rest same
    obtain ⟨first, others, whole, isKind⟩ := (declarations item member).begins.append rest
    rw [whole] at same
    exact noStatement first.kind isKind same

variable {nested : Position → Parse Stmt}

/-- Declarations and the brace that closes them. -/
theorem delivers_blockTail {body : List (Phrase Stmt)} {closing : Token}
    (isClosing : closing.kind = .rightBrace) (enough : (spelled body).length ≤ fuel)
    (declarations : ∀ phrase ∈ body, Statement .declaration phrase.tokens phrase.tree)
    (delivers : ∀ phrase ∈ body,
      Delivers (MayFollow phrase.tree) (nested .declaration) phrase.tokens phrase.tree) :
    Delivers follow (blockTail fuel nested) (spelled body ++ [closing])
      (body.map Phrase.tree) := by
  have shorter := length_le_spelled declarations
  have items := delivers_items (show body.length ≤ fuel by omega)
    (show ∀ kind ∈ statementKinds, some kind ≠ some .rightBrace by decide) declarations delivers
  refine items.bind (Delivers.expect_bind isClosing (Delivers.pure _)) fun rest _ => ⟨?_, ?_⟩
  · rw [List.singleton_append, avoids_cons, isClosing]
    decide
  · simp [isClosing]

variable {place : Position}

/-- An expression with its semicolon is delivered as a statement. -/
theorem delivers_expressionStatement {tokens : List Token} {value : Expr} {semicolon : Token}
    (isValue : Expression .assignment tokens value) (isSemicolon : semicolon.kind = .semicolon)
    (enough : tokens.length < fuel) :
    Delivers follow (statementWith fuel nested place) (tokens ++ [semicolon])
      (.expression value) := by
  have delivers : Delivers follow (terminated fuel) (tokens ++ [semicolon]) value :=
    delivers_terminated isValue isSemicolon enough
  refine Delivers.accept_none_bind (fun rest _ => ?_) (delivers.map Stmt.expression)
  cases place <;> exact ((isValue.begins.append _).append rest).avoids (by decide)

/-- A declaration of a variable is delivered. -/
theorem delivers_varStatement {tokens : List Token} {name : Token} {initializer : Option Expr}
    (declaration : Variable tokens name initializer) (enough : tokens.length ≤ fuel) :
    Delivers follow (statementWith fuel nested .declaration) tokens (.var name initializer) := by
  obtain ⟨keyword, rest, rfl, isKeyword⟩ := Variable.eq_cons declaration
  rw [List.length_cons] at enough
  have delivers : Delivers follow (variableTail fuel) rest (name, initializer) :=
    delivers_variableTail declaration (by omega)
  apply Delivers.accept_bind (by rw [isKeyword]; decide)
  simp only [isKeyword]
  exact delivers.bind_pure fun declared => Stmt.var declared.1 declared.2

/-- A declaration of a function is delivered when its body is. -/
theorem delivers_function {keyword name opening closing brace last : Token}
    {parameterTokens parameters : List Token} {body : List (Phrase Stmt)}
    (isKeyword : keyword.kind = .funWord) (isName : name.kind = .identifier)
    (isOpening : opening.kind = .leftParen) (areParameters : Parameters parameterTokens parameters)
    (isClosing : closing.kind = .rightParen) (isBrace : brace.kind = .leftBrace)
    (declarations : ∀ phrase ∈ body, Statement .declaration phrase.tokens phrase.tree)
    (isLast : last.kind = .rightBrace) (enough : parameterTokens.length ≤ fuel)
    (enough' : (spelled body).length ≤ fuel)
    (delivers : ∀ phrase ∈ body,
      Delivers (MayFollow phrase.tree) (nested .declaration) phrase.tokens phrase.tree) :
    Delivers follow (statementWith fuel nested .declaration)
      (keyword :: name :: opening :: (parameterTokens ++ closing :: brace :: (spelled body ++ [last])))
      (.function name parameters (body.map Phrase.tree)) := by
  obtain ⟨found, rfl, delivers'⟩ := delivers_parameters areParameters enough
  have block : Delivers follow (blockTail fuel nested) (spelled body ++ [last])
      (body.map Phrase.tree) :=
    delivers_blockTail isLast enough' declarations delivers
  apply Delivers.accept_bind (by rw [isKeyword]; decide)
  simp only [isKeyword]
  refine Delivers.expect_bind isName (Delivers.expect_bind isOpening ?_)
  refine delivers'.bind ?_ fun rest _ => ⟨closing, _, rfl, by simp [isClosing]⟩
  refine Delivers.expect_bind isClosing (Delivers.expect_bind isBrace ?_)
  exact block.bind_pure (Stmt.function name (found.getD []))

/-- A loop with clauses is delivered when its body is. -/
theorem delivers_forLoop {keyword opening semicolon closing : Token}
    {startTokens conditionTokens incrementTokens bodyTokens : List Token}
    {start : Option LoopStart} {condition increment : Option Expr} {body : Stmt}
    (isKeyword : keyword.kind = .forWord) (isOpening : opening.kind = .leftParen)
    (isStart : FirstClause startTokens start)
    (isCondition : OptionalExpression conditionTokens condition)
    (isSemicolon : semicolon.kind = .semicolon)
    (isIncrement : OptionalExpression incrementTokens increment)
    (isClosing : closing.kind = .rightParen) (enough : startTokens.length ≤ fuel)
    (enough' : conditionTokens.length < fuel) (enough'' : incrementTokens.length < fuel)
    (delivers : Delivers follow (nested .body) bodyTokens body) :
    Delivers follow (statementWith fuel nested place)
      (keyword :: opening ::
        (startTokens ++ (conditionTokens ++
          semicolon :: (incrementTokens ++ closing :: bodyTokens))))
      (.forLoop start condition increment body) := by
  have first : Delivers (fun _ => True) (loopStart fuel) startTokens start :=
    delivers_loopStart isStart enough
  have second := delivers_optional isCondition (show Kind.semicolon ∉ _ by decide) (by decide) enough'
  have third := delivers_optional isIncrement (show Kind.rightParen ∉ _ by decide) (by decide) enough''
  apply Delivers.accept_bind (by rw [isKeyword]; cases place <;> decide)
  simp only [isKeyword]
  refine Delivers.expect_bind isOpening (first.bind ?_ fun _ _ => trivial)
  refine second.bind ?_ fun rest _ => ⟨semicolon, _, rfl, by simp [isSemicolon]⟩
  apply Delivers.expect_bind isSemicolon
  refine third.bind ?_ fun rest _ => ⟨closing, _, rfl, by simp [isClosing]⟩
  exact Delivers.expect_bind isClosing (delivers.bind_pure (Stmt.forLoop start condition increment))

/-- A conditional without an alternative is delivered when its branch is, before anything that is
no alternative. -/
theorem delivers_ifThen {keyword opening closing : Token} {conditionTokens thenTokens : List Token}
    {condition : Expr} {thenBranch : Stmt} (isKeyword : keyword.kind = .ifWord)
    (isOpening : opening.kind = .leftParen)
    (isCondition : Expression .assignment conditionTokens condition)
    (isClosing : closing.kind = .rightParen) (enough : conditionTokens.length < fuel)
    (delivers : Delivers (MayFollow thenBranch) (nested .body) thenTokens thenBranch) :
    Delivers (Avoids [.elseWord]) (statementWith fuel nested place)
      (keyword :: opening :: (conditionTokens ++ closing :: thenTokens))
      (.ifThen condition thenBranch) := by
  apply Delivers.accept_bind (by rw [isKeyword]; cases place <;> decide)
  simp only [isKeyword]
  apply delivers_condition isOpening isCondition isClosing enough
  rw [← List.append_nil thenTokens]
  exact delivers.bind (Delivers.accept_none_bind (fun _ avoids => avoids) (Delivers.pure _))
    fun rest avoids _ => avoids

/-- A conditional with an alternative is delivered when its branches are, and the first of them
cannot take the alternative. -/
theorem delivers_ifElse {keyword opening closing word : Token}
    {conditionTokens thenTokens elseTokens : List Token} {condition : Expr}
    {thenBranch elseBranch : Stmt} (isKeyword : keyword.kind = .ifWord)
    (isOpening : opening.kind = .leftParen)
    (isCondition : Expression .assignment conditionTokens condition)
    (isClosing : closing.kind = .rightParen) (isWord : word.kind = .elseWord)
    (enough : conditionTokens.length < fuel) (isClosed : thenBranch.isOpen = false)
    (delivers : Delivers (MayFollow thenBranch) (nested .body) thenTokens thenBranch)
    (delivers' : Delivers follow (nested .body) elseTokens elseBranch) :
    Delivers follow (statementWith fuel nested place)
      (keyword :: opening :: (conditionTokens ++ closing :: (thenTokens ++ word :: elseTokens)))
      (.ifElse condition thenBranch elseBranch) := by
  apply Delivers.accept_bind (by rw [isKeyword]; cases place <;> decide)
  simp only [isKeyword]
  apply delivers_condition isOpening isCondition isClosing enough
  refine delivers.bind ?_ fun rest _ isOpen => absurd isOpen (by simp [isClosed])
  exact Delivers.accept_bind (by simp [isWord]) (delivers'.bind_pure (Stmt.ifElse condition thenBranch))

/-- A loop without clauses is delivered when its body is. -/
theorem delivers_whileLoop {keyword opening closing : Token}
    {conditionTokens bodyTokens : List Token} {condition : Expr} {body : Stmt}
    (isKeyword : keyword.kind = .whileWord) (isOpening : opening.kind = .leftParen)
    (isCondition : Expression .assignment conditionTokens condition)
    (isClosing : closing.kind = .rightParen) (enough : conditionTokens.length < fuel)
    (delivers : Delivers follow (nested .body) bodyTokens body) :
    Delivers follow (statementWith fuel nested place)
      (keyword :: opening :: (conditionTokens ++ closing :: bodyTokens))
      (.whileLoop condition body) := by
  apply Delivers.accept_bind (by rw [isKeyword]; cases place <;> decide)
  simp only [isKeyword]
  exact delivers_condition isOpening isCondition isClosing enough
    (delivers.bind_pure (Stmt.whileLoop condition))

/-- A printing statement is delivered. -/
theorem delivers_print {keyword semicolon : Token} {tokens : List Token} {value : Expr}
    (isKeyword : keyword.kind = .printWord) (isValue : Expression .assignment tokens value)
    (isSemicolon : semicolon.kind = .semicolon) (enough : tokens.length < fuel) :
    Delivers follow (statementWith fuel nested place) (keyword :: (tokens ++ [semicolon]))
      (.print value) := by
  apply Delivers.accept_bind (by rw [isKeyword]; cases place <;> decide)
  simp only [isKeyword]
  exact (delivers_terminated isValue isSemicolon enough).map Stmt.print

/-- A block is delivered when its declarations are. -/
theorem delivers_block {opening closing : Token} {body : List (Phrase Stmt)}
    (isOpening : opening.kind = .leftBrace)
    (declarations : ∀ phrase ∈ body, Statement .declaration phrase.tokens phrase.tree)
    (isClosing : closing.kind = .rightBrace) (enough : (spelled body).length ≤ fuel)
    (delivers : ∀ phrase ∈ body,
      Delivers (MayFollow phrase.tree) (nested .declaration) phrase.tokens phrase.tree) :
    Delivers follow (statementWith fuel nested place) (opening :: (spelled body ++ [closing]))
      (.block (body.map Phrase.tree)) := by
  apply Delivers.accept_bind (by rw [isOpening]; cases place <;> decide)
  simp only [isOpening]
  exact (delivers_blockTail isClosing enough declarations delivers).map Stmt.block

/-- A statement is read with one unit of fuel less inside. -/
theorem statement_eq (positive : 0 < fuel) (place : Position) :
    statement fuel place = statementWith fuel (statement (fuel - 1)) place := by
  obtain ⟨fuel, rfl⟩ := Nat.exists_eq_succ_of_ne_zero (Nat.ne_zero_of_lt positive)
  rfl

/-- Every settled statement is delivered wherever it may stand. -/
theorem delivers_of_statement {position : Position} {tokens : List Token} {tree : Stmt}
    (isStatement : Statement position tokens tree) (settled : tree.NearestElse)
    (enough : tokens.length ≤ fuel) (allowed : position = .declaration → place = .declaration) :
    Delivers (MayFollow tree) (statement fuel place) tokens tree := by
  induction isStatement generalizing fuel place with
  | @function _ _ _ _ _ _ parameterTokens _ body isKeyword isName isOpening areParameters isClosing
      isBrace declarations isLast ih =>
    obtain rfl := allowed rfl
    simp only [List.length_cons, List.length_append, List.length_nil] at enough
    rw [statement_eq (by omega)]
    have each := (Stmt.nearestElseAll_iff _).mp settled
    apply delivers_function isKeyword isName isOpening areParameters isClosing isBrace declarations
      isLast (by omega) (by omega)
    intro phrase member
    have shorter := length_le_of_mem_spelled member
    exact ih phrase member (each _ (List.mem_map_of_mem member)) (by omega) id
  | var declaration =>
    obtain rfl := allowed rfl
    have positive := List.length_pos_iff.mpr (Statement.var declaration).ne_nil
    rw [statement_eq (by omega)]
    exact delivers_varStatement declaration enough
  | plain _ ih => exact ih settled enough fun _ => allowed rfl
  | expression isValue isSemicolon =>
    simp only [List.length_cons, List.length_append, List.length_nil] at enough
    rw [statement_eq (by omega)]
    exact delivers_expressionStatement isValue isSemicolon (by omega)
  | @forLoop _ _ _ _ startTokens conditionTokens incrementTokens bodyTokens _ _ _ body isKeyword
      isOpening isStart isCondition isSemicolon isIncrement isClosing isBody ih =>
    simp only [List.length_cons, List.length_append] at enough
    rw [statement_eq (by omega)]
    refine delivers_forLoop isKeyword isOpening isStart isCondition isSemicolon isIncrement isClosing
      (by omega) (by omega) (by omega) ?_
    exact ih settled (by omega) fun impossible => nomatch impossible
  | @ifThen _ _ _ conditionTokens thenTokens _ thenBranch isKeyword isOpening isCondition isClosing
      isThen ih =>
    simp only [List.length_cons, List.length_append] at enough
    rw [statement_eq (by omega)]
    refine Delivers.mono ?_ fun rest follows => follows rfl
    apply delivers_ifThen isKeyword isOpening isCondition isClosing (by omega)
    exact ih settled (by omega) fun impossible => nomatch impossible
  | @ifElse _ _ _ _ conditionTokens thenTokens elseTokens _ _ _ isKeyword isOpening isCondition
      isClosing isThen isWord isElse thenIh elseIh =>
    simp only [List.length_cons, List.length_append] at enough
    obtain ⟨isClosed, settledThen, settledElse⟩ := settled
    rw [statement_eq (by omega)]
    refine delivers_ifElse isKeyword isOpening isCondition isClosing isWord (by omega) isClosed ?_ ?_
    · exact thenIh settledThen (by omega) fun impossible => nomatch impossible
    · exact elseIh settledElse (by omega) fun impossible => nomatch impossible
  | print isKeyword isValue isSemicolon =>
    simp only [List.length_cons, List.length_append, List.length_nil] at enough
    rw [statement_eq (by omega)]
    exact delivers_print isKeyword isValue isSemicolon (by omega)
  | @whileLoop _ _ _ conditionTokens bodyTokens _ _ isKeyword isOpening isCondition isClosing isBody
      ih =>
    simp only [List.length_cons, List.length_append] at enough
    rw [statement_eq (by omega)]
    apply delivers_whileLoop isKeyword isOpening isCondition isClosing (by omega)
    exact ih settled (by omega) fun impossible => nomatch impossible
  | @block _ _ body isOpening declarations isClosing ih =>
    simp only [List.length_cons, List.length_append, List.length_nil] at enough
    rw [statement_eq (by omega)]
    have each := (Stmt.nearestElseAll_iff _).mp settled
    apply delivers_block isOpening declarations isClosing (by omega)
    intro phrase member
    have shorter := length_le_of_mem_spelled member
    exact ih phrase member (each _ (List.mem_map_of_mem member)) (by omega) id

/-- A program with a settled tree is read with that tree up to its end. -/
theorem declarations_of_program {tokens : List Token} {program : List Stmt}
    (isProgram : IsProgram tokens program) (settled : Stmt.NearestElseAll program)
    (enough : tokens.length ≤ fuel) : declarations fuel tokens = .ok (program, []) := by
  obtain ⟨items, areDeclarations, rfl, rfl⟩ := isProgram
  have each := (Stmt.nearestElseAll_iff _).mp settled
  have shorter := length_le_spelled areDeclarations
  have delivers : ∀ item ∈ items,
      Delivers (MayFollow item.tree) (statement fuel .declaration) item.tokens item.tree := by
    intro item member
    have itemShorter := length_le_of_mem_spelled member
    exact delivers_of_statement (areDeclarations item member)
      (each _ (List.mem_map_of_mem member)) (by omega) id
  have whole := delivers_items (show items.length ≤ fuel by omega)
    (show ∀ kind ∈ statementKinds, some kind ≠ none by decide) areDeclarations delivers
    [] ⟨avoids_nil _, rfl⟩
  rwa [List.append_nil] at whole

/-- The tokens of a program have one settled tree. -/
theorem settled_unique {tokens : List Token} {first second : List Stmt}
    (isProgram : IsProgram tokens first) (settled : Stmt.NearestElseAll first)
    (isProgram' : IsProgram tokens second) (settled' : Stmt.NearestElseAll second) :
    first = second := by
  have readFirst := declarations_of_program isProgram settled (le_refl tokens.length)
  have readSecond := declarations_of_program isProgram' settled' (le_refl tokens.length)
  rw [readFirst] at readSecond
  cases readSecond
  rfl

end Lox.Source
