import Lox.Proofs.Reading.Delivery
import Lox.Proofs.Reading.Expressions

/-!
# Which expressions the readers deliver

Every expression of the grammar is delivered by the reader of its rank, with the tree that the
grammar gives it, once there is as much fuel as it has tokens. It may be followed by whatever does
not make a longer expression of that rank.

The calls behind a callee are read in rounds, so a call is delivered to the rounds that are left.
-/

namespace Lox.Source

open Lox.Grammar Parse

variable {fuel : Nat} {nested : Parse Expr} {follow : List Token → Prop}

/-- The levels of operators that an expression of a rank may have outside parentheses. -/
def levelsOf : Rank → List Level
  | .assignment | .disjunction => Level.all
  | .conjunction => [.conjunction, .equality, .comparison, .sum, .product]
  | .equality => [.equality, .comparison, .sum, .product]
  | .comparison => [.comparison, .sum, .product]
  | .sum => [.sum, .product]
  | .product => [.product]
  | .unary | .call | .primary => []

/-- The reader of the expressions of a rank. -/
def rankReader (fuel : Nat) (nested : Parse Expr) : Rank → Parse Expr
  | .assignment => assignment fuel nested
  | .call => calls fuel nested
  | .primary => primary nested
  | rank => (levelsOf rank).foldr (chain fuel) (unary fuel nested)

/-- The reader of a chain has the reader of its operands inside. -/
theorem rankReader_chain (fuel : Nat) (nested : Parse Expr) {rank operand : Rank}
    {operators : List Kind} {join : Expr → Token → Expr → Expr}
    (rule : ChainRule rank operators operand join) :
    ∃ level : Level, operators = level.operators ∧ join = level.join ∧
      rankReader fuel nested rank = chain fuel level (rankReader fuel nested operand) := by
  cases rule with
  | disjunction => exact ⟨.disjunction, rfl, rfl, rfl⟩
  | conjunction => exact ⟨.conjunction, rfl, rfl, rfl⟩
  | equality => exact ⟨.equality, rfl, rfl, rfl⟩
  | comparison => exact ⟨.comparison, rfl, rfl, rfl⟩
  | sum => exact ⟨.sum, rfl, rfl, rfl⟩
  | product => exact ⟨.product, rfl, rfl, rfl⟩

/-- The rest of a chain with no operator ahead. -/
theorem delivers_chainRest_nil (level : Level) (operand : Parse Expr) (left : Expr) :
    Delivers (Avoids level.operators) (chainRest level operand fuel left) [] left := by
  cases fuel with
  | zero => exact Delivers.pure left
  | succ fuel => exact Delivers.accept_none_bind (fun _ avoids => avoids) (Delivers.pure left)

/-- What stands behind an operand of a chain may follow it. -/
theorem follow_linked {level : Level} {others : List (Link Expr)} {rest : List Token}
    (joints : ∀ link ∈ others, link.joint.kind ∈ level.operators)
    (operator : ∀ token rest, token.kind ∈ level.operators → follow (token :: rest))
    (follows : follow rest) : follow (linked others ++ rest) := by
  cases others with
  | nil => exact follows
  | cons link others => exact operator link.joint _ (joints link (by simp))

/-- The rest of a chain. -/
theorem delivers_chainRest (level : Level) {operand : Parse Expr} {others : List (Link Expr)}
    (enough : others.length ≤ fuel) (joints : ∀ link ∈ others, link.joint.kind ∈ level.operators)
    (delivers : ∀ link ∈ others, Delivers follow operand link.tokens link.tree)
    (operator : ∀ token rest, token.kind ∈ level.operators → follow (token :: rest))
    (left : Expr) :
    Delivers (fun rest => follow rest ∧ Avoids level.operators rest)
      (chainRest level operand fuel left) (linked others)
      (others.foldl (fun left link => level.join left link.joint link.tree) left) := by
  induction others generalizing fuel left with
  | nil => exact (delivers_chainRest_nil level operand left).mono fun _ follows => follows.2
  | cons link others ih =>
    obtain ⟨fuel, rfl⟩ := Nat.exists_eq_succ_of_ne_zero (Nat.ne_zero_of_lt enough)
    have joints' : ∀ link ∈ others, link.joint.kind ∈ level.operators :=
      fun link member => joints link (by simp [member])
    have inner := ih (by simpa using enough) joints'
      (fun link member => delivers link (by simp [member]))
      (level.join left link.joint link.tree)
    apply Delivers.accept_bind (joints link (by simp))
    exact (delivers link (by simp)).bind inner fun rest follows =>
      follow_linked joints' operator follows.1

/-- A list of links is no longer than its tokens. -/
theorem length_le_linked {α : Type} (links : List (Link α)) :
    links.length ≤ (linked links).length := by
  induction links with
  | nil => exact Nat.zero_le _
  | cons link links ih =>
    have split : linked (link :: links) = link.joint :: (link.tokens ++ linked links) := rfl
    simp only [split, List.length_cons, List.length_append]
    omega

/-- The tokens of a link are fewer than those of its list. -/
theorem length_lt_linked {α : Type} {links : List (Link α)} {link : Link α}
    (member : link ∈ links) : link.tokens.length < (linked links).length := by
  induction links with
  | nil => exact absurd member List.not_mem_nil
  | cons first links ih =>
    have split : linked (first :: links) = first.joint :: (first.tokens ++ linked links) := rfl
    simp only [split, List.length_cons, List.length_append]
    rcases List.mem_cons.mp member with rfl | inside
    · omega
    · have shorter := ih inside
      omega

/-- A prefix operator stands for itself in front of what is read behind it. -/
theorem unary_cons {operator : Token} (isPrefix : operator.kind ∈ prefixOperators)
    (tokens : List Token) :
    unary fuel nested (operator :: tokens) =
      (Expr.unary operator <$> unary fuel nested) tokens := by
  rw [map_eq_pure_bind, bind_apply, unary, bind_apply, bind_apply, acceptAll_cons isPrefix,
    acceptAll_apply]
  dsimp only
  rw [bind_apply, bind_apply]
  cases calls fuel nested (tokens.dropWhile fun token => decide (token.kind ∈ prefixOperators)) <;>
    rfl

/-- Without prefix operators an operand is a call. -/
theorem unary_of_avoids {tokens : List Token} (avoids : Avoids prefixOperators tokens) :
    unary fuel nested tokens = calls fuel nested tokens := by
  rw [unary, bind_apply, acceptAll_of_avoids avoids]
  dsimp only
  rw [bind_apply]
  cases calls fuel nested tokens <;> rfl

/-- No call behind a callee. -/
theorem delivers_callsRest_nil (callee : Expr) :
    Delivers (Avoids [.leftParen]) (callsRest nested fuel callee) [] callee := by
  cases fuel with
  | zero => exact Delivers.pure callee
  | succ fuel => exact Delivers.accept_none_bind (fun _ avoids => avoids) (Delivers.pure callee)

/-- One call behind a callee, without arguments or with the ones that are read. -/
theorem callsRest_cons {opening closing : Token} {argumentTokens : List Token}
    {arguments : Option (List Expr)} (isOpening : opening.kind = .leftParen)
    (isClosing : closing.kind = .rightParen)
    (delivers : Delivers (BeginsWith [.rightParen])
      (optionalBefore .rightParen (separated nested fuel)) argumentTokens arguments)
    (callee : Expr) (rest : List Token) :
    callsRest nested (fuel + 1) callee (opening :: (argumentTokens ++ closing :: rest)) =
      callsRest nested fuel (.call callee (arguments.getD []) closing) rest := by
  rw [callsRest, bind_apply, Parse.accept, if_pos (by simp [isOpening])]
  dsimp only
  rw [bind_apply, delivers (closing :: rest) ⟨closing, rest, rfl, by simp [isClosing]⟩]
  dsimp only
  rw [bind_apply, Parse.expect, if_pos isClosing]

/-- Around an operand without operators ahead, every level of chains is that operand. -/
theorem delivers_levels {operand : Parse Expr} {tokens : List Token} {tree : Expr}
    (delivers : Delivers follow operand tokens tree) (levels : List Level) :
    Delivers (fun rest => follow rest ∧ ∀ level ∈ levels, Avoids level.operators rest)
      (levels.foldr (chain fuel) operand) tokens tree := by
  induction levels with
  | nil => exact delivers.mono fun _ follows => follows.1
  | cons level levels ih =>
    rw [← List.append_nil tokens]
    refine ih.bind ((delivers_chainRest_nil level _ tree).mono ?_) ?_
    · exact fun rest follows => follows.2 level (by simp)
    · exact fun rest follows => ⟨follows.1, fun inner member => follows.2 inner (by simp [member])⟩

/-- A literal takes its token. -/
theorem delivers_literal {token : Token} {value : Literal} (isLiteral : IsLiteral token value) :
    Delivers follow (primary nested) [token] (.literal value) := by
  intro rest _
  have found := (isLiteral_iff token value).mp isLiteral
  simp only [List.singleton_append, primary, found]

/-- A name takes its token. -/
theorem delivers_name {name : Token} (isName : name.kind = .identifier) :
    Delivers follow (primary nested) [name] (.variable name) := by
  intro rest _
  have noLiteral : Literal.ofToken? name = none := by simp [Literal.ofToken?, isName]
  simp only [List.singleton_append, primary, noLiteral, if_pos isName]

/-- An expression in parentheses takes its tokens. -/
theorem delivers_grouping {opening closing : Token} {tokens : List Token} {inner : Expr}
    (isOpening : opening.kind = .leftParen) (isClosing : closing.kind = .rightParen)
    (delivers : Delivers (BeginsWith [.rightParen]) nested tokens inner) :
    Delivers follow (primary nested) (opening :: (tokens ++ [closing])) (.grouping inner) := by
  have tail : Delivers follow
      (nested >>= fun inner => expect .rightParen >>= fun _ => pure (Expr.grouping inner))
      (tokens ++ [closing]) (.grouping inner) :=
    delivers.bind (Delivers.expect_bind isClosing (Delivers.pure (Expr.grouping inner)))
      fun rest _ => ⟨closing, rest, rfl, by simp [isClosing]⟩
  intro rest follows
  have noLiteral : Literal.ofToken? opening = none := by simp [Literal.ofToken?, isOpening]
  have noName : opening.kind ≠ .identifier := by simp [isOpening]
  simp only [List.cons_append, primary, noLiteral, if_neg noName, if_pos isOpening]
  exact tail rest follows

/-- Some expression of a rank is delivered by the reader of that rank. Calls are delivered to the
calls behind them, with the fuel that is left. -/
def Delivered (fuel : Nat) : Rank → List Token → Expr → Prop
  | .call, tokens, tree =>
    ∃ spare, fuel ≤ spare + tokens.length ∧ ∀ rest,
      calls fuel (expression fuel) (tokens ++ rest) = callsRest (expression fuel) spare tree rest
  | rank, tokens, tree =>
    Delivers (Avoids rank.continuing) (rankReader fuel (expression fuel) rank) tokens tree

/-- A chain and its operands are delivered by the readers of their ranks. -/
theorem delivered_chain {rank operand : Rank} {operators : List Kind}
    {join : Expr → Token → Expr → Expr} (rule : ChainRule rank operators operand join)
    (fuel : Nat) :
    Delivered fuel rank =
        Delivers (Avoids rank.continuing) (rankReader fuel (expression fuel) rank) ∧
      Delivered fuel operand =
        Delivers (Avoids operand.continuing) (rankReader fuel (expression fuel) operand) := by
  cases rule <;> exact ⟨rfl, rfl⟩

/-- Whatever is delivered as an expression is delivered with one more unit of fuel at the outside,
which pays for the nesting. -/
theorem delivers_expression {tokens : List Token} {tree : Expr}
    (delivered : ∀ fuel, tokens.length ≤ fuel → Delivered fuel .assignment tokens tree)
    (enough : tokens.length < fuel) :
    Delivers (Avoids Rank.assignment.continuing) (expression fuel) tokens tree := by
  obtain ⟨fuel, rfl⟩ := Nat.exists_eq_succ_of_ne_zero (Nat.ne_zero_of_lt enough)
  exact delivered fuel (Nat.le_of_lt_succ enough)

/-- An operation that no equals sign follows is the whole expression. -/
theorem delivers_operation {tokens : List Token} {value : Expr}
    (delivers : Delivers (Avoids Rank.disjunction.continuing) (operation fuel nested) tokens value) :
    Delivers (Avoids Rank.assignment.continuing) (assignment fuel nested) tokens value := by
  intro rest avoids
  have noEqual : rest.head?.map Token.kind ≠ some .equal := by
    intro same
    obtain ⟨token, isFirst, isEqual⟩ := Option.map_eq_some_iff.mp same
    exact avoids token isFirst (by rw [isEqual]; decide)
  rw [assignment, bind_apply, delivers rest (avoids.mono (by decide))]
  dsimp only
  rw [peek_bind_apply, if_neg noEqual]
  rfl

/-- A name by itself is an operation. -/
theorem delivers_target {name : Token} (isName : name.kind = .identifier) :
    Delivers (Avoids Rank.disjunction.continuing) (operation fuel nested) [name]
      (.variable name) := by
  have isCall : Delivers (Avoids [.leftParen]) (calls fuel nested) ([name] ++ []) (.variable name) :=
    (delivers_name isName).bind (delivers_callsRest_nil _) fun _ avoids => avoids
  have isUnary : Delivers (Avoids [.leftParen]) (unary fuel nested) [name] (.variable name) := by
    intro rest avoids
    have noPrefix : Avoids prefixOperators ([name] ++ rest) := by
      rw [List.singleton_append, avoids_cons, isName]
      decide
    rw [unary_of_avoids noPrefix]
    exact isCall rest avoids
  refine (delivers_levels isUnary Level.all).mono fun rest avoids => ⟨avoids.mono (by decide), ?_⟩
  intro level _
  cases level <;> exact avoids.mono (by decide)

/-- A name, an equals sign and a value are an assignment. -/
theorem delivers_assign {name equal : Token} {tokens : List Token} {value : Expr}
    (isName : name.kind = .identifier) (isEqual : equal.kind = .equal)
    (delivers : Delivers follow nested tokens value) :
    Delivers follow (assignment fuel nested) (name :: equal :: tokens) (.assign name value) := by
  intro rest follows
  have noOperator : Avoids Rank.disjunction.continuing (equal :: (tokens ++ rest)) := by
    rw [avoids_cons, isEqual]
    decide
  have target : operation fuel nested (name :: equal :: (tokens ++ rest)) =
      .ok (.variable name, equal :: (tokens ++ rest)) :=
    delivers_target isName _ noOperator
  rw [assignment, bind_apply, List.cons_append, List.cons_append, target]
  dsimp only
  rw [peek_bind_apply, if_pos (by simp [isEqual])]
  exact (delivers.bind_pure (Expr.assign name)).expect_bind isEqual rest follows

/-- A closing parenthesis ends an expression. -/
theorem avoids_of_rightParen {rest : List Token} (begins : BeginsWith [.rightParen] rest) :
    Avoids Rank.assignment.continuing rest :=
  begins.avoids (by decide)

/-- Every expression is delivered by the reader of its rank. -/
theorem delivered_of_expression {rank : Rank} {tokens : List Token} {tree : Expr}
    (isExpression : Expression rank tokens tree) (enough : tokens.length ≤ fuel) :
    Delivered fuel rank tokens tree := by
  induction isExpression generalizing fuel with
  | assign isName isEqual _ ih =>
    simp only [List.length_cons] at enough
    exact delivers_assign isName isEqual
      (delivers_expression (fun fuel enough => ih enough) (by omega))
  | operation _ ih => exact delivers_operation (ih enough)
  | @chain rank operand _ _ tokens first others rule isFirst joints operands ih ihs =>
    simp only [List.length_append] at enough
    obtain ⟨level, rfl, rfl, reader⟩ := rankReader_chain fuel (expression fuel) rule
    have shorter := length_le_linked others
    have delivers : Delivered fuel operand tokens first := ih (by omega)
    have delivers' : ∀ link ∈ others, Delivered fuel operand link.tokens link.tree := by
      intro link member
      have linkShorter := length_lt_linked member
      exact ihs link member (by omega)
    rw [(delivered_chain rule fuel).2] at delivers delivers'
    rw [(delivered_chain rule fuel).1, reader, rule.continuing_eq]
    have operator (token : Token) (rest : List Token) (isOperator : token.kind ∈ level.operators) :
        Avoids operand.continuing (token :: rest) :=
      avoids_cons.mpr (rule.operator_not_continuing token.kind isOperator)
    apply (delivers.bind (delivers_chainRest level (by omega) joints delivers' operator first)
      fun rest follows => follow_linked joints operator follows.1).mono
    intro rest avoids
    exact ⟨avoids.mono (List.subset_append_right _ _), avoids.mono (List.subset_append_left _ _)⟩
  | prefixed isPrefix _ ih =>
    intro rest avoids
    simp only [List.length_cons] at enough
    change unary fuel (expression fuel) _ = _
    rw [List.cons_append, unary_cons (by simpa [prefixOperators] using isPrefix)]
    have delivers : Delivered fuel .unary _ _ := ih (by omega)
    exact delivers.map (Expr.unary _) rest avoids
  | unprefixed isCall ih =>
    intro rest avoids
    obtain ⟨spare, -, isRest⟩ := ih enough
    have noPrefix : Avoids prefixOperators _ := (isCall.begins.append rest).avoids (by decide)
    change unary fuel (expression fuel) _ = _
    rw [unary_of_avoids noPrefix, isRest]
    exact delivers_callsRest_nil _ rest avoids
  | uncalled _ ih =>
    refine ⟨fuel, by omega, fun rest => ?_⟩
    have delivers := ih enough rest fun _ _ member => List.not_mem_nil member
    change primary (expression fuel) _ = _ at delivers
    rw [calls, bind_apply, delivers]
  | @callEmpty tokens _ _ _ _ isOpening isClosing ih =>
    simp only [List.length_append, List.length_cons, List.length_nil] at enough
    obtain ⟨spare, large, isRest⟩ := ih (show tokens.length ≤ fuel by omega)
    obtain ⟨spare, rfl⟩ := Nat.exists_eq_succ_of_ne_zero (show spare ≠ 0 by omega)
    refine ⟨spare, by simp only [List.length_append, List.length_cons]; omega, fun rest => ?_⟩
    rw [List.append_assoc, isRest]
    exact callsRest_cons isOpening isClosing (Delivers.optionalBefore_none .rightParen _) _ rest
  | @callWith tokens firstTokens _ _ others opening closing _ isOpening isFirst commas _ isClosing
      ih first ihs =>
    simp only [List.length_append, List.length_cons, List.length_nil] at enough
    obtain ⟨spare, large, isRest⟩ := ih (show tokens.length ≤ fuel by omega)
    obtain ⟨spare, rfl⟩ := Nat.exists_eq_succ_of_ne_zero (show spare ≠ 0 by omega)
    refine ⟨spare, by simp only [List.length_append, List.length_cons]; omega, fun rest => ?_⟩
    have shorter := length_le_linked others
    have delivers : Delivers (Avoids Rank.assignment.continuing) (expression fuel) firstTokens _ :=
      delivers_expression (fun fuel enough => first enough) (by omega)
    have delivers' : ∀ link ∈ others,
        Delivers (Avoids Rank.assignment.continuing) (expression fuel) link.tokens link.tree := by
      intro link member
      have linkShorter := length_lt_linked member
      exact delivers_expression (fun fuel enough => ihs link member enough) (by omega)
    have arguments := delivers.separated (show others.length < spare by omega) commas delivers'
      fun token rest isComma => avoids_cons.mpr (by rw [isComma]; decide)
    have present (rest : List Token) :
        Avoids [.rightParen] ((firstTokens ++ linked others) ++ rest) :=
      ((isFirst.begins.append _).append rest).avoids (by decide)
    have ends := (arguments.optionalBefore_some present).mono fun rest begins =>
      ⟨avoids_of_rightParen begins, begins.avoids (by decide)⟩
    have split : tokens ++ opening :: (firstTokens ++ linked others ++ [closing]) ++ rest =
        tokens ++ (opening :: ((firstTokens ++ linked others) ++ closing :: rest)) := by simp
    rw [split, isRest]
    exact callsRest_cons isOpening isClosing ends _ rest
  | literal isLiteral => exact delivers_literal isLiteral
  | named isName => exact delivers_name isName
  | grouping isOpening _ isClosing ih =>
    simp only [List.length_append, List.length_cons, List.length_nil] at enough
    refine delivers_grouping isOpening isClosing (Delivers.mono ?_ fun _ => avoids_of_rightParen)
    exact delivers_expression (fun fuel enough => ih enough) (by omega)

/-- Every expression is delivered with more fuel than it has tokens. -/
theorem delivers_of_expression {tokens : List Token} {tree : Expr}
    (isExpression : Expression .assignment tokens tree) (enough : tokens.length < fuel) :
    Delivers (Avoids Rank.assignment.continuing) (expression fuel) tokens tree :=
  delivers_expression (fun _ enough => delivered_of_expression isExpression enough) enough

end Lox.Source
