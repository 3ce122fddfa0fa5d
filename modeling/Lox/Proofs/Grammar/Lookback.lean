import Lox.Proofs.Grammar.Operands

/-!
# What stands before equals signs and stars

An equals sign of a program stands behind a name, and not behind the name that is the right operand of an
operator. A star stands behind the end of an operand, and not behind the head of a statement or of a
function.

Both are told from the tokens before by the last two of them and by the parentheses that are open: each is
known to open a head or not, and so is the one that is closed last.
-/

namespace Lox.Grammar

open Source

/-- The kinds that an operand ends with. -/
def operandEnds : List Kind :=
  .identifier :: .rightParen :: literalKinds

/-- The kinds that stand before the parentheses of a head, or before the name in front of them. -/
def headKinds : List Kind :=
  [.ifWord, .whileWord, .forWord, .funWord, .identifier]

/-- The kinds that begin or end a phrase of its own. -/
def phraseKinds : List Kind :=
  [.semicolon, .leftBrace, .rightBrace, .elseWord, .printWord]

/-- What the tokens before a point of a program tell about it: the kinds of the last two, which of the open
parentheses open a head, and whether the last token closes one. -/
structure Lookback where
  before : Option Kind
  last : Option Kind
  heads : List Bool
  closesHead : Bool

namespace Lookback

/-- The point in front of all tokens. -/
def start : Lookback :=
  ⟨none, none, [], false⟩

/-- A parenthesis at this point opens a head. -/
def BeginsHead (point : Lookback) : Prop :=
  point.last ∈ [some .ifWord, some .whileWord, some .forWord] ∨
    point.before = some .funWord ∧ point.last = some .identifier

instance (point : Lookback) : Decidable point.BeginsHead :=
  inferInstanceAs (Decidable (_ ∨ _ ∧ _))

/-- The point behind a token of some kind. -/
def next (point : Lookback) (kind : Kind) : Lookback where
  before := point.last
  last := some kind
  heads :=
    if kind = .leftParen then decide point.BeginsHead :: point.heads
    else if kind = .rightParen then point.heads.tail
    else point.heads
  closesHead := kind = .rightParen ∧ point.heads.head? = some true

/-- The point behind some tokens. -/
def behind (point : Lookback) (tokens : List Token) : Lookback :=
  tokens.foldl (fun point token => point.next token.kind) point

/-- An equals sign may stand at this point. -/
def TakesEqual (point : Lookback) : Prop :=
  point.last = some .identifier ∧ point.before ∉ operatorKinds.map some

/-- A star may stand at this point. -/
def TakesStar (point : Lookback) : Prop :=
  point.last ∈ operandEnds.map some ∧ point.closesHead = false

/-- Each equals sign and each star stands where it may. -/
def Passes : Lookback → List Token → Prop
  | _, [] => True
  | point, token :: tokens =>
    (token.kind = .equal → point.TakesEqual) ∧ (token.kind = .star → point.TakesStar) ∧
      (point.next token.kind).Passes tokens

/-- A phrase may begin here that is not the parentheses of a head. -/
structure Free (point : Lookback) : Prop where
  noHead : ¬point.BeginsHead
  noName : point.last ≠ some .funWord

/-- A phrase may begin here that is not the parentheses of a head, and it is no operand of an operator. -/
structure Fresh (point : Lookback) : Prop extends point.Free where
  noOperator : point.last ∉ operatorKinds.map some

/-- A point behind an operand, in the same parentheses as another point. -/
structure IsBehindOperand (point other : Lookback) : Prop where
  heads : other.heads = point.heads
  free : other.Free
  ends : other.TakesStar

variable {point : Lookback}

@[simp]
theorem behind_append (tokens more : List Token) :
    point.behind (tokens ++ more) = (point.behind tokens).behind more :=
  List.foldl_append

@[simp]
theorem behind_cons (token : Token) (tokens : List Token) :
    point.behind (token :: tokens) = (point.next token.kind).behind tokens :=
  rfl

@[simp]
theorem behind_nil : point.behind [] = point :=
  rfl

@[simp]
theorem passes_nil : point.Passes [] :=
  trivial

/-- Tokens one after another pass if the first ones do and the others behind them. -/
@[simp]
theorem passes_append {tokens more : List Token} :
    point.Passes (tokens ++ more) ↔ point.Passes tokens ∧ (point.behind tokens).Passes more := by
  induction tokens generalizing point with
  | nil => simp
  | cons token tokens ih => simp [Passes, ih, and_assoc]

/-- A token of another kind is not one of some kinds. -/
theorem last_next_notMem {kind : Kind} {kinds : List Kind} (isOther : kind ∉ kinds) :
    (point.next kind).last ∉ kinds.map some := by
  simpa [next] using isOther

/-- A phrase that is no head may begin behind a token of most kinds. -/
theorem free_next {kind : Kind} (noWord : kind ∉ headKinds) :
    (point.next kind).Free := by
  simp only [headKinds, List.mem_cons, List.not_mem_nil, or_false, not_or] at noWord
  obtain ⟨noIf, noWhile, noFor, noFun, noName⟩ := noWord
  constructor
  · simp [BeginsHead, next, noIf, noWhile, noFor, noName]
  · simpa [next] using noFun

/-- No head begins behind a name unless it is the name of a function. -/
theorem Free.next_identifier (free : point.Free) : (point.next .identifier).Free := by
  constructor
  · simpa [BeginsHead, next] using free.noName
  · simp [next]

/-- Only parentheses change which parentheses are open. -/
theorem heads_next {kind : Kind} (noParenthesis : kind ∉ [.leftParen, .rightParen]) :
    (point.next kind).heads = point.heads := by
  simp only [List.mem_cons, List.not_mem_nil, or_false, not_or] at noParenthesis
  rw [next, if_neg noParenthesis.1, if_neg noParenthesis.2]

/-- A parenthesis where no head begins is known to open none. -/
theorem Free.heads_next_opening (free : point.Free) :
    (point.next .leftParen).heads = false :: point.heads := by
  rw [next, if_pos rfl, decide_eq_false free.noHead]

/-- A parenthesis that closes no head closes an operand. -/
theorem isBehindOperand_closed {inner : Lookback} (isInner : inner.heads = false :: point.heads) :
    point.IsBehindOperand (inner.next .rightParen) where
  heads := by rw [next, if_neg (by decide), if_pos rfl, isInner, List.tail_cons]
  free := free_next (by decide)
  ends := by simp [TakesStar, next, isInner, operandEnds]

/-- The end of an operand depends on the point before by the open parentheses only. -/
theorem IsBehindOperand.of_heads {other last : Lookback} (isBehind : other.IsBehindOperand last)
    (same : other.heads = point.heads) : point.IsBehindOperand last :=
  ⟨isBehind.heads.trans same, isBehind.free, isBehind.ends⟩

/-- A token that is an operand passes. -/
theorem Free.operand (free : point.Free) {token : Token}
    (isOperand : token.kind ∈ Kind.identifier :: literalKinds) :
    point.Passes [token] ∧ point.IsBehindOperand (point.behind [token]) := by
  have noSign : ∀ kind ∈ Kind.identifier :: literalKinds, kind ≠ .equal ∧ kind ≠ .star := by decide
  have noParenthesis :
      ∀ kind ∈ Kind.identifier :: literalKinds, kind ∉ [.leftParen, .rightParen] := by decide
  have noWord : ∀ kind ∈ literalKinds, kind ∉ headKinds := by decide
  have isEnd : ∀ kind ∈ Kind.identifier :: literalKinds, kind ∈ operandEnds := by decide
  constructor
  · exact ⟨fun isEqual => absurd isEqual (noSign _ isOperand).1,
      fun isStar => absurd isStar (noSign _ isOperand).2, trivial⟩
  · constructor
    · exact heads_next (noParenthesis _ isOperand)
    · obtain isName | isLiteral := List.mem_cons.mp isOperand
      · rw [behind_cons, behind_nil, isName]
        exact free.next_identifier
      · exact free_next (noWord _ isLiteral)
    · constructor
      · exact List.mem_map_of_mem (isEnd _ isOperand)
      · have noClosing := noParenthesis _ isOperand
        simp only [List.mem_cons, List.not_mem_nil, or_false, not_or] at noClosing
        simp [next, noClosing]

/-- The kinds of the tokens between the phrases of a chain or a list. -/
def jointKinds : List Kind :=
  .comma :: operatorKinds

/-- A token between phrases passes behind an operand, and a phrase may begin behind it. -/
theorem IsBehindOperand.joint {other : Lookback} (isBehind : point.IsBehindOperand other) {joint : Token}
    (isJoint : joint.kind ∈ jointKinds) :
    other.Passes [joint] ∧ (other.next joint.kind).Free ∧
      (other.next joint.kind).heads = point.heads := by
  have noEqual : ∀ kind ∈ jointKinds, kind ≠ .equal := by decide
  have noParenthesis : ∀ kind ∈ jointKinds, kind ∉ [.leftParen, .rightParen] := by decide
  have noWord : ∀ kind ∈ jointKinds, kind ∉ headKinds := by decide
  refine ⟨⟨fun isEqual => absurd isEqual (noEqual _ isJoint), fun _ => isBehind.ends, trivial⟩,
    free_next (noWord _ isJoint), ?_⟩
  rw [heads_next (noParenthesis _ isJoint), isBehind.heads]

/-- Links pass behind an operand if their phrases pass behind their joints. -/
theorem IsBehindOperand.links {other : Lookback} (isBehind : point.IsBehindOperand other)
    {links : List (Link Expr)} (areJoints : ∀ link ∈ links, link.joint.kind ∈ jointKinds)
    (phrases : ∀ link ∈ links, ∀ front : Lookback, (front.next link.joint.kind).Free →
      (front.next link.joint.kind).Passes link.tokens ∧
        (front.next link.joint.kind).IsBehindOperand ((front.next link.joint.kind).behind link.tokens)) :
    other.Passes (linked links) ∧ point.IsBehindOperand (other.behind (linked links)) := by
  induction links generalizing other with
  | nil => exact ⟨trivial, isBehind⟩
  | cons link links ih =>
    rw [List.forall_mem_cons] at areJoints phrases
    obtain ⟨joint, free, heads⟩ := isBehind.joint areJoints.1
    obtain ⟨phrase, isEnd⟩ := phrases.1 other free
    obtain ⟨others, isLast⟩ := ih (isEnd.of_heads heads) areJoints.2 phrases.2
    rw [linked, List.flatMap_cons, List.cons_append, behind_cons, behind_append]
    exact ⟨⟨joint.1, joint.2.1, passes_append.mpr ⟨phrase, others⟩⟩, isLast⟩

/-- Parentheses that are no head pass if the tokens between them do. -/
theorem Free.enclosed (free : point.Free) {opening closing : Token} {tokens : List Token}
    (isOpening : opening.kind = .leftParen) (isClosing : closing.kind = .rightParen)
    (inner : (point.next .leftParen).Passes tokens)
    (heads : ((point.next .leftParen).behind tokens).heads = (point.next .leftParen).heads) :
    point.Passes (opening :: (tokens ++ [closing])) ∧
      point.IsBehindOperand (point.behind (opening :: (tokens ++ [closing]))) := by
  rw [free.heads_next_opening] at heads
  constructor
  · simp [Passes, isOpening, isClosing, inner]
  · simpa [isOpening, isClosing] using isBehindOperand_closed heads

end Lookback

/-- The operands of a chain are no assignments. -/
theorem ChainRule.operand_ne_assignment {rank operand : Rank} {operators : List Kind}
    {join : Expr → Token → Expr → Expr} (rule : ChainRule rank operators operand join) :
    operand ≠ .assignment := by
  cases rule <;> decide

/-- An expression passes where it may begin. -/
theorem Expression.passes {rank : Rank} {tokens : List Token} {tree : Expr}
    (expression : Expression rank tokens tree) {point : Lookback} (free : point.Free)
    (noOperator : rank ≠ .assignment ∨ point.last ∉ operatorKinds.map some) :
    point.Passes tokens ∧ point.IsBehindOperand (point.behind tokens) := by
  induction expression generalizing point with
  | assign isName isEqual _ ih =>
    obtain ⟨value, isEnd⟩ := @ih ((point.next .identifier).next .equal) (Lookback.free_next (by decide))
      (.inr (Lookback.last_next_notMem (by decide)))
    have heads : ((point.next .identifier).next .equal).heads = point.heads := by
      rw [Lookback.heads_next (by decide), Lookback.heads_next (by decide)]
    have behindEqual : (point.next .identifier).TakesEqual := ⟨rfl, noOperator.resolve_left (· rfl)⟩
    constructor
    · simp [Lookback.Passes, isName, isEqual, behindEqual, value]
    · simpa [isName, isEqual] using isEnd.of_heads heads
  | operation _ ih => exact ih free (.inl (by decide))
  | chain rule _ joints _ ih ihs =>
    obtain ⟨first, isFirst⟩ := ih free (.inl rule.operand_ne_assignment)
    have areJoints := fun link isLink =>
      List.mem_cons_of_mem Kind.comma (rule.operator_mem_operatorKinds _ (joints link isLink))
    obtain ⟨others, isEnd⟩ := isFirst.links areJoints fun link isLink front freeFront =>
      ihs link isLink freeFront (.inl rule.operand_ne_assignment)
    rw [Lookback.behind_append]
    exact ⟨Lookback.passes_append.mpr ⟨first, others⟩, isEnd⟩
  | @prefixed operator _ _ isPrefix _ ih =>
    have noWord : operator.kind ∉ headKinds := by
      obtain isKind | isKind := isPrefix <;> rw [isKind] <;> decide
    have noParenthesis : operator.kind ∉ [.leftParen, .rightParen] := by
      obtain isKind | isKind := isPrefix <;> rw [isKind] <;> decide
    have noSign : operator.kind ≠ .equal ∧ operator.kind ≠ .star := by
      obtain isKind | isKind := isPrefix <;> rw [isKind] <;> decide
    obtain ⟨inner, isEnd⟩ :=
      @ih (point.next operator.kind) (Lookback.free_next noWord) (.inl (by decide))
    rw [Lookback.behind_cons]
    exact ⟨⟨fun isEqual => absurd isEqual noSign.1, fun isStar => absurd isStar noSign.2, inner⟩,
      isEnd.of_heads (Lookback.heads_next noParenthesis)⟩
  | unprefixed _ ih => exact ih free (.inl (by decide))
  | uncalled _ ih => exact ih free (.inl (by decide))
  | callEmpty _ isOpening isClosing ih =>
    obtain ⟨callee, isCallee⟩ := ih free (.inl (by decide))
    obtain ⟨arguments, isEnd⟩ := isCallee.free.enclosed isOpening isClosing Lookback.passes_nil rfl
    rw [Lookback.behind_append]
    exact ⟨Lookback.passes_append.mpr ⟨callee, arguments⟩, isEnd.of_heads isCallee.heads⟩
  | callWith _ isOpening _ commas _ isClosing ih first others =>
    obtain ⟨callee, isCallee⟩ := ih free (.inl (by decide))
    obtain ⟨argument, isArgument⟩ := @first (Lookback.next (Lookback.behind _ _) .leftParen)
      (Lookback.free_next (by decide)) (.inr (Lookback.last_next_notMem (by decide)))
    obtain ⟨further, isLast⟩ := isArgument.links (fun link isLink => commas link isLink ▸ by decide)
      fun link isLink front freeFront => others link isLink freeFront
        (.inr (Lookback.last_next_notMem (commas link isLink ▸ by decide)))
    obtain ⟨arguments, isEnd⟩ := isCallee.free.enclosed isOpening isClosing
      (Lookback.passes_append.mpr ⟨argument, further⟩)
      (by rw [Lookback.behind_append]; exact isLast.heads)
    rw [Lookback.behind_append]
    exact ⟨Lookback.passes_append.mpr ⟨callee, arguments⟩, isEnd.of_heads isCallee.heads⟩
  | literal isLiteral => exact free.operand (List.mem_cons_of_mem _ isLiteral.kind_mem_literalKinds)
  | named isName => exact free.operand (isName ▸ List.mem_cons_self)
  | grouping isOpening _ isClosing ih =>
    obtain ⟨inner, isInner⟩ := @ih (point.next .leftParen) (Lookback.free_next (by decide))
      (.inr (Lookback.last_next_notMem (by decide)))
    exact free.enclosed isOpening isClosing inner isInner.heads

namespace Lookback

variable {point : Lookback}

/-- Tokens pass, and the same parentheses are open behind them. -/
structure Keeps (point : Lookback) (tokens : List Token) : Prop where
  passes : point.Passes tokens
  heads : (point.behind tokens).heads = point.heads

/-- An empty phrase passes. -/
theorem keeps_nil : point.Keeps [] :=
  ⟨trivial, rfl⟩

/-- Tokens one after another pass if the first ones do and the others behind them. -/
theorem Keeps.append {tokens more : List Token} (first : point.Keeps tokens)
    (others : (point.behind tokens).Keeps more) : point.Keeps (tokens ++ more) where
  passes := passes_append.mpr ⟨first.passes, others.passes⟩
  heads := by rw [behind_append, others.heads, first.heads]

/-- Most tokens pass everywhere. -/
theorem Keeps.cons {token : Token} {kind : Kind} {tokens : List Token} (isKind : token.kind = kind)
    (isPlain : kind ∉ [.equal, .star, .leftParen, .rightParen])
    (others : (point.next kind).Keeps tokens) :
    point.Keeps (token :: tokens) := by
  simp only [List.mem_cons, List.not_mem_nil, or_false, not_or] at isPlain
  obtain ⟨noEqual, noStar, noOpening, noClosing⟩ := isPlain
  subst isKind
  constructor
  · exact ⟨fun isEqual => absurd isEqual noEqual, fun isStar => absurd isStar noStar, others.passes⟩
  · rw [behind_cons, others.heads, heads_next (by simp [noOpening, noClosing])]

/-- A semicolon passes everywhere. -/
theorem keeps_semicolon {semicolon : Token} (isSemicolon : semicolon.kind = .semicolon) :
    point.Keeps [semicolon] :=
  .cons isSemicolon (by decide) keeps_nil

/-- A phrase of its own may begin behind most tokens. -/
theorem fresh_next {kind : Kind} (isPlain : kind ∉ headKinds ++ operatorKinds) :
    (point.next kind).Fresh := by
  rw [List.mem_append, not_or] at isPlain
  exact ⟨free_next isPlain.1, last_next_notMem isPlain.2⟩

/-- An equals sign passes behind the name of a variable. -/
theorem keeps_initializer {name equal : Token} {tokens : List Token} (isName : name.kind = .identifier)
    (isEqual : equal.kind = .equal) (noOperator : point.last ∉ operatorKinds.map some)
    (value : ((point.next .identifier).next .equal).Keeps tokens) :
    point.Keeps (name :: equal :: tokens) := by
  have behindName : (point.next .identifier).TakesEqual := ⟨rfl, noOperator⟩
  refine .cons isName (by decide) ⟨?_, ?_⟩
  · simpa [Passes, isEqual, behindName] using value.passes
  · rw [behind_cons, isEqual, value.heads, heads_next (by decide)]

/-- The parentheses of a head pass if the tokens between them do, and the last one is known to close it. -/
theorem BeginsHead.enclosed (begins : point.BeginsHead) {opening closing : Token} {tokens : List Token}
    (isOpening : opening.kind = .leftParen) (isClosing : closing.kind = .rightParen)
    (inner : (point.next .leftParen).Keeps tokens) :
    point.Keeps (opening :: (tokens ++ [closing])) ∧
      (point.behind (opening :: (tokens ++ [closing]))).Fresh ∧
      (point.behind (opening :: (tokens ++ [closing]))).closesHead = true := by
  have heads : ((point.next .leftParen).behind tokens).heads = true :: point.heads := by
    rw [inner.heads, next, if_pos rfl, decide_eq_true begins]
  have passes : point.Passes (opening :: (tokens ++ [closing])) := by
    simp [Passes, isOpening, isClosing, inner.passes]
  have isBehind : point.behind (opening :: (tokens ++ [closing])) =
      ((point.next .leftParen).behind tokens).next .rightParen := by
    simp [isOpening, isClosing]
  generalize (point.next .leftParen).behind tokens = last at heads isBehind
  rw [isBehind]
  exact ⟨⟨passes, by simp [isBehind, next, heads]⟩, fresh_next (by decide), by simp [next, heads]⟩

end Lookback

/-- The head of a statement or of a function, from its first word to its last parenthesis. -/
inductive Head : List Token → Prop
  | condition {keyword opening closing : Token} {tokens : List Token} {value : Expr} :
      keyword.kind = .ifWord ∨ keyword.kind = .whileWord → opening.kind = .leftParen →
      Expression .assignment tokens value → closing.kind = .rightParen →
      Head (keyword :: opening :: (tokens ++ [closing]))
  | clauses {keyword opening semicolon closing : Token}
      {startTokens conditionTokens incrementTokens : List Token} {start : Option LoopStart}
      {condition increment : Option Expr} :
      keyword.kind = .forWord → opening.kind = .leftParen → FirstClause startTokens start →
      OptionalExpression conditionTokens condition → semicolon.kind = .semicolon →
      OptionalExpression incrementTokens increment → closing.kind = .rightParen →
      Head (keyword :: opening ::
        (startTokens ++ (conditionTokens ++ semicolon :: incrementTokens) ++ [closing]))
  | parameters {keyword name opening closing : Token} {tokens parameters : List Token} :
      keyword.kind = .funWord → name.kind = .identifier → opening.kind = .leftParen →
      Parameters tokens parameters → closing.kind = .rightParen →
      Head (keyword :: name :: opening :: (tokens ++ [closing]))

section

variable {point : Lookback}

/-- An expression passes where a phrase of its own may begin. -/
theorem Expression.keeps {rank : Rank} {tokens : List Token} {tree : Expr}
    (expression : Expression rank tokens tree) (fresh : point.Fresh) : point.Keeps tokens := by
  obtain ⟨passes, isEnd⟩ := expression.passes fresh.toFree (.inr fresh.noOperator)
  exact ⟨passes, isEnd.heads⟩

/-- An optional expression passes where a phrase of its own may begin. -/
theorem OptionalExpression.keeps {tokens : List Token} {value : Option Expr}
    (expression : OptionalExpression tokens value) (fresh : point.Fresh) : point.Keeps tokens := by
  cases expression with
  | absent => exact Lookback.keeps_nil
  | present isValue => exact isValue.keeps fresh

/-- Parameters pass everywhere. -/
theorem Parameters.keeps {tokens parameters : List Token} (areParameters : Parameters tokens parameters) :
    point.Keeps tokens := by
  cases areParameters with
  | absent => exact Lookback.keeps_nil
  | @present first others isName commas names =>
    refine .cons isName (by decide) ?_
    generalize point.next .identifier = front
    clear isName
    induction others generalizing front with
    | nil => exact Lookback.keeps_nil
    | cons link others ih =>
      rw [List.forall_mem_cons] at commas names
      rw [linked, List.flatMap_cons, names.1.2]
      exact .cons commas.1 (by decide) (.cons names.1.1 (by decide) (ih commas.2 names.2 _))

/-- A declaration of a variable passes everywhere. -/
theorem Variable.keeps {tokens : List Token} {name : Token} {initializer : Option Expr}
    (declaration : Variable tokens name initializer) :
    point.Keeps tokens ∧ (point.behind tokens).Fresh := by
  cases declaration with
  | plain isKeyword isName isSemicolon =>
    refine ⟨.cons isKeyword (by decide) (.cons isName (by decide) (Lookback.keeps_semicolon isSemicolon)), ?_⟩
    simpa [isSemicolon] using Lookback.fresh_next (by decide)
  | initialized isKeyword isName isEqual isValue isSemicolon =>
    constructor
    · refine .cons isKeyword (by decide) (Lookback.keeps_initializer isName isEqual ?_ ?_)
      · exact Lookback.last_next_notMem (by decide)
      · exact (isValue.keeps (Lookback.fresh_next (by decide))).append (Lookback.keeps_semicolon isSemicolon)
    · simpa [isSemicolon] using Lookback.fresh_next (by decide)

/-- A first clause passes where a phrase of its own may begin. -/
theorem FirstClause.keeps {tokens : List Token} {start : Option LoopStart}
    (clause : FirstClause tokens start) (fresh : point.Fresh) :
    point.Keeps tokens ∧ (point.behind tokens).Fresh := by
  cases clause with
  | var declaration => exact declaration.keeps
  | expression isValue isSemicolon =>
    refine ⟨(isValue.keeps fresh).append (Lookback.keeps_semicolon isSemicolon), ?_⟩
    simpa [isSemicolon] using Lookback.fresh_next (by decide)
  | absent isSemicolon =>
    refine ⟨Lookback.keeps_semicolon isSemicolon, ?_⟩
    simpa [isSemicolon] using Lookback.fresh_next (by decide)

/-- A head passes everywhere, and its last parenthesis is known to close it. -/
theorem Head.keeps {tokens : List Token} (head : Head tokens) :
    point.Keeps tokens ∧ (point.behind tokens).Fresh ∧ (point.behind tokens).closesHead = true := by
  cases head with
  | @condition keyword _ _ _ _ isKeyword isOpening isCondition isClosing =>
    have begins : (point.next keyword.kind).BeginsHead := by
      obtain isWord | isWord := isKeyword <;> simp [Lookback.BeginsHead, Lookback.next, isWord]
    have isPlain : keyword.kind ∉ [.equal, .star, .leftParen, .rightParen] := by
      obtain isWord | isWord := isKeyword <;> rw [isWord] <;> decide
    obtain ⟨keeps, fresh, closes⟩ :=
      begins.enclosed isOpening isClosing (isCondition.keeps (Lookback.fresh_next (by decide)))
    exact ⟨.cons rfl isPlain keeps, fresh, closes⟩
  | clauses isKeyword isOpening start condition isSemicolon increment isClosing =>
    have begins : (point.next .forWord).BeginsHead := .inl (by simp [Lookback.next])
    have opened : ((point.next .forWord).next .leftParen).Fresh := Lookback.fresh_next (by decide)
    obtain ⟨first, fresh⟩ := start.keeps opened
    have inner := first.append ((condition.keeps fresh).append
      (.cons isSemicolon (by decide) (increment.keeps (@Lookback.fresh_next _ .semicolon (by decide)))))
    obtain ⟨keeps, fresh, closes⟩ := begins.enclosed isOpening isClosing inner
    rw [Lookback.behind_cons, isKeyword]
    exact ⟨.cons isKeyword (by decide) keeps, fresh, closes⟩
  | parameters isKeyword isName isOpening parameters isClosing =>
    have begins : ((point.next .funWord).next .identifier).BeginsHead := .inr ⟨rfl, rfl⟩
    obtain ⟨keeps, fresh, closes⟩ := begins.enclosed isOpening isClosing parameters.keeps
    rw [Lookback.behind_cons, Lookback.behind_cons, isKeyword, isName]
    exact ⟨.cons isKeyword (by decide) (.cons isName (by decide) keeps), fresh, closes⟩

end

/-- Where a phrase of its own may begin these tokens pass, and another one may begin behind them. -/
def Lookback.Neutral (tokens : List Token) : Prop :=
  ∀ point : Lookback, point.Fresh → point.Keeps tokens ∧ (point.behind tokens).Fresh

section

open Lookback

/-- An empty phrase is neutral. -/
theorem neutral_nil : Neutral [] :=
  fun _ fresh => ⟨keeps_nil, fresh⟩

/-- Neutral tokens one after another are neutral. -/
theorem Lookback.Neutral.append {tokens more : List Token} (first : Neutral tokens)
    (others : Neutral more) : Neutral (tokens ++ more) := by
  intro point fresh
  obtain ⟨keepsFirst, between⟩ := first point fresh
  obtain ⟨keepsOthers, last⟩ := others _ between
  rw [behind_append]
  exact ⟨keepsFirst.append keepsOthers, last⟩

/-- Neutral tokens stay neutral behind a token that begins or ends a phrase. -/
theorem Lookback.Neutral.cons {token : Token} {kind : Kind} {tokens : List Token} (others : Neutral tokens)
    (isKind : token.kind = kind) (isPlain : kind ∈ phraseKinds) :
    Neutral (token :: tokens) := by
  have passes : ∀ kind ∈ phraseKinds, kind ∉ [.equal, .star, .leftParen, .rightParen] := by decide
  have starts : ∀ kind ∈ phraseKinds, kind ∉ headKinds ++ operatorKinds := by decide
  intro point _
  obtain ⟨keeps, last⟩ := others _ (@fresh_next point kind (starts kind isPlain))
  rw [behind_cons, isKind]
  exact ⟨.cons isKind (passes kind isPlain) keeps, last⟩

/-- An expression and a semicolon are neutral. -/
theorem Expression.neutral {tokens : List Token} {tree : Expr} {semicolon : Token}
    (expression : Expression .assignment tokens tree) (isSemicolon : semicolon.kind = .semicolon) :
    Neutral (tokens ++ [semicolon]) := by
  intro point fresh
  rw [behind_append, behind_cons, behind_nil, isSemicolon]
  exact ⟨(expression.keeps fresh).append (keeps_semicolon isSemicolon), fresh_next (by decide)⟩

/-- Phrases one after another are neutral if each of them is. -/
theorem neutral_spelled {phrases : List (Phrase Stmt)}
    (each : ∀ phrase ∈ phrases, Neutral phrase.tokens) : Neutral (spelled phrases) := by
  induction phrases with
  | nil => exact neutral_nil
  | cons phrase phrases ih =>
    rw [List.forall_mem_cons] at each
    rw [spelled, List.flatMap_cons]
    exact each.1.append (ih each.2)

/-- A head is neutral. -/
theorem Head.neutral {tokens : List Token} (head : Head tokens) : Neutral tokens :=
  fun _ _ => ⟨head.keeps.1, head.keeps.2.1⟩

/-- A statement is neutral. -/
theorem Statement.neutral {position : Position} {tokens : List Token} {tree : Stmt}
    (statement : Statement position tokens tree) : Neutral tokens := by
  induction statement with
  | function isKeyword isName isOpening parameters isClosing isBrace _ isLast ih =>
    have head := Head.parameters isKeyword isName isOpening parameters isClosing
    have last := neutral_nil.cons isLast (by decide)
    have body := ((neutral_spelled ih).append last).cons isBrace (by decide)
    simpa using head.neutral.append body
  | var declaration => exact fun _ _ => declaration.keeps
  | plain _ ih => exact ih
  | expression isValue isSemicolon => exact isValue.neutral isSemicolon
  | forLoop isKeyword isOpening start condition isSemicolon increment isClosing _ ih =>
    have head := Head.clauses isKeyword isOpening start condition isSemicolon increment isClosing
    simpa using head.neutral.append ih
  | ifThen isKeyword isOpening condition isClosing _ ih =>
    have head := Head.condition (.inl isKeyword) isOpening condition isClosing
    simpa using head.neutral.append ih
  | ifElse isKeyword isOpening condition isClosing _ isWord _ thenIh elseIh =>
    have head := Head.condition (.inl isKeyword) isOpening condition isClosing
    simpa using head.neutral.append (thenIh.append (elseIh.cons isWord (by decide)))
  | print isKeyword isValue isSemicolon => exact (isValue.neutral isSemicolon).cons isKeyword (by decide)
  | whileLoop isKeyword isOpening condition isClosing _ ih =>
    have head := Head.condition (.inr isKeyword) isOpening condition isClosing
    simpa using head.neutral.append ih
  | block isOpening _ isClosing ih =>
    exact ((neutral_spelled ih).append (neutral_nil.cons isClosing (by decide))).cons isOpening (by decide)

/-- The beginning of a program passes from its start. -/
theorem Viable.passes {tokens : List Token} (viable : Viable tokens) : start.Passes tokens := by
  obtain ⟨more, _, items, declarations, whole, -⟩ := viable
  have fresh : start.Fresh := ⟨⟨by decide, by decide⟩, by decide⟩
  have neutral := neutral_spelled fun item isItem => (declarations item isItem).neutral
  have passes := (neutral start fresh).1.passes
  rw [← whole] at passes
  exact (passes_append.mp passes).1

/-- No equals sign may stand behind some tokens, whatever stands before them. -/
def RefusesEqual (tokens : List Token) : Prop :=
  ∀ point : Lookback, ¬(point.behind tokens).TakesEqual

/-- More tokens in front change nothing. -/
theorem RefusesEqual.append {tokens : List Token} (refuses : RefusesEqual tokens) (front : List Token) :
    RefusesEqual (front ++ tokens) := by
  intro point
  rw [behind_append]
  exact refuses _

/-- No equals sign may stand behind another token than a name. -/
theorem refusesEqual_single {token : Token} (noName : token.kind ≠ .identifier) : RefusesEqual [token] :=
  fun _ takes => noName (Option.some.inj takes.1)

/-- No equals sign may stand behind a name that an operator stands before. -/
theorem refusesEqual_name {operator name : Token} (isOperator : operator.kind ∈ operatorKinds) :
    RefusesEqual [operator, name] :=
  fun _ takes => takes.2 (List.mem_map_of_mem isOperator)

/-- No equals sign may stand behind an operation unless it is only a name. -/
theorem Expression.refusesEqual {rank : Rank} {tokens : List Token} {tree : Expr}
    (expression : Expression rank tokens tree) (noAssignment : rank ≠ .assignment) :
    RefusesEqual tokens ∨ ∃ name, tokens = [name] ∧ tree = .variable name := by
  induction expression with
  | assign | operation => exact absurd rfl noAssignment
  | @chain rank operand operators join tokens first others rule _ joints _ ih ihs =>
    rcases List.eq_nil_or_concat others with rfl | ⟨front, last, rfl⟩
    · simpa [linked] using ih rule.operand_ne_assignment
    · rw [List.concat_eq_append] at joints ihs ⊢
      have isOperator : last.joint.kind ∈ operatorKinds :=
        rule.operator_mem_operatorKinds _ (joints last (by simp))
      rw [linked_concat, ← List.append_assoc]
      refine .inl (RefusesEqual.append ?_ _)
      obtain refuses | ⟨name, isName, -⟩ := ihs last (by simp) rule.operand_ne_assignment
      · exact refuses.append [last.joint]
      · rw [isName]
        exact refusesEqual_name isOperator
  | @prefixed operator tokens _ isPrefix _ ih =>
    have isOperator : operator.kind ∈ operatorKinds := by
      obtain isKind | isKind := isPrefix <;> rw [isKind] <;> decide
    obtain refuses | ⟨name, rfl, -⟩ := ih (by decide)
    · exact .inl (refuses.append [operator])
    · exact .inl (refusesEqual_name isOperator)
  | unprefixed _ ih => exact ih (by decide)
  | uncalled _ ih => exact ih (by decide)
  | @callEmpty tokens _ opening closing _ _ isClosing =>
    have refuses := @refusesEqual_single closing (by rw [isClosing]; decide)
    exact .inl ((refuses.append [opening]).append tokens)
  | callWith _ _ _ _ _ isClosing =>
    have refuses := refusesEqual_single (by rw [isClosing]; decide)
    exact .inl (((refuses.append _).append [_]).append _)
  | literal isLiteral =>
    refine .inl (refusesEqual_single ?_)
    have noName : ∀ kind ∈ literalKinds, kind ≠ .identifier := by decide
    exact noName _ isLiteral.kind_mem_literalKinds
  | named => exact .inr ⟨_, rfl, rfl⟩
  | @grouping opening closing tokens _ _ _ isClosing =>
    have refuses := @refusesEqual_single closing (by rw [isClosing]; decide)
    exact .inl (refuses.append (opening :: tokens))

/-- No equals sign may stand behind a head. -/
theorem Head.refusesEqual {tokens : List Token} (head : Head tokens) : RefusesEqual tokens := by
  have closed {closing : Token} (isClosing : closing.kind = .rightParen) : RefusesEqual [closing] :=
    refusesEqual_single (by rw [isClosing]; decide)
  cases head with
  | condition _ _ _ isClosing => exact (closed isClosing).append (_ :: _ :: _)
  | clauses _ _ _ _ _ _ isClosing => exact (closed isClosing).append (_ :: _ :: _)
  | parameters _ _ _ _ isClosing => exact (closed isClosing).append (_ :: _ :: _ :: _)

end

end Lox.Grammar
