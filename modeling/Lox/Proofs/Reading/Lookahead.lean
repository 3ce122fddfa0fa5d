import Lox.Proofs.Reading.Statements

/-!
# One token of look-ahead

What a reader does depends on the tokens that it takes and on the next one alone. Nothing behind
that token matters, and neither does the fuel, once there is as much of it as there are tokens.

Both facts are one relation between readers: the second does on other tokens what the first does
on some, wherever the taken tokens and the next one are the same.
-/

namespace Lox.Source.Parse

variable {α β : Type}

/-- The tokens that a result leaves. -/
def left : Except Failure (α × List Token) → List Token
  | .ok (_, rest) => rest
  | .error failure => failure.rest

/-- A result with other tokens left. -/
def leaving (rest : List Token) :
    Except Failure (α × List Token) → Except Failure (α × List Token)
  | .ok (value, _) => .ok (value, rest)
  | .error failure => .error { failure with rest := rest }

/-- A second reader does what a first does on some tokens, wherever the tokens that the first
takes are followed by the same token. -/
def AgreeAt (tokens : List Token) (first second : Parse α) : Prop :=
  ∃ taken, tokens = taken ++ left (first tokens) ∧
    ∀ rest, rest.head? = (left (first tokens)).head? →
      second (taken ++ rest) = leaving rest (first tokens)

/-- A second reader does what a first does on fewer tokens than a bound. -/
def Agree (bound : Nat) (first second : Parse α) : Prop :=
  ∀ tokens, tokens.length < bound → AgreeAt tokens first second

variable {bound : Nat} {first second : Parse α} {next next' : α → Parse β}

/-- Readers agree below a smaller bound too. -/
theorem Agree.mono {smaller : Nat} (agree : Agree bound first second) (less : smaller ≤ bound) :
    Agree smaller first second :=
  fun tokens short => agree tokens (by omega)

/-- Below no bound there is nothing to agree about. -/
theorem Agree.zero : Agree 0 first second :=
  fun _ short => absurd short (Nat.not_lt_zero _)

/-- A reader leaves no more tokens than there were. -/
theorem AgreeAt.length_le {tokens rest : List Token} {value : α}
    (agree : AgreeAt tokens first second) (done : first tokens = .ok (value, rest)) :
    rest.length ≤ tokens.length := by
  obtain ⟨taken, split, -⟩ := agree
  rw [done] at split
  have lengths := congrArg List.length split
  simp only [left, List.length_append] at lengths
  omega

/-- Tokens in front of others hide what stands behind the first of those. -/
theorem head?_append_eq {taken rest rest' : List Token} (same : rest.head? = rest'.head?) :
    (taken ++ rest).head? = (taken ++ rest').head? := by
  cases taken with
  | nil => exact same
  | cons token others => rfl

/-- Readers in sequence agree when each does. -/
theorem AgreeAt.bind {tokens : List Token} (agree : AgreeAt tokens first second)
    (follow : ∀ value rest, first tokens = .ok (value, rest) →
      AgreeAt rest (next value) (next' value)) :
    AgreeAt tokens (first >>= next) (second >>= next') := by
  obtain ⟨taken, split, same⟩ := agree
  cases result : first tokens with
  | error failure =>
    rw [result] at split same
    have whole : (first >>= next) tokens = .error failure := by rw [bind_apply, result]
    rw [AgreeAt, whole]
    refine ⟨taken, split, fun rest head => ?_⟩
    rw [bind_apply, same rest head]
    rfl
  | ok success =>
    obtain ⟨value, middle⟩ := success
    rw [result] at split same
    obtain ⟨taken', split', same'⟩ := follow value middle result
    have whole : (first >>= next) tokens = next value middle := by rw [bind_apply, result]
    rw [AgreeAt, whole]
    refine ⟨taken ++ taken', ?_, ?_⟩
    · rw [List.append_assoc, ← split']
      exact split
    · intro rest head
      have headMiddle : (taken' ++ rest).head? = middle.head? := by
        rw [split']
        exact head?_append_eq head
      rw [List.append_assoc, bind_apply, same _ headMiddle]
      exact same' rest head

/-- Readers in sequence agree below a bound when each does. -/
theorem Agree.bind (agree : Agree bound first second)
    (follow : ∀ value, Agree bound (next value) (next' value)) :
    Agree bound (first >>= next) (second >>= next') := by
  intro tokens short
  refine (agree tokens short).bind fun value rest done => follow value rest ?_
  have shrinks := (agree tokens short).length_le done
  omega

/-- Whatever follows a reader that takes a token has one token less. -/
theorem Agree.bind_of_takes (agree : Agree (bound + 1) first second)
    (takes : ∀ tokens value rest, first tokens = .ok (value, rest) → rest.length < tokens.length)
    (follow : ∀ value, Agree bound (next value) (next' value)) :
    Agree (bound + 1) (first >>= next) (second >>= next') := by
  intro tokens short
  refine (agree tokens short).bind fun value rest done => follow value rest ?_
  have shrinks := takes tokens value rest done
  omega

/-- A value that is there without reading. -/
theorem Agree.pure (value : α) : Agree bound (Pure.pure value : Parse α) (Pure.pure value) :=
  fun _ _ => ⟨[], rfl, fun _ _ => rfl⟩

/-- A failure at an operand. -/
theorem Agree.failTarget : Agree bound (Parse.failTarget : Parse α) Parse.failTarget :=
  fun _ _ => ⟨[], rfl, fun _ _ => rfl⟩

/-- A changed value. -/
theorem Agree.map (change : α → β) (agree : Agree bound first second) :
    Agree bound (change <$> first) (change <$> second) := by
  rw [map_eq_pure_bind, map_eq_pure_bind]
  exact agree.bind fun value => Agree.pure (change value)

/-- The next token is the same. -/
theorem Agree.peek : Agree bound Parse.peek Parse.peek := by
  intro tokens _
  refine ⟨[], rfl, fun rest head => ?_⟩
  change Except.ok (rest.head?.map Token.kind, rest) = .ok (tokens.head?.map Token.kind, rest)
  rw [show rest.head? = tokens.head? from head]

/-- A look-ahead whose first token is another list's first token begins with it. -/
theorem eq_cons_of_head? {rest : List Token} {token : Token} {others : List Token}
    (head : rest.head? = (token :: others).head?) : ∃ more, rest = token :: more :=
  List.head?_eq_some_iff.mp head

/-- A token that has to be of a kind. -/
theorem agreeAt_expect (kind : Kind) (tokens : List Token) :
    AgreeAt tokens (Parse.expect kind) (Parse.expect kind) := by
  cases tokens with
  | nil =>
    refine ⟨[], rfl, fun rest head => ?_⟩
    rw [List.head?_eq_none_iff.mp head]
    rfl
  | cons token others =>
    by_cases isKind : token.kind = kind
    · have taken : Parse.expect kind (token :: others) = .ok (token, others) := if_pos isKind
      rw [AgreeAt, taken]
      exact ⟨[token], rfl, fun rest _ => if_pos isKind⟩
    · have stays (rest : List Token) :
          Parse.expect kind (token :: rest) = .error ⟨false, token :: rest⟩ := if_neg isKind
      rw [AgreeAt, stays]
      refine ⟨[], rfl, fun rest head => ?_⟩
      obtain ⟨more, rfl⟩ := eq_cons_of_head? head
      exact stays more

/-- A token that has to be of a kind, below a bound. -/
theorem Agree.expect (kind : Kind) : Agree bound (Parse.expect kind) (Parse.expect kind) :=
  fun tokens _ => agreeAt_expect kind tokens

/-- A token that may be of some kinds. -/
theorem agreeAt_accept (kinds : List Kind) (tokens : List Token) :
    AgreeAt tokens (Parse.accept kinds) (Parse.accept kinds) := by
  cases tokens with
  | nil =>
    refine ⟨[], rfl, fun rest head => ?_⟩
    rw [List.head?_eq_none_iff.mp head]
    rfl
  | cons token others =>
    by_cases isKind : token.kind ∈ kinds
    · have taken : Parse.accept kinds (token :: others) = .ok (some token, others) := if_pos isKind
      rw [AgreeAt, taken]
      exact ⟨[token], rfl, fun rest _ => if_pos isKind⟩
    · have stays (rest : List Token) :
          Parse.accept kinds (token :: rest) = .ok (none, token :: rest) := if_neg isKind
      rw [AgreeAt, stays]
      refine ⟨[], rfl, fun rest head => ?_⟩
      obtain ⟨more, rfl⟩ := eq_cons_of_head? head
      exact stays more

/-- A token that may be of some kinds, below a bound. -/
theorem Agree.accept (kinds : List Kind) : Agree bound (Parse.accept kinds) (Parse.accept kinds) :=
  fun tokens _ => agreeAt_accept kinds tokens

/-- A token that has to be of a kind, and what follows it. -/
theorem Agree.expect_bind {next next' : Token → Parse β} (kind : Kind)
    (follow : ∀ token, Agree bound (next token) (next' token)) :
    Agree (bound + 1) (Parse.expect kind >>= next) (Parse.expect kind >>= next') := by
  refine (Agree.expect kind).bind_of_takes ?_ follow
  intro tokens token rest done
  cases tokens with
  | nil => simp [Parse.expect] at done
  | cons first others =>
    simp only [Parse.expect] at done
    split at done <;> simp_all

/-- A token that may be of some kinds, and what follows it if it is or is not. -/
theorem Agree.accept_bind {next next' : Option Token → Parse β} (kinds : List Kind)
    (without : Agree (bound + 1) (next none) (next' none))
    (follow : ∀ token, Agree bound (next (some token)) (next' (some token))) :
    Agree (bound + 1) (Parse.accept kinds >>= next) (Parse.accept kinds >>= next') := by
  intro tokens short
  apply (agreeAt_accept kinds tokens).bind
  intro found rest done
  cases tokens with
  | nil =>
    cases done
    exact without [] short
  | cons token others =>
    by_cases isKind : token.kind ∈ kinds
    · rw [Parse.accept, if_pos isKind] at done
      cases done
      exact follow token rest (by simpa using short)
    · rw [Parse.accept, if_neg isKind] at done
      cases done
      exact without (token :: others) short

/-- A run of tokens of some kinds. -/
theorem Agree.acceptAll (kinds : List Kind) :
    Agree bound (Parse.acceptAll kinds) (Parse.acceptAll kinds) := by
  intro tokens _
  rw [AgreeAt, acceptAll_apply]
  refine ⟨_, List.takeWhile_append_dropWhile.symm, fun rest head => ?_⟩
  have inRun : ∀ token ∈ tokens.takeWhile (fun token => decide (token.kind ∈ kinds)),
      decide (token.kind ∈ kinds) = true := by
    intro token member
    simpa using List.mem_takeWhile_imp member
  rw [acceptAll_apply, List.takeWhile_append_of_pos inRun, List.dropWhile_append_of_pos inRun]
  -- The run stops where the first one did, since the next token is the same.
  cases rest with
  | nil => simp [leaving]
  | cons token more =>
    have stops := List.head?_dropWhile_not (fun token => decide (token.kind ∈ kinds)) tokens
    change some token = (tokens.dropWhile fun token => decide (token.kind ∈ kinds)).head? at head
    rw [← head] at stops
    rw [List.takeWhile_cons_of_neg (by simpa using stops),
      List.dropWhile_cons_of_neg (by simpa using stops), List.append_nil]
    rfl

/-- An item that may be left out. -/
theorem Agree.optionalBefore (kind : Kind) (agree : Agree bound first second) :
    Agree bound (Parse.optionalBefore kind first) (Parse.optionalBefore kind second) := by
  apply Agree.peek.bind
  intro next
  split
  · exact Agree.pure none
  · exact agree.map some

/-- Items with commas between them. -/
theorem Agree.separated (agree : Agree bound first second) {fuel fuel' : Nat}
    (enough : bound ≤ fuel) (enough' : bound ≤ fuel') :
    Agree bound (Parse.separated first fuel) (Parse.separated second fuel') := by
  induction bound generalizing fuel fuel' with
  | zero => exact Agree.zero
  | succ bound ih =>
    obtain ⟨fuel, rfl⟩ := Nat.exists_eq_succ_of_ne_zero (Nat.ne_zero_of_lt enough)
    obtain ⟨fuel', rfl⟩ := Nat.exists_eq_succ_of_ne_zero (Nat.ne_zero_of_lt enough')
    apply agree.bind
    intro value
    apply Agree.accept_bind [.comma] (Agree.pure [value])
    intro _
    exact (ih (agree.mono (by omega)) (by omega) (by omega)).bind fun others =>
      Agree.pure (value :: others)

/-- Items up to a token, each of which takes a token at least. -/
theorem Agree.itemsUntil (stop : Option Kind) (agree : Agree bound first second)
    (takes : ∀ tokens value rest, first tokens = .ok (value, rest) → rest.length < tokens.length)
    {fuel fuel' : Nat} (enough : bound ≤ fuel) (enough' : bound ≤ fuel') :
    Agree bound (Parse.itemsUntil stop first fuel) (Parse.itemsUntil stop second fuel') := by
  induction bound generalizing fuel fuel' with
  | zero => exact Agree.zero
  | succ bound ih =>
    obtain ⟨fuel, rfl⟩ := Nat.exists_eq_succ_of_ne_zero (Nat.ne_zero_of_lt enough)
    obtain ⟨fuel', rfl⟩ := Nat.exists_eq_succ_of_ne_zero (Nat.ne_zero_of_lt enough')
    apply Agree.peek.bind
    intro next
    split
    · exact Agree.pure []
    · apply agree.bind_of_takes takes
      intro value
      exact (ih (agree.mono (by omega)) (by omega) (by omega)).bind fun others =>
        Agree.pure (value :: others)

end Lox.Source.Parse

namespace Lox.Source

open Lox.Grammar Parse

variable {bound fuel fuel' : Nat}

/-- What follows the first operand of a level. -/
theorem agree_chainRest (level : Level) {operand operand' : Parse Expr}
    (agree : Agree bound operand operand') (enough : bound ≤ fuel) (enough' : bound ≤ fuel')
    (left : Expr) :
    Agree bound (chainRest level operand fuel left) (chainRest level operand' fuel' left) := by
  induction bound generalizing fuel fuel' left with
  | zero => exact Agree.zero
  | succ bound ih =>
    obtain ⟨fuel, rfl⟩ := Nat.exists_eq_succ_of_ne_zero (Nat.ne_zero_of_lt enough)
    obtain ⟨fuel', rfl⟩ := Nat.exists_eq_succ_of_ne_zero (Nat.ne_zero_of_lt enough')
    apply Agree.accept_bind level.operators (Agree.pure left)
    intro operator
    exact (agree.mono (by omega)).bind fun right =>
      ih (agree.mono (by omega)) (by omega) (by omega) (level.join left operator right)

/-- A chain of a level. -/
theorem agree_chain (level : Level) {operand operand' : Parse Expr}
    (reads : Reads (Expression level.operand) operand) (agree : Agree (bound + 1) operand operand')
    (enough : bound ≤ fuel) (enough' : bound ≤ fuel') :
    Agree (bound + 1) (chain fuel level operand) (chain fuel' level operand') :=
  agree.bind_of_takes (reads.takes fun _ _ => Expression.ne_nil) fun left =>
    agree_chainRest level (agree.mono (by omega)) enough enough' left

variable {nested nested' : Parse Expr}

/-- A literal, a name or an expression in parentheses. -/
theorem agree_primary (agree : Agree bound nested nested') :
    Agree (bound + 1) (primary nested) (primary nested') := by
  intro tokens short
  cases tokens with
  | nil =>
    refine ⟨[], rfl, fun rest head => ?_⟩
    rw [List.head?_eq_none_iff.mp head]
    rfl
  | cons token others =>
    cases found : Literal.ofToken? token with
    | some value =>
      have taken (nested : Parse Expr) (rest : List Token) :
          primary nested (token :: rest) = .ok (.literal value, rest) := by
        simp only [primary, found]
      rw [AgreeAt, taken]
      exact ⟨[token], rfl, fun rest _ => taken nested' rest⟩
    | none =>
      by_cases isName : token.kind = .identifier
      · have taken (nested : Parse Expr) (rest : List Token) :
            primary nested (token :: rest) = .ok (.variable token, rest) := by
          simp only [primary, found, if_pos isName]
        rw [AgreeAt, taken]
        exact ⟨[token], rfl, fun rest _ => taken nested' rest⟩
      · by_cases isOpening : token.kind = .leftParen
        · have inside (nested : Parse Expr) (rest : List Token) :
              primary nested (token :: rest) =
                (do
                  let inner ← nested
                  let _ ← expect .rightParen
                  pure (Expr.grouping inner) : Parse Expr) rest := by
            simp only [primary, found, if_neg isName, if_pos isOpening]
            rfl
          have tail := agree.bind fun inner =>
            (Agree.expect .rightParen).bind fun _ => Agree.pure (Expr.grouping inner)
          obtain ⟨taken, split, same⟩ := tail others (by simpa using short)
          rw [AgreeAt, inside]
          refine ⟨token :: taken, by rw [List.cons_append, ← split], fun rest head => ?_⟩
          rw [List.cons_append, inside]
          exact same rest head
        · have stays (nested : Parse Expr) (rest : List Token) :
              primary nested (token :: rest) = .error ⟨false, token :: rest⟩ := by
            simp only [primary, found, if_neg isName, if_neg isOpening]
          rw [AgreeAt, stays]
          refine ⟨[], rfl, fun rest head => ?_⟩
          obtain ⟨more, rfl⟩ := eq_cons_of_head? head
          exact stays nested' more

/-- The calls behind a callee. -/
theorem agree_callsRest (agree : Agree bound nested nested') (enough : bound ≤ fuel)
    (enough' : bound ≤ fuel') (callee : Expr) :
    Agree bound (callsRest nested fuel callee) (callsRest nested' fuel' callee) := by
  induction bound generalizing fuel fuel' callee with
  | zero => exact Agree.zero
  | succ bound ih =>
    obtain ⟨fuel, rfl⟩ := Nat.exists_eq_succ_of_ne_zero (Nat.ne_zero_of_lt enough)
    obtain ⟨fuel', rfl⟩ := Nat.exists_eq_succ_of_ne_zero (Nat.ne_zero_of_lt enough')
    have smaller : Agree bound nested nested' := agree.mono (by omega)
    apply Agree.accept_bind [.leftParen] (Agree.pure callee)
    intro _
    apply ((smaller.separated (by omega) (by omega)).optionalBefore .rightParen).bind
    intro arguments
    apply (Agree.expect .rightParen).bind
    intro paren
    exact ih smaller (by omega) (by omega) (.call callee (arguments.getD []) paren)

/-- A primary expression and its calls. -/
theorem agree_calls (reads : Reads (Expression .assignment) nested)
    (agree : Agree bound nested nested') (enough : bound ≤ fuel) (enough' : bound ≤ fuel') :
    Agree (bound + 1) (calls fuel nested) (calls fuel' nested') :=
  (agree_primary agree).bind_of_takes ((reads_primary reads).takes fun _ _ => Expression.ne_nil)
    fun callee => agree_callsRest agree enough enough' callee

/-- Prefix operators and their operand. -/
theorem agree_unary (reads : Reads (Expression .assignment) nested)
    (agree : Agree bound nested nested') (enough : bound ≤ fuel) (enough' : bound ≤ fuel') :
    Agree (bound + 1) (unary fuel nested) (unary fuel' nested') :=
  (Agree.acceptAll prefixOperators).bind fun operators =>
    (agree_calls reads agree enough enough').bind fun operand =>
      Agree.pure (operators.foldr Expr.unary operand)

/-- An expression that is no assignment. -/
theorem agree_operation (reads : Reads (Expression .assignment) nested)
    (agree : Agree bound nested nested') (enough : bound ≤ fuel) (enough' : bound ≤ fuel') :
    Agree (bound + 1) (operation fuel nested) (operation fuel' nested') := by
  have product := reads_chain fuel .product (reads_unary reads fuel)
  have sum := reads_chain fuel .sum product
  have comparison := reads_chain fuel .comparison sum
  have equality := reads_chain fuel .equality comparison
  have conjunction := reads_chain fuel .conjunction equality
  refine agree_chain .disjunction conjunction ?_ enough enough'
  refine agree_chain .conjunction equality ?_ enough enough'
  refine agree_chain .equality comparison ?_ enough enough'
  refine agree_chain .comparison sum ?_ enough enough'
  refine agree_chain .sum product ?_ enough enough'
  refine agree_chain .product (reads_unary reads fuel) ?_ enough enough'
  exact agree_unary reads agree enough enough'

/-- An assignment or another expression. -/
theorem agree_assignment (reads : Reads (Expression .assignment) nested)
    (agree : Agree bound nested nested') (enough : bound ≤ fuel) (enough' : bound ≤ fuel') :
    Agree (bound + 1) (assignment fuel nested) (assignment fuel' nested') := by
  apply (agree_operation reads agree enough enough').bind
  intro target
  apply Agree.peek.bind
  intro next
  split
  · cases target with
    | «variable» name =>
      exact Agree.expect_bind .equal fun _ => agree.bind fun value =>
        Agree.pure (Expr.assign name value)
    | _ => exact Agree.failTarget
  · exact Agree.pure target

/-- An expression, with any two amounts of fuel that suffice. -/
theorem agree_expression (enough : bound ≤ fuel) (enough' : bound ≤ fuel') :
    Agree bound (expression fuel) (expression fuel') := by
  induction bound generalizing fuel fuel' with
  | zero => exact Agree.zero
  | succ bound ih =>
    obtain ⟨fuel, rfl⟩ := Nat.exists_eq_succ_of_ne_zero (Nat.ne_zero_of_lt enough)
    obtain ⟨fuel', rfl⟩ := Nat.exists_eq_succ_of_ne_zero (Nat.ne_zero_of_lt enough')
    have agree : Agree bound (expression fuel) (expression fuel') := ih (by omega) (by omega)
    exact agree_assignment (reads_expression fuel) agree (by omega) (by omega)

/-- An expression and its semicolon. -/
theorem agree_terminated (enough : bound ≤ fuel) (enough' : bound ≤ fuel') :
    Agree bound (terminated fuel) (terminated fuel') :=
  (agree_expression enough enough').bind fun value =>
    (Agree.expect .semicolon).bind fun _ => Agree.pure value

/-- A condition in parentheses. -/
theorem agree_condition (enough : bound ≤ fuel) (enough' : bound ≤ fuel') :
    Agree bound (condition fuel) (condition fuel') :=
  (Agree.expect .leftParen).bind fun _ => (agree_expression enough enough').bind fun value =>
    (Agree.expect .rightParen).bind fun _ => Agree.pure value

/-- The rest of a variable declaration. -/
theorem agree_variableTail (enough : bound ≤ fuel) (enough' : bound ≤ fuel') :
    Agree bound (variableTail fuel) (variableTail fuel') := by
  apply (Agree.expect .identifier).bind
  intro name
  apply (Agree.accept [.equal]).bind
  intro found
  cases found with
  | none => exact (Agree.expect .semicolon).bind fun _ => Agree.pure (name, none)
  | some _ =>
    exact (agree_expression enough enough').bind fun value =>
      (Agree.expect .semicolon).bind fun _ => Agree.pure (name, some value)

/-- The first clause of a loop. -/
theorem agree_loopStart (enough : bound ≤ fuel) (enough' : bound ≤ fuel') :
    Agree bound (loopStart fuel) (loopStart fuel') := by
  apply (Agree.accept [.semicolon, .varWord]).bind
  intro found
  cases found with
  | none => exact ((agree_terminated enough enough').map LoopStart.expression).map some
  | some token =>
    dsimp only
    split
    · exact Agree.pure none
    · exact (agree_variableTail enough enough').bind fun declared => Agree.pure _

variable {inner inner' : Position → Parse Stmt}

/-- Declarations up to a closing brace. -/
theorem agree_blockTail (reads : ∀ position, Reads (Statement position) (inner position))
    (agree : ∀ position, Agree bound (inner position) (inner' position)) (enough : bound ≤ fuel)
    (enough' : bound ≤ fuel') : Agree bound (blockTail fuel inner) (blockTail fuel' inner') := by
  have takes := (reads .declaration).takes fun _ _ => Statement.ne_nil
  exact ((agree .declaration).itemsUntil (some .rightBrace) takes enough enough').bind fun body =>
    (Agree.expect .rightBrace).bind fun _ => Agree.pure body

/-- The rest of a function declaration. -/
theorem agree_functionTail (reads : ∀ position, Reads (Statement position) (inner position))
    (agree : ∀ position, Agree bound (inner position) (inner' position)) (enough : bound ≤ fuel)
    (enough' : bound ≤ fuel') :
    Agree bound (functionTail fuel inner) (functionTail fuel' inner') := by
  apply (Agree.expect .identifier).bind
  intro name
  apply (Agree.expect .leftParen).bind
  intro _
  apply (((Agree.expect .identifier).separated enough enough').optionalBefore .rightParen).bind
  intro parameters
  apply (Agree.expect .rightParen).bind
  intro _
  apply (Agree.expect .leftBrace).bind
  intro _
  exact (agree_blockTail reads agree enough enough').bind fun body => Agree.pure _

/-- The rest of a loop with clauses. -/
theorem agree_forTail (agree : ∀ position, Agree bound (inner position) (inner' position))
    (enough : bound ≤ fuel) (enough' : bound ≤ fuel') :
    Agree bound (forTail fuel inner) (forTail fuel' inner') := by
  apply (Agree.expect .leftParen).bind
  intro _
  apply (agree_loopStart enough enough').bind
  intro start
  apply ((agree_expression enough enough').optionalBefore .semicolon).bind
  intro condition
  apply (Agree.expect .semicolon).bind
  intro _
  apply ((agree_expression enough enough').optionalBefore .rightParen).bind
  intro increment
  exact (Agree.expect .rightParen).bind fun _ => (agree .body).bind fun body => Agree.pure _

/-- The rest of a conditional. -/
theorem agree_ifTail (agree : ∀ position, Agree bound (inner position) (inner' position))
    (enough : bound ≤ fuel) (enough' : bound ≤ fuel') :
    Agree bound (ifTail fuel inner) (ifTail fuel' inner') := by
  apply (agree_condition enough enough').bind
  intro test
  apply (agree .body).bind
  intro thenBranch
  apply (Agree.accept [.elseWord]).bind
  intro found
  cases found with
  | none => exact Agree.pure _
  | some _ => exact (agree .body).bind fun elseBranch => Agree.pure _

/-- The rest of a loop without clauses. -/
theorem agree_whileTail (agree : ∀ position, Agree bound (inner position) (inner' position))
    (enough : bound ≤ fuel) (enough' : bound ≤ fuel') :
    Agree bound (whileTail fuel inner) (whileTail fuel' inner') :=
  (agree_condition enough enough').bind fun test => (agree .body).bind fun body =>
    Agree.pure (Stmt.whileLoop test body)

/-- A statement at a position. -/
theorem agree_statementWith (reads : ∀ position, Reads (Statement position) (inner position))
    (agree : ∀ position, Agree bound (inner position) (inner' position))
    (enough : bound + 1 ≤ fuel) (enough' : bound + 1 ≤ fuel') (position : Position) :
    Agree (bound + 1) (statementWith fuel inner position) (statementWith fuel' inner' position) := by
  have less : bound ≤ fuel := by omega
  have less' : bound ≤ fuel' := by omega
  apply Agree.accept_bind (leadingKinds position)
    ((agree_terminated enough enough').map Stmt.expression)
  intro token
  dsimp only
  split
  · exact agree_functionTail reads agree less less'
  · exact (agree_variableTail less less').bind fun declared => Agree.pure _
  · exact agree_forTail agree less less'
  · exact agree_ifTail agree less less'
  · exact (agree_terminated less less').map Stmt.print
  · exact agree_whileTail agree less less'
  · exact (agree_blockTail reads agree less less').map Stmt.block

/-- A statement, with any two amounts of fuel that suffice. -/
theorem agree_statement (enough : bound ≤ fuel) (enough' : bound ≤ fuel') (position : Position) :
    Agree bound (statement fuel position) (statement fuel' position) := by
  induction bound generalizing fuel fuel' position with
  | zero => exact Agree.zero
  | succ bound ih =>
    obtain ⟨fuel, rfl⟩ := Nat.exists_eq_succ_of_ne_zero (Nat.ne_zero_of_lt enough)
    obtain ⟨fuel', rfl⟩ := Nat.exists_eq_succ_of_ne_zero (Nat.ne_zero_of_lt enough')
    exact agree_statementWith (reads_statement fuel)
      (fun position => ih (by omega) (by omega) position) enough enough' position

/-- The declarations of a program, with any two amounts of fuel that suffice. -/
theorem agree_declarations (enough : bound ≤ fuel) (enough' : bound ≤ fuel') :
    Agree bound (declarations fuel) (declarations fuel') := by
  have takes := (reads_statement fuel .declaration).takes fun _ _ => Statement.ne_nil
  exact (agree_statement enough enough' .declaration).itemsUntil none takes enough enough'

end Lox.Source
