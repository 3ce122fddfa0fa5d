import Lox.Proofs.Node.Tokens
import Mathlib.Data.List.Forall2

/-!
# Trees that differ in their tokens

Two trees match when they have the same nodes and literals, and the tokens that they keep in the same
places stand for each other. Tokens that stand for each other are spelled alike, and it depends on what
they are kept for which do so.

A tree is proper when every node stands where its form means something and every operator is one of
those that its node has.
-/

namespace Lox

/-- What a token is kept in a tree for. -/
inductive Role where
  | declared
  | parameter
  | assigned
  | read
  | operator
  | closing
  deriving DecidableEq, Repr

/-- Which tokens of two trees stand for each other. They are of one kind and have one lexeme. -/
structure Matching where
  tokens : Role → Token → Token → Prop
  kind_eq : ∀ {role token token'}, tokens role token token' → token.kind = token'.kind
  lexeme_eq : ∀ {role token token'}, tokens role token token' → token.lexeme = token'.lexeme

/-- Tokens that stand for each other have one text. -/
theorem Matching.text_eq {matching : Matching} {role : Role} {token token' : Token}
    (same : matching.tokens role token token') : token.text = token'.text :=
  congrArg Text.decode (matching.lexeme_eq same)

namespace Node

/-- Two trees of the same nodes, with tokens that stand for each other. -/
inductive Matched (matching : Matching) : Node → Node → Prop
  | null : Matched matching .null .null
  | list {items items' : List Node} :
      List.Forall₂ (Matched matching) items items' →
      Matched matching (.list items) (.list items')
  | block {statements statements' : List Node} :
      List.Forall₂ (Matched matching) statements statements' →
      Matched matching (.block statements) (.block statements')
  | expression {value value' : Node} :
      Matched matching value value' → Matched matching (.expression value) (.expression value')
  | function {name name' : Token} {parameters parameters' : List Token} {body body' : List Node} :
      matching.tokens .declared name name' →
      List.Forall₂ (matching.tokens .parameter) parameters parameters' →
      List.Forall₂ (Matched matching) body body' →
      Matched matching (.function name parameters body) (.function name' parameters' body')
  | conditional {condition condition' thenBranch thenBranch' elseBranch elseBranch' : Node} :
      Matched matching condition condition' → Matched matching thenBranch thenBranch' →
      Matched matching elseBranch elseBranch' →
      Matched matching (.conditional condition thenBranch elseBranch)
        (.conditional condition' thenBranch' elseBranch')
  | print {value value' : Node} :
      Matched matching value value' → Matched matching (.print value) (.print value')
  | var {name name' : Token} {initializer initializer' : Node} :
      matching.tokens .declared name name' → Matched matching initializer initializer' →
      Matched matching (.var name initializer) (.var name' initializer')
  | loop {condition condition' body body' : Node} :
      Matched matching condition condition' → Matched matching body body' →
      Matched matching (.loop condition body) (.loop condition' body')
  | assign {name name' : Token} {value value' : Node} :
      matching.tokens .assigned name name' → Matched matching value value' →
      Matched matching (.assign name value) (.assign name' value')
  | binary {left left' right right' : Node} {operator operator' : Token} :
      Matched matching left left' → matching.tokens .operator operator operator' →
      Matched matching right right' →
      Matched matching (.binary left operator right) (.binary left' operator' right')
  | call {callee callee' : Node} {paren paren' : Token} {arguments arguments' : List Node} :
      Matched matching callee callee' → matching.tokens .closing paren paren' →
      List.Forall₂ (Matched matching) arguments arguments' →
      Matched matching (.call callee paren arguments) (.call callee' paren' arguments')
  | grouping {inner inner' : Node} :
      Matched matching inner inner' → Matched matching (.grouping inner) (.grouping inner')
  | literal (value : Literal) : Matched matching (.literal value) (.literal value)
  | logical {left left' right right' : Node} {operator operator' : Token} :
      Matched matching left left' → matching.tokens .operator operator operator' →
      Matched matching right right' →
      Matched matching (.logical left operator right) (.logical left' operator' right')
  | unary {operator operator' : Token} {operand operand' : Node} :
      matching.tokens .operator operator operator' → Matched matching operand operand' →
      Matched matching (.unary operator operand) (.unary operator' operand')
  | variable {name name' : Token} :
      matching.tokens .read name name' → Matched matching (.variable name) (.variable name')

mutual

/-- The node with each of its tokens changed. -/
def mapTokens (change : Token → Token) : Node → Node
  | .null => .null
  | .list items => .list (mapTokensOfList change items)
  | .block statements => .block (mapTokensOfList change statements)
  | .expression value => .expression (value.mapTokens change)
  | .function name parameters body =>
    .function (change name) (parameters.map change) (mapTokensOfList change body)
  | .conditional condition thenBranch elseBranch =>
    .conditional (condition.mapTokens change) (thenBranch.mapTokens change)
      (elseBranch.mapTokens change)
  | .print value => .print (value.mapTokens change)
  | .var name initializer => .var (change name) (initializer.mapTokens change)
  | .loop condition body => .loop (condition.mapTokens change) (body.mapTokens change)
  | .assign name value => .assign (change name) (value.mapTokens change)
  | .binary left operator right =>
    .binary (left.mapTokens change) (change operator) (right.mapTokens change)
  | .call callee paren arguments =>
    .call (callee.mapTokens change) (change paren) (mapTokensOfList change arguments)
  | .grouping inner => .grouping (inner.mapTokens change)
  | .literal value => .literal value
  | .logical left operator right =>
    .logical (left.mapTokens change) (change operator) (right.mapTokens change)
  | .unary operator operand => .unary (change operator) (operand.mapTokens change)
  | .variable name => .variable (change name)

/-- Some nodes with each of their tokens changed. -/
def mapTokensOfList (change : Token → Token) : List Node → List Node
  | [] => []
  | first :: rest => first.mapTokens change :: mapTokensOfList change rest

end

/-- Changing the tokens of some nodes changes those of each of them. -/
theorem mapTokensOfList_eq_map (change : Token → Token) (nodes : List Node) :
    mapTokensOfList change nodes = nodes.map (mapTokens change) := by
  induction nodes with
  | nil => rfl
  | cons first rest ih => rw [mapTokensOfList, ih, List.map_cons]

section

variable {matching : Matching} {change : Token → Token}

/-- Tokens match those that they are changed to. -/
theorem forall₂_map_tokens {role : Role} {parameters : List Token}
    (same : ∀ token ∈ parameters, matching.tokens role token (change token)) :
    List.Forall₂ (matching.tokens role) parameters (parameters.map change) := by
  rw [List.forall₂_map_right_iff, List.forall₂_same]
  exact same

mutual

/-- A node matches the node with its tokens changed, if each of its tokens stands for what it is
changed to. -/
theorem matched_mapTokens : (node : Node) →
    (∀ role, ∀ token ∈ node.tokens, matching.tokens role token (change token)) →
    node.Matched matching (node.mapTokens change)
  | .null, _ => .null
  | .list items, same => .list (matched_mapTokensOfList items same)
  | .block statements, same => .block (matched_mapTokensOfList statements same)
  | .expression value, same => .expression (matched_mapTokens value same)
  | .function name parameters body, same => by
    simp only [tokens, List.cons_append, List.mem_cons, List.mem_append, or_imp, forall_and,
      forall_eq] at same
    exact .function (same.1 _) (forall₂_map_tokens (same.2.1 _))
      (matched_mapTokensOfList body same.2.2)
  | .conditional condition thenBranch elseBranch, same => by
    simp only [tokens, List.mem_append, or_imp, forall_and] at same
    exact .conditional (matched_mapTokens condition same.1.1)
      (matched_mapTokens thenBranch same.1.2) (matched_mapTokens elseBranch same.2)
  | .print value, same => .print (matched_mapTokens value same)
  | .var name initializer, same => by
    simp only [tokens, List.mem_cons, or_imp, forall_and, forall_eq] at same
    exact .var (same.1 _) (matched_mapTokens initializer same.2)
  | .loop condition body, same => by
    simp only [tokens, List.mem_append, or_imp, forall_and] at same
    exact .loop (matched_mapTokens condition same.1) (matched_mapTokens body same.2)
  | .assign name value, same => by
    simp only [tokens, List.mem_cons, or_imp, forall_and, forall_eq] at same
    exact .assign (same.1 _) (matched_mapTokens value same.2)
  | .binary left operator right, same => by
    simp only [tokens, List.mem_append, List.mem_cons, or_imp, forall_and, forall_eq] at same
    exact .binary (matched_mapTokens left same.1) (same.2.1 _) (matched_mapTokens right same.2.2)
  | .call callee paren arguments, same => by
    simp only [tokens, List.mem_append, List.mem_cons, or_imp, forall_and, forall_eq] at same
    exact .call (matched_mapTokens callee same.1) (same.2.1 _)
      (matched_mapTokensOfList arguments same.2.2)
  | .grouping inner, same => .grouping (matched_mapTokens inner same)
  | .literal value, _ => .literal value
  | .logical left operator right, same => by
    simp only [tokens, List.mem_append, List.mem_cons, or_imp, forall_and, forall_eq] at same
    exact .logical (matched_mapTokens left same.1) (same.2.1 _) (matched_mapTokens right same.2.2)
  | .unary operator operand, same => by
    simp only [tokens, List.mem_cons, or_imp, forall_and, forall_eq] at same
    exact .unary (same.1 _) (matched_mapTokens operand same.2)
  | .variable name, same => .variable (same _ name (List.mem_singleton_self name))

/-- Some nodes match the nodes with their tokens changed, if each token stands for what it is changed
to. -/
theorem matched_mapTokensOfList : (nodes : List Node) →
    (∀ role, ∀ token ∈ tokensOfList nodes, matching.tokens role token (change token)) →
    List.Forall₂ (Matched matching) nodes (mapTokensOfList change nodes)
  | [], _ => .nil
  | first :: rest, same => by
    simp only [tokensOfList, List.mem_append, or_imp, forall_and] at same
    exact .cons (matched_mapTokens first same.1) (matched_mapTokensOfList rest same.2)

end

end

/-- Tokens that stand for each other are the same when each is changed, if the changes bring any two
such tokens together. -/
theorem map_eq_of_forall₂_tokens {matching : Matching} {first second : Token → Token} {role : Role}
    (same : ∀ role token token', matching.tokens role token token' → first token = second token')
    {parameters parameters' : List Token}
    (matched : List.Forall₂ (matching.tokens role) parameters parameters') :
    parameters.map first = parameters'.map second := by
  induction matched with
  | nil => rfl
  | cons isSame _ ih => rw [List.map_cons, List.map_cons, ih, same _ _ _ isSame]

section

variable {matching : Matching} {first second : Token → Token}

mutual

/-- Nodes that match are the same with their tokens changed, if the changes bring any two tokens that
stand for each other together. -/
theorem Matched.mapTokens_eq
    (same : ∀ role token token', matching.tokens role token token' → first token = second token') :
    (node : Node) → ∀ node', node.Matched matching node' →
      node.mapTokens first = node'.mapTokens second
  | .null, _, .null => rfl
  | .list items, _, .list matched => by
    rw [mapTokens, mapTokens, Matched.mapTokensOfList_eq same items _ matched]
  | .block statements, _, .block matched => by
    rw [mapTokens, mapTokens, Matched.mapTokensOfList_eq same statements _ matched]
  | .expression value, _, .expression matched => by
    rw [mapTokens, mapTokens, Matched.mapTokens_eq same value _ matched]
  | .function name parameters body, _, .function isName areParameters matched => by
    rw [mapTokens, mapTokens, Matched.mapTokensOfList_eq same body _ matched,
      map_eq_of_forall₂_tokens same areParameters, same _ _ _ isName]
  | .conditional condition thenBranch elseBranch, _, .conditional isCondition isThen isElse => by
    rw [mapTokens, mapTokens, Matched.mapTokens_eq same condition _ isCondition,
      Matched.mapTokens_eq same thenBranch _ isThen, Matched.mapTokens_eq same elseBranch _ isElse]
  | .print value, _, .print matched => by
    rw [mapTokens, mapTokens, Matched.mapTokens_eq same value _ matched]
  | .var name initializer, _, .var isName matched => by
    rw [mapTokens, mapTokens, Matched.mapTokens_eq same initializer _ matched, same _ _ _ isName]
  | .loop condition body, _, .loop isCondition isBody => by
    rw [mapTokens, mapTokens, Matched.mapTokens_eq same condition _ isCondition,
      Matched.mapTokens_eq same body _ isBody]
  | .assign name value, _, .assign isName matched => by
    rw [mapTokens, mapTokens, Matched.mapTokens_eq same value _ matched, same _ _ _ isName]
  | .binary left operator right, _, .binary isLeft isOperator isRight => by
    rw [mapTokens, mapTokens, Matched.mapTokens_eq same left _ isLeft,
      Matched.mapTokens_eq same right _ isRight, same _ _ _ isOperator]
  | .call callee paren arguments, _, .call isCallee isParen matched => by
    rw [mapTokens, mapTokens, Matched.mapTokens_eq same callee _ isCallee,
      Matched.mapTokensOfList_eq same arguments _ matched, same _ _ _ isParen]
  | .grouping inner, _, .grouping matched => by
    rw [mapTokens, mapTokens, Matched.mapTokens_eq same inner _ matched]
  | .literal value, _, .literal _ => rfl
  | .logical left operator right, _, .logical isLeft isOperator isRight => by
    rw [mapTokens, mapTokens, Matched.mapTokens_eq same left _ isLeft,
      Matched.mapTokens_eq same right _ isRight, same _ _ _ isOperator]
  | .unary operator operand, _, .unary isOperator matched => by
    rw [mapTokens, mapTokens, Matched.mapTokens_eq same operand _ matched, same _ _ _ isOperator]
  | .variable name, _, .variable isName => by rw [mapTokens, mapTokens, same _ _ _ isName]

/-- Nodes that match one by one are the same with their tokens changed, if the changes bring any two
tokens that stand for each other together. -/
theorem Matched.mapTokensOfList_eq
    (same : ∀ role token token', matching.tokens role token token' → first token = second token') :
    (nodes : List Node) → ∀ nodes', List.Forall₂ (Matched matching) nodes nodes' →
      mapTokensOfList first nodes = mapTokensOfList second nodes'
  | [], _, .nil => rfl
  | node :: others, _, .cons isMatched areMatched => by
    rw [mapTokensOfList, mapTokensOfList, Matched.mapTokens_eq same node _ isMatched,
      Matched.mapTokensOfList_eq same others _ areMatched]

end

end

mutual

/-- A change that changes no token changes no node. -/
theorem mapTokens_id : (node : Node) → node.mapTokens id = node
  | .null | .literal _ | .variable _ => rfl
  | .list items => by rw [mapTokens, mapTokensOfList_id items]
  | .block statements => by rw [mapTokens, mapTokensOfList_id statements]
  | .expression value => by rw [mapTokens, mapTokens_id value]
  | .function name parameters body => by
    rw [mapTokens, mapTokensOfList_id body, List.map_id, id]
  | .conditional condition thenBranch elseBranch => by
    rw [mapTokens, mapTokens_id condition, mapTokens_id thenBranch, mapTokens_id elseBranch]
  | .print value => by rw [mapTokens, mapTokens_id value]
  | .var name initializer => by rw [mapTokens, mapTokens_id initializer, id]
  | .loop condition body => by rw [mapTokens, mapTokens_id condition, mapTokens_id body]
  | .assign name value => by rw [mapTokens, mapTokens_id value, id]
  | .binary left operator right => by
    rw [mapTokens, mapTokens_id left, mapTokens_id right, id]
  | .call callee paren arguments => by
    rw [mapTokens, mapTokens_id callee, mapTokensOfList_id arguments, id]
  | .grouping inner => by rw [mapTokens, mapTokens_id inner]
  | .logical left operator right => by
    rw [mapTokens, mapTokens_id left, mapTokens_id right, id]
  | .unary operator operand => by rw [mapTokens, mapTokens_id operand, id]

/-- A change that changes no token changes none of some nodes. -/
theorem mapTokensOfList_id : (nodes : List Node) → mapTokensOfList id nodes = nodes
  | [] => rfl
  | first :: rest => by rw [mapTokensOfList, mapTokens_id first, mapTokensOfList_id rest]

end

mutual

/-- Changing the tokens of a node twice is changing them by both changes. -/
theorem mapTokens_mapTokens (first second : Token → Token) : (node : Node) →
    (node.mapTokens first).mapTokens second = node.mapTokens (second ∘ first)
  | .null | .literal _ | .variable _ => rfl
  | .list items => by
    rw [mapTokens, mapTokens, mapTokens, mapTokensOfList_mapTokensOfList first second items]
  | .block statements => by
    rw [mapTokens, mapTokens, mapTokens, mapTokensOfList_mapTokensOfList first second statements]
  | .expression value | .print value | .grouping value => by
    rw [mapTokens, mapTokens, mapTokens, mapTokens_mapTokens first second value]
  | .function name parameters body => by
    rw [mapTokens, mapTokens, mapTokens, mapTokensOfList_mapTokensOfList first second body,
      List.map_map, Function.comp_apply]
  | .conditional condition thenBranch elseBranch => by
    rw [mapTokens, mapTokens, mapTokens, mapTokens_mapTokens first second condition,
      mapTokens_mapTokens first second thenBranch, mapTokens_mapTokens first second elseBranch]
  | .var name value | .assign name value => by
    rw [mapTokens, mapTokens, mapTokens, mapTokens_mapTokens first second value,
      Function.comp_apply]
  | .loop condition body => by
    rw [mapTokens, mapTokens, mapTokens, mapTokens_mapTokens first second condition,
      mapTokens_mapTokens first second body]
  | .binary left operator right | .logical left operator right => by
    rw [mapTokens, mapTokens, mapTokens, mapTokens_mapTokens first second left,
      mapTokens_mapTokens first second right, Function.comp_apply]
  | .call callee paren arguments => by
    rw [mapTokens, mapTokens, mapTokens, mapTokens_mapTokens first second callee,
      mapTokensOfList_mapTokensOfList first second arguments, Function.comp_apply]
  | .unary operator operand => by
    rw [mapTokens, mapTokens, mapTokens, mapTokens_mapTokens first second operand,
      Function.comp_apply]

/-- Changing the tokens of some nodes twice is changing them by both changes. -/
theorem mapTokensOfList_mapTokensOfList (first second : Token → Token) : (nodes : List Node) →
    mapTokensOfList second (mapTokensOfList first nodes) = mapTokensOfList (second ∘ first) nodes
  | [] => rfl
  | node :: others => by
    rw [mapTokensOfList, mapTokensOfList, mapTokensOfList, mapTokens_mapTokens first second node,
      mapTokensOfList_mapTokensOfList first second others]

end

/-- Nodes match themselves if each of their tokens stands for itself. -/
theorem matchedOfList_self {matching : Matching} {nodes : List Node}
    (same : ∀ role, ∀ token ∈ tokensOfList nodes, matching.tokens role token token) :
    List.Forall₂ (Matched matching) nodes nodes := by
  have matched : List.Forall₂ (Matched matching) nodes (mapTokensOfList id nodes) :=
    matched_mapTokensOfList nodes same
  rwa [mapTokensOfList_id] at matched

/-- The kinds of the operators between two operands. -/
def binaryKinds : List Kind :=
  [.equalEqual, .bangEqual, .plus, .minus, .star, .slash, .greater, .greaterEqual, .less, .lessEqual]

mutual

/-- A statement whose parts stand where they mean something. -/
def IsStatement : Node → Prop
  | .expression value | .print value => value.IsExpression
  | .var _ initializer => initializer = .null ∨ initializer.IsExpression
  | .block statements => AreStatements statements
  | .conditional condition thenBranch elseBranch =>
    condition.IsExpression ∧ thenBranch.IsStatement ∧ (elseBranch = .null ∨ elseBranch.IsStatement)
  | .loop condition body => condition.IsExpression ∧ body.IsStatement
  | .function _ _ body => AreStatements body
  | _ => False

/-- An expression whose parts stand where they mean something, with operators of the right kinds. -/
def IsExpression : Node → Prop
  | .literal _ | .variable _ => True
  | .grouping value | .assign _ value => value.IsExpression
  | .unary operator operand =>
    (operator.kind = .bang ∨ operator.kind = .minus) ∧ operand.IsExpression
  | .logical left _ right => left.IsExpression ∧ right.IsExpression
  | .binary left operator right =>
    left.IsExpression ∧ operator.kind ∈ binaryKinds ∧ right.IsExpression
  | .call callee _ arguments => callee.IsExpression ∧ AreExpressions arguments
  | _ => False

/-- Statements whose parts stand where they mean something. -/
def AreStatements : List Node → Prop
  | [] => True
  | first :: rest => first.IsStatement ∧ AreStatements rest

/-- Expressions whose parts stand where they mean something. -/
def AreExpressions : List Node → Prop
  | [] => True
  | first :: rest => first.IsExpression ∧ AreExpressions rest

end

end Node

end Lox
