import Lox.Proofs.Execution.StoreLaws
import Lox.Proofs.Node.Matching
import Lox.Execution.Evaluation

/-!
# States that are alike

Two runs of trees that match go through states that are alike: the same scopes with the same names in
the same order, bound to cells of one number, whose values are the same or functions with declarations
that match. Nothing that a program can find out about a value tells values apart that are alike.

What the runs may have in their traces is left open, and so is whether a host has added functions.
-/

namespace Lox

/-- What two states are compared by: the tokens that stand for each other in their trees, whether
nodes may stand where they mean nothing, whether there may be functions that a host has added, and the
traces that may be beside each other. -/
structure Likeness extends Matching where
  strays : Prop
  hosted : Prop
  traces : Array Text → Array Text → Prop

/-- The tokens that a value keeps: those of its declaration, if it is a function with one. -/
def Value.tokens : Value → List Token
  | .function declaration =>
    declaration.name :: declaration.parameters ++ Node.tokensOfList declaration.body
  | _ => []

/-- A value that some name in a store stands for keeps a token. -/
def Store.Holds (store : Store) (token : Token) : Prop :=
  ∃ scope, ∃ binding ∈ store.bindings scope, token ∈ binding.2.value.tokens

/-- The value with each of its tokens changed. -/
def Value.mapTokens (change : Token → Token) : Value → Value
  | .function declaration =>
    .function ⟨change declaration.name, declaration.parameters.map change,
      Node.mapTokensOfList change declaration.body⟩
  | other => other

/-- The same cell with the tokens of its value changed. -/
def Cell.mapTokens (change : Token → Token) (cell : Cell) : Cell :=
  { cell with value := cell.value.mapTokens change }

/-- The same names bound to the cells with their tokens changed. -/
def Bindings.mapTokens (change : Token → Token) (bindings : Bindings) : Bindings :=
  bindings.map fun binding => (binding.1, binding.2.mapTokens change)

/-- The store with the tokens of all its values changed. -/
def Store.mapTokens (change : Token → Token) (store : Store) : Store :=
  ⟨store.scopes.map fun scope => { scope with bindings := scope.bindings.mapTokens change }⟩

/-- A change that changes no token changes no value. -/
theorem Value.mapTokens_id (value : Value) : value.mapTokens id = value := by
  cases value with
  | function declaration =>
    rw [mapTokens, List.map_id, Node.mapTokensOfList_id]
    rfl
  | _ => rfl

/-- A change that changes no token changes no bindings. -/
theorem Bindings.mapTokens_id (bindings : Bindings) : bindings.mapTokens id = bindings := by
  have same (cell : Cell) : cell.mapTokens id = cell :=
    congrArg (fun value => ({ cell with value } : Cell)) cell.value.mapTokens_id
  rw [mapTokens, List.map_congr_left fun binding _ => congrArg (Prod.mk binding.1) (same binding.2)]
  exact List.map_id _

/-- Changing the tokens of a value twice is changing them by both changes. -/
theorem Value.mapTokens_mapTokens (first second : Token → Token) (value : Value) :
    (value.mapTokens first).mapTokens second = value.mapTokens (second ∘ first) := by
  cases value with
  | function declaration =>
    rw [mapTokens, mapTokens, mapTokens, List.map_map, Node.mapTokensOfList_mapTokensOfList,
      Function.comp_apply]
  | _ => rfl

/-- Changing the tokens of bindings twice is changing them by both changes. -/
theorem Bindings.mapTokens_mapTokens (first second : Token → Token) (bindings : Bindings) :
    (bindings.mapTokens first).mapTokens second = bindings.mapTokens (second ∘ first) := by
  have same (cell : Cell) : (cell.mapTokens first).mapTokens second = cell.mapTokens (second ∘ first) :=
    congrArg (fun value => ({ cell with value } : Cell)) (cell.value.mapTokens_mapTokens first second)
  rw [mapTokens, mapTokens, mapTokens, List.map_map]
  exact List.map_congr_left fun binding _ => congrArg (Prod.mk binding.1) (same binding.2)

namespace Store

variable (change : Token → Token) (store : Store)

/-- A change of tokens leaves the number of scopes. -/
theorem size_mapTokens : (store.mapTokens change).size = store.size :=
  Array.size_map

/-- A change of tokens leaves how scopes enclose each other. -/
theorem enclosing?_mapTokens (scope : ScopeId) :
    (store.mapTokens change).enclosing? scope = store.enclosing? scope := by
  unfold enclosing? mapTokens
  rw [Array.getElem?_map]
  cases store.scopes[scope]? <;> rfl

/-- A change of tokens changes those of the bindings of each scope. -/
theorem bindings_mapTokens (scope : ScopeId) :
    (store.mapTokens change).bindings scope = (store.bindings scope).mapTokens change := by
  unfold bindings mapTokens
  rw [Array.getElem?_map]
  cases store.scopes[scope]? <;> rfl

/-- A change that changes no token changes no store. -/
theorem mapTokens_id : store.mapTokens id = store :=
  ext_scopes (size_mapTokens id store)
    (fun scope => (bindings_mapTokens id store scope).trans (Bindings.mapTokens_id _))
    (enclosing?_mapTokens id store)

/-- Changing the tokens of a store twice is changing them by both changes. -/
theorem mapTokens_mapTokens (first second : Token → Token) :
    (store.mapTokens first).mapTokens second = store.mapTokens (second ∘ first) := by
  refine ext_scopes ?_ (fun scope => ?_) fun scope => ?_
  · simp only [size_mapTokens]
  · simp only [bindings_mapTokens, Bindings.mapTokens_mapTokens]
  · simp only [enclosing?_mapTokens]

end Store

namespace Likeness

variable {like : Likeness}

/-- Two values that are the same, or functions with declarations that match. -/
inductive Values (like : Likeness) : Value → Value → Prop
  | nil : Values like .nil .nil
  | bool (value : Bool) : Values like (.bool value) (.bool value)
  | number (value : Number) : Values like (.number value) (.number value)
  | text (value : Text) : Values like (.text value) (.text value)
  | clock (name : Text) (arity : Int) :
      Values like (.native name arity .clock) (.native name arity .clock)
  | hosted (name : Text) (arity : Int) (key : Nat) :
      like.hosted → Values like (.native name arity (.hosted key)) (.native name arity (.hosted key))
  | function {name name' : Token} {parameters parameters' : List Token} {body body' : Program} :
      like.tokens .declared name name' →
      List.Forall₂ (like.tokens .parameter) parameters parameters' →
      List.Forall₂ (Node.Matched like.toMatching) body body' →
      like.strays ∨ Node.AreStatements body →
      Values like (.function ⟨name, parameters, body⟩) (.function ⟨name', parameters', body'⟩)

section

variable {value value' other other' : Value}

/-- Values that are alike are of one kind. -/
theorem Values.kind_eq (alike : like.Values value value') : value.kind = value'.kind := by
  cases alike <;> rfl

/-- Values that are alike are one as conditions. -/
theorem Values.truthy_eq (alike : like.Values value value') : value.truthy = value'.truthy := by
  cases alike <;> rfl

/-- Values that are alike are printed alike. -/
theorem Values.shown_eq (alike : like.Values value value') : value.shown = value'.shown := by
  cases alike with
  | function name => rw [Value.shown, Value.shown, like.text_eq name]
  | _ => rfl

/-- Values that are alike are described alike. -/
theorem Values.described_eq (alike : like.Values value value') :
    value.described = value'.described := by
  rw [Value.described, Value.described, alike.kind_eq, alike.shown_eq]

/-- Values that are alike ask for the same number of arguments. -/
theorem Values.arity?_eq (alike : like.Values value value') : value.arity? = value'.arity? := by
  cases alike with
  | function _ parameters => rw [Value.arity?, Value.arity?, parameters.length_eq]
  | _ => rfl

/-- Values that are alike count as the same number. -/
theorem Values.toNumber?_eq (alike : like.Values value value') :
    value.toNumber? = value'.toNumber? := by
  cases alike <;> rfl

/-- Values that are alike can be counted in bytes alike. -/
theorem Values.byteError?_eq (alike : like.Values value value') :
    value.byteError? = value'.byteError? := by
  cases alike <;> rfl

/-- Values that are alike look alike to a host. -/
theorem Values.appearance_eq (alike : like.Values value value') :
    value.appearance = value'.appearance := by
  unfold Value.appearance Value.asNumber Value.askedArguments
  rw [alike.kind_eq, alike.truthy_eq, alike.byteError?_eq, alike.toNumber?_eq, alike.shown_eq,
    alike.arity?_eq]

/-- Values that are alike equal the same values. -/
theorem Values.equals_eq (alike : like.Values value value') (alike' : like.Values other other') :
    value.equals other = value'.equals other' := by
  cases alike <;> cases alike' <;> rfl

/-- Sums of values that are alike are alike, if there are any. -/
theorem Values.addition? (alike : like.Values value value') (alike' : like.Values other other') :
    Option.Rel like.Values (Lox.addition? value other) (Lox.addition? value' other') := by
  cases alike with
  | number left =>
    cases alike' with
    | number right => exact .some (.number _)
    | _ => exact .none
  | text left =>
    cases alike' with
    | text right => exact .some (.text _)
    | _ => exact .none
  | _ => exact .none

/-- An operator between two numbers gives a number or a truth value, unless it is no operator. -/
theorem arithmetic?_eq (like : Likeness) (kind : Kind) (left right : Number) :
    (∃ value, arithmetic? kind left right = some value ∧ like.Values value value) ∨
      arithmetic? kind left right = none ∧
        (kind ∈ Node.binaryKinds → kind = .equalEqual ∨ kind = .bangEqual ∨ kind = .plus) := by
  cases kind <;>
    first
    | exact .inl ⟨_, rfl, .number _⟩
    | exact .inl ⟨_, rfl, .bool _⟩
    | exact .inr ⟨rfl, by decide⟩

/-- A value that holds no function is like itself. -/
theorem values_ofLiteral (literal : Literal) :
    like.Values (.ofLiteral literal) (.ofLiteral literal) := by
  cases literal with
  | nil => exact .nil
  | bool value => exact .bool value
  | number value => exact .number value
  | text value => exact .text value

end

/-- Two cells of one number with values that are alike. -/
structure Cells (like : Likeness) (cell cell' : Cell) : Prop where
  id_eq : cell.id = cell'.id
  value : like.Values cell.value cell'.value

/-- The shared cell of nil is like itself. -/
theorem cells_nil : like.Cells Cell.nil Cell.nil :=
  ⟨rfl, .nil⟩

/-- The same name, bound to cells that are alike. -/
structure Binding (like : Likeness) (binding binding' : Text × Cell) : Prop where
  name_eq : binding.1 = binding'.1
  cell : like.Cells binding.2 binding'.2

/-- Bindings of the same names in the same order to cells that are alike. -/
abbrev Scopes (like : Likeness) : Bindings → Bindings → Prop :=
  List.Forall₂ like.Binding

section

variable {bindings bindings' : Bindings} {cell cell' : Cell}

/-- Bindings with a name bound anew are alike. -/
theorem Scopes.put (alike : like.Scopes bindings bindings') (name : Text)
    (isCell : like.Cells cell cell') :
    like.Scopes (bindings.put name cell) (bindings'.put name cell') := by
  induction alike with
  | nil => exact .cons ⟨rfl, isCell⟩ .nil
  | @cons binding binding' rest rest' isBinding others ih =>
    obtain ⟨bound, old⟩ := binding
    obtain ⟨bound', old'⟩ := binding'
    obtain rfl : bound = bound' := isBinding.name_eq
    unfold Bindings.put
    split
    · exact .cons ⟨rfl, isCell⟩ others
    · exact .cons isBinding ih

/-- A name is bound in both or in neither, to cells that are alike. -/
theorem Scopes.get? (alike : like.Scopes bindings bindings') (name : Text) :
    Option.Rel like.Cells (bindings.get? name) (bindings'.get? name) := by
  unfold Bindings.get?
  induction alike with
  | nil => exact .none
  | @cons binding binding' rest rest' isBinding _ ih =>
    obtain ⟨bound, old⟩ := binding
    obtain ⟨bound', old'⟩ := binding'
    obtain rfl : bound = bound' := isBinding.name_eq
    rw [List.lookup_cons, List.lookup_cons]
    split
    · exact .some isBinding.cell
    · exact ih

/-- A name is bound in both or in neither. -/
theorem Scopes.binds_eq (alike : like.Scopes bindings bindings') (name : Text) :
    bindings.binds name = bindings'.binds name := by
  have found := alike.get? name
  unfold Bindings.binds
  generalize bindings.get? name = cell at found
  generalize bindings'.get? name = cell' at found
  cases found <;> rfl

end

/-- Two stores of the same scopes, with bindings that are alike. -/
structure Stores (like : Likeness) (store store' : Store) : Prop where
  size_eq : store.size = store'.size
  enclosing?_eq : ∀ scope, store.enclosing? scope = store'.enclosing? scope
  bindings : ∀ scope, like.Scopes (store.bindings scope) (store'.bindings scope)

namespace Stores

variable {store store' : Store} {cell cell' : Cell}

/-- A name is resolved to one scope. -/
theorem resolve_eq (alike : like.Stores store store') (scope : ScopeId) (name : Text) :
    store.resolve scope name = store'.resolve scope name := by
  have chain (steps : Nat) (scope : ScopeId) :
      store.chainFor steps scope = store'.chainFor steps scope := by
    induction steps generalizing scope with
    | zero => rfl
    | succ steps ih =>
      rw [Store.chainFor, Store.chainFor, alike.enclosing?_eq]
      split
      · rfl
      · rw [ih]
  unfold Store.resolve Store.chain
  rw [chain]
  exact congrArg (List.find? · _) (funext fun scope => (alike.bindings scope).binds_eq name)

/-- A name stands for a cell in both or in neither, and the cells are alike. -/
theorem get? (alike : like.Stores store store') (scope : ScopeId) (name : Text) :
    Option.Rel like.Cells (store.get? scope name) (store'.get? scope name) := by
  unfold Store.get?
  rw [alike.resolve_eq]
  cases store'.resolve scope name with
  | none => exact .none
  | some found => exact (alike.bindings found).get? name

/-- Stores with a name bound anew are alike. -/
theorem define (alike : like.Stores store store') (scope : ScopeId) (name : Text)
    (isCell : like.Cells cell cell') :
    like.Stores (store.define scope name cell) (store'.define scope name cell') where
  size_eq := by
    unfold Store.define
    rw [Store.size_modify, Store.size_modify, alike.size_eq]
  enclosing?_eq other := by
    rw [Store.enclosing?_define, Store.enclosing?_define, alike.enclosing?_eq]
  bindings other := by
    rw [Store.bindings_define, Store.bindings_define, alike.size_eq]
    split
    · exact (alike.bindings other).put name isCell
    · exact alike.bindings other

/-- A name can be assigned to in both or in neither, and the stores are alike afterwards. -/
theorem assign? (alike : like.Stores store store') (scope : ScopeId) (name : Text)
    (isCell : like.Cells cell cell') :
    Option.Rel like.Stores (store.assign? scope name cell) (store'.assign? scope name cell') := by
  unfold Store.assign?
  rw [alike.resolve_eq]
  cases store'.resolve scope name with
  | none => exact .none
  | some found => exact .some (alike.define found name isCell)

/-- Stores with one more scope are alike. -/
theorem push (alike : like.Stores store store') (enclosing : Option ScopeId)
    {bindings bindings' : Bindings} (areAlike : like.Scopes bindings bindings') :
    like.Stores (store.push enclosing bindings) (store'.push enclosing bindings') where
  size_eq := by rw [Store.size_push, Store.size_push, alike.size_eq]
  enclosing?_eq scope := by
    rw [Store.enclosing?_push, Store.enclosing?_push, alike.size_eq, alike.enclosing?_eq]
  bindings scope := by
    rw [Store.bindings_push, Store.bindings_push, alike.size_eq]
    split
    · exact areAlike
    · exact alike.bindings scope

/-- Stores with their oldest scopes only are alike. -/
theorem truncate (alike : like.Stores store store') (count : Nat) :
    like.Stores (store.truncate count) (store'.truncate count) where
  size_eq := by rw [Store.size_truncate, Store.size_truncate, alike.size_eq]
  enclosing?_eq scope := by
    rw [Store.enclosing?_truncate, Store.enclosing?_truncate, alike.enclosing?_eq]
  bindings scope := by
    rw [Store.bindings_truncate, Store.bindings_truncate]
    split
    · exact alike.bindings scope
    · exact .nil

end Stores

/-- Two states with the same output in which stores and traces are alike. -/
structure States (like : Likeness) (left right : State) : Prop where
  store : like.Stores left.store right.store
  current_eq : left.current = right.current
  nextCell_eq : left.nextCell = right.nextCell
  output_eq : left.output = right.output
  traces : like.traces left.trace right.trace

namespace States

variable {left right : State}

/-- States are alike when a scope is opened in both. -/
theorem enter (alike : like.States left right) (enclosing : ScopeId) {bindings bindings' : Bindings}
    (areAlike : like.Scopes bindings bindings') :
    like.States (Exec.enter enclosing bindings left) (Exec.enter enclosing bindings' right) where
  store := alike.store.push (some enclosing) areAlike
  current_eq := alike.store.size_eq
  nextCell_eq := alike.nextCell_eq
  output_eq := alike.output_eq
  traces := alike.traces

/-- States are alike when the scopes opened since are dropped in both. -/
theorem leave (alike : like.States left right) (current : ScopeId) (scopes : Nat) :
    like.States (Exec.leave current scopes left) (Exec.leave current scopes right) where
  store := alike.store.truncate scopes
  current_eq := rfl
  nextCell_eq := alike.nextCell_eq
  output_eq := alike.output_eq
  traces := alike.traces

end States

/-- Parameters are bound in both or in neither, to arguments that are alike. -/
theorem bindParameters {parameters parameters' : List Token} {arguments arguments' : List Cell}
    {bound bound' : Bindings} (areParameters : List.Forall₂ (like.tokens .parameter) parameters parameters')
    (areCells : List.Forall₂ like.Cells arguments arguments') (areBound : like.Scopes bound bound') :
    Option.Rel like.Scopes (Lox.bindParameters parameters arguments bound)
      (Lox.bindParameters parameters' arguments' bound') := by
  induction areParameters generalizing arguments arguments' bound bound' with
  | nil => exact .some areBound
  | cons isParameter _ ih =>
    cases areCells with
    | nil => exact .none
    | cons isCell areCells =>
      unfold Lox.bindParameters
      rw [like.text_eq isParameter]
      exact ih areCells (areBound.put _ isCell)

section

variable {first second : Token → Token}
  (same : ∀ role token token', like.tokens role token token' → first token = second token')

include same

/-- Values that are alike are the same with their tokens changed, if the changes bring any two tokens
that stand for each other together. -/
theorem Values.mapTokens_eq {value value' : Value} (alike : like.Values value value') :
    value.mapTokens first = value'.mapTokens second := by
  cases alike with
  | function name parameters body =>
    rw [Value.mapTokens, Value.mapTokens, same _ _ _ name, Node.map_eq_of_forall₂_tokens same parameters,
      Node.Matched.mapTokensOfList_eq same _ _ body]
  | _ => rfl

/-- Bindings that are alike are the same with their tokens changed, if the changes bring any two tokens
that stand for each other together. -/
theorem Scopes.mapTokens_eq {bindings bindings' : Bindings} (alike : like.Scopes bindings bindings') :
    bindings.mapTokens first = bindings'.mapTokens second := by
  induction alike with
  | nil => rfl
  | @cons binding binding' rest rest' isBinding _ ih =>
    have isCell : binding.2.mapTokens first = binding'.2.mapTokens second := by
      rw [Cell.mapTokens, Cell.mapTokens, isBinding.cell.id_eq, isBinding.cell.value.mapTokens_eq same]
    change (binding.1, binding.2.mapTokens first) :: Bindings.mapTokens first rest =
      (binding'.1, binding'.2.mapTokens second) :: Bindings.mapTokens second rest'
    rw [isBinding.name_eq, isCell, ih]

/-- Stores that are alike are the same with their tokens changed, if the changes bring any two tokens
that stand for each other together. -/
theorem Stores.mapTokens_eq {store store' : Store} (alike : like.Stores store store') :
    store.mapTokens first = store'.mapTokens second := by
  refine Store.ext_scopes ?_ (fun scope => ?_) fun scope => ?_
  · rw [Store.size_mapTokens, Store.size_mapTokens, alike.size_eq]
  · rw [Store.bindings_mapTokens, Store.bindings_mapTokens, (alike.bindings scope).mapTokens_eq same]
  · rw [Store.enclosing?_mapTokens, Store.enclosing?_mapTokens, alike.enclosing?_eq]

end

/-- Each token stands for itself only. -/
def OnlySame (like : Likeness) : Prop :=
  ∀ role token token', like.tokens role token token' → token' = token

/-- States that are alike differ in their traces only if tokens are the same. -/
theorem States.eq (onlySame : like.OnlySame) {left right : State} (alike : like.States left right) :
    right = { left with trace := right.trace } := by
  have store : left.store.mapTokens id = right.store.mapTokens id :=
    alike.store.mapTokens_eq fun role token token' isSame => (onlySame role token token' isSame).symm
  rw [Store.mapTokens_id, Store.mapTokens_id] at store
  rw [store, alike.current_eq, alike.nextCell_eq, alike.output_eq]

section

variable (strays : like.strays) (hosted : like.hosted)

include strays hosted

/-- A value is like the one with its tokens changed, if they are and nothing is left out. -/
theorem values_mapTokens {change : Token → Token} {value : Value}
    (same : ∀ role, ∀ token ∈ value.tokens, like.tokens role token (change token)) :
    like.Values value (value.mapTokens change) := by
  cases value with
  | nil => exact .nil
  | bool value => exact .bool value
  | number value => exact .number value
  | text value => exact .text value
  | native name arity operation =>
    cases operation with
    | clock => exact .clock name arity
    | hosted key => exact .hosted name arity key hosted
  | function declaration =>
    simp only [Value.tokens, List.cons_append, List.mem_cons, List.mem_append, or_imp, forall_and,
      forall_eq] at same
    exact .function (same.1 _) (Node.forall₂_map_tokens (same.2.1 _))
      (Node.matched_mapTokensOfList declaration.body same.2.2) (.inl strays)

/-- A store is like the one with the tokens in it changed, if they are and nothing is left out. -/
theorem stores_mapTokens {change : Token → Token} {store : Store}
    (same : ∀ role token, store.Holds token → like.tokens role token (change token)) :
    like.Stores store (store.mapTokens change) where
  size_eq := (Store.size_mapTokens change store).symm
  enclosing?_eq scope := (Store.enclosing?_mapTokens change store scope).symm
  bindings scope := by
    rw [Store.bindings_mapTokens]
    unfold Likeness.Scopes Bindings.mapTokens
    rw [List.forall₂_map_right_iff, List.forall₂_same]
    exact fun binding isBinding => ⟨rfl, rfl, values_mapTokens strays hosted fun role token isToken =>
      same role token ⟨scope, binding, isBinding, isToken⟩⟩

/-- Every store is like itself if the tokens in it are and nothing is left out. -/
theorem stores_self {store : Store}
    (self : ∀ role token, store.Holds token → like.tokens role token token) :
    like.Stores store store := by
  have alike : like.Stores store (store.mapTokens id) := stores_mapTokens strays hosted self
  rwa [Store.mapTokens_id] at alike

end

end Likeness

/-- As many parameters as arguments can be bound. -/
theorem bindParameters_ne_none {parameters : List Token} {arguments : List Cell} (bound : Bindings)
    (same : arguments.length = parameters.length) : bindParameters parameters arguments bound ≠ none := by
  induction parameters generalizing arguments bound with
  | nil => exact nofun
  | cons parameter parameters ih =>
    cases arguments with
    | nil => cases same
    | cons argument arguments => exact ih _ (Nat.succ.inj same)

end Lox
