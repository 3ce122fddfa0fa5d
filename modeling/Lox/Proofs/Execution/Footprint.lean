import Lox.Proofs.Execution.HostCells
import Lox.Proofs.Execution.Pairing
import Lox.Proofs.Execution.StoreLaws
import Lox.Proofs.Node.Leaves

/-!
# The footprint of a run

A run only ever comes upon the leaves of its own tree and of the functions that it finds, and finds them
only in scopes that it can see. So what it changes in the scopes that were there is confined to the
names that these leaves declare or assign to, it stops for want of calls at a closing parenthesis among
them, and what it has printed it never takes back.

The leaves, the scopes and the number of scopes that were there are left open. With all leaves and all
scopes there is nothing to be confined to, and what remains is true of every run.
-/

namespace Lox

/-- The shared cell of a value holds it. -/
theorem value_of_sharedCell? {value : Value} {cell : Cell} (isShared : value.sharedCell? = some cell) :
    cell.value = value := by
  unfold Value.sharedCell? at isShared
  split at isShared <;> cases isShared <;> rfl

/-- All leaves in the body of a function are among some. -/
def Value.Within (among : Leaf → Prop) : Value → Prop
  | .function declaration => Node.AreWithin among declaration.body
  | _ => True

/-- What a run is confined to: the leaves that it comes upon, the scopes that it can see, which are at
least the global one and all new ones, and how many scopes were there before. -/
structure Footprint where
  leaves : Leaf → Prop
  seen : ScopeId → Prop
  count : Nat
  seen_globals : seen globals
  seen_new : ∀ scope, count ≤ scope → seen scope

namespace Footprint

variable {footprint : Footprint} {α β γ : Type}

/-- No leaf declares a name or assigns to it. -/
def Spares (footprint : Footprint) (name : Text) : Prop :=
  ∀ token, footprint.leaves (.token .declared token) ∨ footprint.leaves (.token .assigned token) →
    token.text ≠ name

/-- A state from which only the scopes that can be seen are reached, and in these only functions with
bodies within the leaves. -/
structure Confines (footprint : Footprint) (state : State) : Prop where
  count_le : footprint.count ≤ state.store.size
  current : footprint.seen state.current
  enclosing : ∀ scope outer, footprint.seen scope → state.store.enclosing? scope = some outer →
    footprint.seen outer
  value : ∀ scope, footprint.seen scope → ∀ name cell,
    (state.store.bindings scope).get? name = some cell → cell.value.Within footprint.leaves

/-- A later state has all lines printed before, and in the scopes that were there the names that are
spared are still bound to the same cells. -/
structure Later (footprint : Footprint) (before after : State) : Prop where
  output : before.output.toList <+: after.output.toList
  slot : ∀ scope < footprint.count, ∀ name, footprint.Spares name →
    (after.store.bindings scope).get? name = (before.store.bindings scope).get? name

/-- With the same output and the same scopes a state is later than another. -/
theorem Later.of_eq {before after : State} (output : after.output = before.output)
    (store : after.store = before.store) : footprint.Later before after where
  output := by rw [output]
  slot _ _ _ _ := by rw [store]

/-- A state is later than itself. -/
theorem Later.refl (state : State) : footprint.Later state state :=
  .of_eq rfl rfl

/-- What is later than a later state is later. -/
theorem Later.trans {before middle after : State} (first : footprint.Later before middle)
    (second : footprint.Later middle after) : footprint.Later before after :=
  ⟨first.output.trans second.output, fun scope isOld name spared =>
    (second.slot scope isOld name spared).trans (first.slot scope isOld name spared)⟩

/-- If a run stops for want of calls, it does so at a closing parenthesis among the leaves. -/
def Raises (footprint : Footprint) (fault : Fault) : Prop :=
  ∀ line, fault = .runtime ⟨.stackOverflow, line⟩ →
    ∃ paren, footprint.leaves (.token .closing paren) ∧ paren.line = line

/-- A run from a state ends confined. -/
inductive Ends (footprint : Footprint) (before : State) (results : α → Prop) : Outcome α → Prop
  | done {result : α} {after : State} :
      footprint.Confines after → footprint.Later before after → results result →
      Ends footprint before results (.done result after)
  | failed {fault : Fault} {after : State} :
      footprint.Confines after → footprint.Later before after → footprint.Raises fault →
      Ends footprint before results (.failed fault after)
  | unfinished : Ends footprint before results .unfinished

/-- What a run ends in is confined, and later than what it started from. -/
theorem Ends.of_mem_last {results : α → Prop} {outcome : Outcome α} {before after : State}
    (ends : footprint.Ends before results outcome) (isAfter : after ∈ outcome.last) :
    footprint.Confines after ∧ footprint.Later before after := by
  cases ends with
  | done confined later _ | failed confined later _ =>
    obtain rfl := List.mem_singleton.mp isAfter
    exact ⟨confined, later⟩
  | unfinished => exact absurd isAfter List.not_mem_nil

/-- A step ends confined from all states that are. -/
def Steps (footprint : Footprint) (results : α → Prop) (step : Exec α) : Prop :=
  ∀ state, footprint.Confines state → footprint.Ends state results (step state)

/-- Nothing is asked of the result. -/
def anyResult (_ : α) : Prop :=
  True

/-- The value of a cell is within the leaves. -/
def Cells (footprint : Footprint) (cell : Cell) : Prop :=
  cell.value.Within footprint.leaves

namespace Steps

variable {results : α → Prop} {finals : β → Prop} {step : Exec α}

/-- A value that is there already. -/
theorem pure {result : α} (isResult : results result) :
    footprint.Steps results (Pure.pure result) :=
  fun state confined => .done confined (.refl state) isResult

/-- A fault. -/
theorem fail {fault : Fault} (raises : footprint.Raises fault) :
    footprint.Steps results (Exec.fail fault) :=
  fun state confined => .failed confined (.refl state) raises

/-- A runtime error that has another cause than a want of calls. -/
theorem failAt {line : Int} {cause : Cause} (other : cause ≠ .stackOverflow) :
    footprint.Steps results (Exec.failAt line cause) :=
  .fail fun _ isFault => absurd (congrArg RuntimeError.cause (Fault.runtime.inj isFault)) other

/-- A defect. -/
theorem failDefect (defect : Defect) : footprint.Steps results (Exec.failDefect defect) :=
  .fail fun _ isFault => nomatch isFault

/-- No fuel. -/
theorem unfinished : footprint.Steps results Exec.unfinished :=
  fun _ _ => .unfinished

/-- Steps in sequence end confined when each of them does. -/
theorem bind {next : α → Exec β} (first : footprint.Steps results step)
    (follow : ∀ result, results result → footprint.Steps finals (next result)) :
    footprint.Steps finals (step >>= next) := by
  intro state confined
  have ends := first state confined
  change footprint.Ends state finals (Exec.andThen step next state)
  unfold Exec.andThen
  generalize step state = outcome at ends ⊢
  cases ends with
  | unfinished => exact .unfinished
  | failed confined' later raises => exact .failed confined' later raises
  | @done result after confined' later isResult =>
    have ends' := follow result isResult after confined'
    dsimp only
    generalize next result after = outcome' at ends' ⊢
    cases ends' with
    | unfinished => exact .unfinished
    | failed confined'' later' raises => exact .failed confined'' (later.trans later') raises
    | done confined'' later' isFinal => exact .done confined'' (later.trans later') isFinal

/-- Statements one after another. -/
theorem forM {items : List γ} {run : γ → Exec Unit}
    (each : ∀ item ∈ items, footprint.Steps anyResult (run item)) :
    footprint.Steps anyResult (items.forM run) := by
  induction items with
  | nil => exact .pure trivial
  | cons item items ih =>
    rw [List.forall_mem_cons] at each
    exact each.1.bind fun _ _ => ih each.2

/-- Expressions one after another. -/
theorem mapM {items : List γ} {run : γ → Exec Cell}
    (each : ∀ item ∈ items, footprint.Steps footprint.Cells (run item)) :
    footprint.Steps (fun cells => ∀ cell ∈ cells, footprint.Cells cell) (items.mapM run) := by
  induction items with
  | nil => exact .pure (List.forall_mem_nil _)
  | cons item items ih =>
    rw [List.forall_mem_cons] at each
    rw [List.mapM_cons]
    exact each.1.bind fun _ isCell => (ih each.2).bind fun _ areCells =>
      .pure (List.forall_mem_cons.mpr ⟨isCell, areCells⟩)

/-- The current scope can be seen. -/
theorem current : footprint.Steps footprint.seen Exec.current :=
  fun state confined => .done confined (.refl state) confined.current

/-- A line is printed behind the others. -/
theorem write (line : Text) : footprint.Steps anyResult (Exec.write line) := by
  intro state confined
  refine .done { confined with } ⟨?_, fun _ _ _ _ => rfl⟩ trivial
  rw [Array.toList_push]
  exact List.prefix_append _ _

/-- A line of the trace. -/
theorem trace (context : Context) (level : Nat) (line : Text) :
    footprint.Steps anyResult (context.trace level line) := by
  unfold Context.trace
  split
  · split
    · exact .failDefect _
    · intro state confined
      exact .done { confined with } (.of_eq rfl rfl) trivial
  · exact .pure trivial

/-- A new cell. -/
theorem newCell {value : Value} (within : value.Within footprint.leaves) :
    footprint.Steps footprint.Cells (Exec.newCell value) := by
  intro state confined
  unfold Exec.newCell
  cases isShared : value.sharedCell? with
  | some cell =>
    refine .done confined (.refl state) ?_
    rw [Cells, value_of_sharedCell? isShared]
    exact within
  | none => exact .done { confined with } (.of_eq rfl rfl) within

/-- A name bound anew in some scope, if a leaf declares it or assigns to it. -/
theorem define_at {state : State} {name : Token} {cell : Cell} (scope : ScopeId)
    (isLeaf : footprint.leaves (.token .declared name) ∨ footprint.leaves (.token .assigned name))
    (isCell : footprint.Cells cell) (confined : footprint.Confines state) :
    footprint.Ends state anyResult
      (.done () { state with store := state.store.define scope name.text cell }) := by
  refine .done ⟨?_, confined.current, ?_, ?_⟩ ⟨List.prefix_refl _, ?_⟩ trivial
  · exact Nat.le_trans confined.count_le (Nat.le_of_eq (Store.size_modify _).symm)
  · intro other outer isSeen isEnclosed
    rw [Store.enclosing?_define] at isEnclosed
    exact confined.enclosing other outer isSeen isEnclosed
  · intro other isSeen found bound isBound
    rw [Store.bindings_define] at isBound
    split at isBound
    · rw [Bindings.get?_put] at isBound
      split at isBound
      · obtain rfl := Option.some.inj isBound
        exact isCell
      · exact confined.value other isSeen found bound isBound
    · exact confined.value other isSeen found bound isBound
  · intro other _ found spared
    rw [Store.bindings_define]
    split
    · rw [Bindings.get?_put, if_neg fun same => spared name isLeaf same.symm]
    · rfl

/-- A name bound in the current scope. -/
theorem define {name : Token} {cell : Cell} (isLeaf : footprint.leaves (.token .declared name))
    (isCell : footprint.Cells cell) :
    footprint.Steps anyResult (Exec.define name.text cell) :=
  fun state confined => define_at state.current (.inl isLeaf) isCell confined

/-- A name that is not bound. -/
theorem undefined (name : Token) :
    footprint.Steps results (Exec.failAt name.line (.undefinedVariable name.text)) :=
  .failAt nofun

/-- A name bound anew where it is bound. -/
theorem assign {name : Token} {cell : Cell} (isLeaf : footprint.leaves (.token .assigned name))
    (isCell : footprint.Cells cell) :
    footprint.Steps anyResult (Exec.assign name cell) := by
  intro state confined
  unfold Exec.assign
  split
  · next store assigned =>
    obtain ⟨scope, -, rfl⟩ := Store.assign?_eq_some_iff.mp assigned
    exact define_at scope (.inr isLeaf) isCell confined
  · exact undefined name state confined

end Steps

/-- From a scope that can be seen, outwards, all scopes can be. -/
theorem Confines.seen_of_mem_chainFor {state : State} (confined : footprint.Confines state)
    {scope found : ScopeId} (isSeen : footprint.seen scope) (steps : Nat)
    (isFound : found ∈ state.store.chainFor steps scope) : footprint.seen found := by
  induction steps generalizing scope with
  | zero => exact absurd isFound List.not_mem_nil
  | succ steps ih =>
    rw [Store.chainFor] at isFound
    split at isFound
    · rwa [List.mem_singleton.mp isFound]
    · next outer isEnclosed =>
      obtain rfl | isFurther := List.mem_cons.mp isFound
      · exact isSeen
      · exact ih (confined.enclosing scope outer isSeen isEnclosed) isFurther

/-- The cell that a name stands for. -/
theorem Steps.lookup (name : Token) : footprint.Steps footprint.Cells (Exec.lookup name) := by
  intro state confined
  unfold Exec.lookup
  split
  · next cell isFound =>
    obtain ⟨scope, isResolved, isBound⟩ := Store.get?_eq_some_iff.mp isFound
    have isSeen := confined.seen_of_mem_chainFor confined.current _ (List.mem_of_find?_eq_some isResolved)
    exact .done confined (.refl state) (confined.value scope isSeen _ cell isBound)
  · exact undefined name state confined

/-- All cells that are bound have values within the leaves. -/
def Scopes (footprint : Footprint) (bindings : Bindings) : Prop :=
  ∀ name cell, bindings.get? name = some cell → footprint.Cells cell

/-- Nothing is bound yet. -/
theorem scopes_nil : footprint.Scopes [] :=
  nofun

/-- A new scope can be seen, so what it binds has to be within the leaves. -/
theorem Confines.enter {state : State} (confined : footprint.Confines state) {enclosing : ScopeId}
    {bindings : Bindings} (isSeen : footprint.seen enclosing) (areCells : footprint.Scopes bindings) :
    footprint.Confines (Exec.enter enclosing bindings state) where
  count_le := Nat.le_trans confined.count_le (Nat.le_trans (Nat.le_succ _)
    (Nat.le_of_eq Store.size_push.symm))
  current := footprint.seen_new _ confined.count_le
  enclosing scope outer isSeen' isEnclosed := by
    change (state.store.push (some enclosing) bindings).enclosing? scope = some outer at isEnclosed
    rw [Store.enclosing?_push] at isEnclosed
    split at isEnclosed
    · rwa [← Option.some.inj isEnclosed]
    · exact confined.enclosing scope outer isSeen' isEnclosed
  value scope isSeen' name cell isBound := by
    change ((state.store.push (some enclosing) bindings).bindings scope).get? name = some cell at isBound
    rw [Store.bindings_push] at isBound
    split at isBound
    · exact areCells name cell isBound
    · exact confined.value scope isSeen' name cell isBound

/-- The scopes that were there are as confined when those opened since are dropped. -/
theorem Confines.leave {before after : State} (confined : footprint.Confines before)
    (inside : footprint.Confines after) :
    footprint.Confines (Exec.leave before.current before.store.size after) where
  count_le := Nat.le_trans (Nat.le_min.mpr ⟨confined.count_le, inside.count_le⟩)
    (Nat.le_of_eq Store.size_truncate.symm)
  current := confined.current
  enclosing scope outer isSeen isEnclosed := by
    change (after.store.truncate before.store.size).enclosing? scope = some outer at isEnclosed
    rw [Store.enclosing?_truncate] at isEnclosed
    split at isEnclosed
    · exact inside.enclosing scope outer isSeen isEnclosed
    · cases isEnclosed
  value scope isSeen name cell isBound := by
    change ((after.store.truncate before.store.size).bindings scope).get? name = some cell at isBound
    rw [Store.bindings_truncate] at isBound
    split at isBound
    · exact inside.value scope isSeen name cell isBound
    · cases isBound

/-- What is later inside a new scope is later outside once that is left. -/
theorem Later.leave {before after : State} (confined : footprint.Confines before) {enclosing : ScopeId}
    {bindings : Bindings} (later : footprint.Later (Exec.enter enclosing bindings before) after) :
    footprint.Later before (Exec.leave before.current before.store.size after) where
  output := later.output
  slot scope isOld name spared := by
    have isThere : scope < before.store.size := Nat.lt_of_lt_of_le isOld confined.count_le
    change ((after.store.truncate before.store.size).bindings scope).get? name = _
    rw [Store.bindings_truncate, if_pos isThere, later.slot scope isOld name spared]
    change ((before.store.push (some enclosing) bindings).bindings scope).get? name = _
    rw [Store.bindings_push, if_neg (Nat.ne_of_lt isThere)]

/-- A step inside a new scope. -/
theorem Steps.inScope {enclosing : ScopeId} {bindings : Bindings} {body : Exec α} {results : α → Prop}
    (isSeen : footprint.seen enclosing) (areCells : footprint.Scopes bindings)
    (inside : footprint.Steps results body) :
    footprint.Steps results (Exec.inScope enclosing bindings body) := by
  intro state confined
  have ends := inside _ (confined.enter isSeen areCells)
  unfold Exec.inScope
  dsimp only
  generalize body (Exec.enter enclosing bindings state) = outcome at ends ⊢
  cases ends with
  | done confined' later isResult => exact .done (confined.leave confined') (later.leave confined) isResult
  | failed confined' later raises => exact .failed (confined.leave confined') (later.leave confined) raises
  | unfinished => exact .unfinished

/-- Something more before a fault goes on. -/
theorem Steps.onFault {body : Exec α} {more : Fault → Exec Unit} {results : α → Prop}
    (first : footprint.Steps results body)
    (follow : ∀ fault, footprint.Steps anyResult (more fault)) :
    footprint.Steps results (Exec.onFault body more) := by
  intro state confined
  have ends := first state confined
  unfold Exec.onFault
  generalize body state = outcome at ends ⊢
  cases ends with
  | done confined' later isResult => exact .done confined' later isResult
  | unfinished => exact .unfinished
  | @failed fault after confined' later raises =>
    have ends' := follow fault after confined'
    dsimp only
    generalize more fault after = outcome' at ends' ⊢
    cases ends' with
    | done confined'' later' _ => exact .failed confined'' (later.trans later') raises
    | failed confined'' later' raises' => exact .failed confined'' (later.trans later') raises'
    | unfinished => exact .unfinished

section

variable {arguments : List Cell}

/-- A new cell of a truth value. -/
theorem Steps.newBool (value : Bool) : footprint.Steps footprint.Cells (Exec.newCell (.bool value)) :=
  @newCell _ (.bool value) trivial

/-- A new cell of a number. -/
theorem Steps.newNumber (value : Number) :
    footprint.Steps footprint.Cells (Exec.newCell (.number value)) :=
  @newCell _ (.number value) trivial

/-- A prefix operator. Its value is no function. -/
theorem Steps.applyUnary (operator : Token) (operand : Value) :
    footprint.Steps footprint.Cells (Lox.applyUnary operator operand) := by
  unfold Lox.applyUnary
  split
  · exact .newBool _
  · split
    · exact .newNumber _
    · exact .failAt nofun
  · exact .failDefect _

/-- The value of an operator between two numbers is no function. -/
theorem within_arithmetic? {kind : Kind} {left right : Number} {value : Value}
    (isValue : arithmetic? kind left right = some value) : value.Within footprint.leaves := by
  unfold arithmetic? at isValue
  split at isValue <;> cases isValue <;> trivial

/-- A sum is no function. -/
theorem within_addition? {left right value : Value} (isValue : addition? left right = some value) :
    value.Within footprint.leaves := by
  unfold addition? at isValue
  split at isValue <;> cases isValue <;> trivial

/-- An operator between two values. -/
theorem Steps.applyBinary (operator : Token) (left right : Value) :
    footprint.Steps footprint.Cells (Lox.applyBinary operator left right) := by
  unfold Lox.applyBinary
  split
  · exact .newBool _
  · exact .newBool _
  · split
    · next isValue => exact .newCell (within_addition? isValue)
    · exact .failAt nofun
  · split
    · split
      · next isValue => exact .newCell (within_arithmetic? isValue)
      · exact .failDefect _
    · exact .failAt nofun

/-- The argument at a place. -/
theorem Steps.argument (areCells : ∀ cell ∈ arguments, footprint.Cells cell) (index : Nat) :
    footprint.Steps footprint.Cells (Lox.argument arguments index) := by
  unfold Lox.argument
  split
  · next isCell => exact .pure (areCells _ (List.mem_of_getElem? isCell))
  · exact .failDefect _

/-- A literal is no function. -/
theorem within_ofLiteral (literal : Literal) : (Value.ofLiteral literal).Within footprint.leaves := by
  cases literal <;> trivial

/-- What a host function does ends confined if the functions that it calls do, and it makes no function of
its own. -/
theorem Steps.hostAction (action : HostAction) {invoke : Cell → List Cell → Exec Cell}
    (invoked : ∀ callee arguments, footprint.Cells callee →
      (∀ cell ∈ arguments, footprint.Cells cell) →
      footprint.Steps footprint.Cells (invoke callee arguments))
    (areCells : ∀ cell ∈ arguments, footprint.Cells cell) :
    footprint.Steps footprint.Cells (action.run invoke arguments) := by
  have known {last : Cell} {arguments : List Cell} (areCells : ∀ cell ∈ arguments, footprint.Cells cell)
      (isCell : footprint.Cells last) : ∀ cell ∈ arguments ++ [last], footprint.Cells cell :=
    List.forall_mem_append.mpr ⟨areCells, List.forall_mem_singleton.mpr isCell⟩
  induction action generalizing arguments with
  | answer place => exact .argument areCells place
  | fail error =>
    cases error with
    | failure text => exact .failAt nofun
    | _ => exact .failDefect _
  | create literal next ih =>
    exact (Steps.newCell (within_ofLiteral literal)).bind fun _ isCell => ih (known areCells isCell)
  | print line next ih => exact (Steps.write line).bind fun _ _ => ih areCells
  | call callee given next ih =>
    unfold HostAction.run
    split
    · next callee' cells areNamed =>
      obtain ⟨isKnown, areKnown⟩ := List.forall_mem_cons.mp fun cell isCell =>
        areCells cell (mem_of_cellsAt? areNamed cell isCell)
      exact (invoked callee' cells isKnown areKnown).bind fun _ isCell => ih _ (known areCells isCell)
    · exact .failDefect _

/-- Parameters are bound to arguments. -/
theorem scopes_bindParameters {parameters : List Token} {bound bindings : Bindings}
    (areCells : ∀ cell ∈ arguments, footprint.Cells cell) (areBound : footprint.Scopes bound)
    (isBound : bindParameters parameters arguments bound = some bindings) :
    footprint.Scopes bindings := by
  induction parameters generalizing arguments bound with
  | nil =>
    obtain rfl := Option.some.inj isBound
    exact areBound
  | cons parameter parameters ih =>
    cases arguments with
    | nil => cases isBound
    | cons argument arguments =>
      rw [List.forall_mem_cons] at areCells
      refine ih areCells.2 (fun name cell isCell => ?_) isBound
      rw [Bindings.get?_put] at isCell
      split at isCell
      · obtain rfl := Option.some.inj isCell
        exact areCells.1
      · exact areBound name cell isCell

end

open Node

/-- Everything that runs with some fuel ends confined. -/
structure Confined (footprint : Footprint) (fuel : Nat) : Prop where
  execute : ∀ context node, node.Within footprint.leaves →
    footprint.Steps anyResult (execute fuel context node)
  evaluate : ∀ context node, node.Within footprint.leaves →
    footprint.Steps footprint.Cells (evaluate fuel context node)
  callChecked : ∀ context paren callee arguments, footprint.leaves (.token .closing paren) →
    footprint.Cells callee → (∀ cell ∈ arguments, footprint.Cells cell) →
    footprint.Steps footprint.Cells (callChecked fuel context paren.line callee arguments)
  call : ∀ context paren callee arguments, footprint.leaves (.token .closing paren) →
    footprint.Cells callee → (∀ cell ∈ arguments, footprint.Cells cell) →
    footprint.Steps footprint.Cells (call fuel context paren.line callee arguments)

namespace Confined

variable {fuel : Nat} {context : Context} {node : Node} {nodes : List Node} {paren : Token}
  {callee : Cell} {arguments : List Cell}

/-- Statements one after another end confined. -/
theorem statements (confined : footprint.Confined fuel) (context : Context)
    (within : AreWithin footprint.leaves nodes) :
    footprint.Steps anyResult (nodes.forM (Lox.execute fuel context)) :=
  .forM fun node isNode => confined.execute context node ((areWithin_iff nodes).mp within node isNode)

/-- The initial value of a variable is confined. -/
theorem initializer (confined : footprint.Confined fuel) (context : Context) (initializer : Node) :
    initializer.Within footprint.leaves →
      footprint.Steps footprint.Cells
        (match initializer with
          | .null => pure Cell.nil
          | value => Lox.evaluate fuel context value) := by
  intro within
  cases initializer with
  | null => exact .pure trivial
  | _ => exact confined.evaluate context _ within

/-- Statements end confined with more fuel. -/
theorem execute_succ (confined : footprint.Confined fuel) (within : node.Within footprint.leaves) :
    footprint.Steps anyResult (Lox.execute (fuel + 1) context node) := by
  cases node with
  | expression value => exact (confined.evaluate context value within).bind fun _ _ => .pure trivial
  | print value => exact (confined.evaluate context value within).bind fun _ _ => .write _
  | var name initializer =>
    obtain ⟨isName, within⟩ := within
    exact (confined.initializer context initializer within).bind fun cell isCell =>
      (Steps.define isName isCell).bind fun _ _ => .trace _ _ _
  | block statements =>
    exact Steps.current.bind fun scope isSeen =>
      .inScope isSeen scopes_nil (confined.statements context within)
  | conditional condition thenBranch elseBranch =>
    obtain ⟨isCondition, isThen, isElse⟩ := within
    refine (confined.evaluate context condition isCondition).bind fun cell _ =>
      (Steps.trace _ _ _).bind fun _ _ => ?_
    split
    · exact confined.execute context thenBranch isThen
    · cases elseBranch with
      | null => exact .pure trivial
      | _ => exact confined.execute context _ isElse
  | loop condition body =>
    refine (confined.evaluate context condition within.1).bind fun cell _ =>
      (Steps.trace _ _ _).bind fun _ _ => ?_
    split
    · exact (confined.execute context body within.2).bind fun _ _ =>
        confined.execute context _ within
    · exact .pure trivial
  | function name parameters body =>
    obtain ⟨isName, -, isBody⟩ := within
    exact (@Steps.newCell _ (.function ⟨name, parameters, body⟩) isBody).bind fun cell isCell =>
      (Steps.define isName isCell).bind fun _ _ => .trace _ _ _
  | _ => exact .failDefect _

/-- Expressions end confined with more fuel. -/
theorem evaluate_succ (confined : footprint.Confined fuel) (within : node.Within footprint.leaves) :
    footprint.Steps footprint.Cells (Lox.evaluate (fuel + 1) context node) := by
  cases node with
  | literal value =>
    refine .newCell ?_
    cases value <;> trivial
  | grouping inner => exact confined.evaluate context inner within
  | «variable» name => exact .lookup name
  | assign name value =>
    exact (confined.evaluate context value within.2).bind fun _ isCell =>
      (Steps.assign within.1 isCell).bind fun _ _ => .pure isCell
  | unary operator operand =>
    exact (confined.evaluate context operand within.2).bind fun _ _ => .applyUnary operator _
  | logical left operator right =>
    refine (confined.evaluate context left within.1).bind fun cell isCell => ?_
    split
    · exact .pure isCell
    · exact confined.evaluate context right within.2.2
  | binary left operator right =>
    exact (confined.evaluate context left within.1).bind fun _ _ =>
      (confined.evaluate context right within.2.2).bind fun _ _ => .applyBinary operator _ _
  | call callee paren arguments =>
    obtain ⟨isCallee, isParen, areArguments⟩ := within
    exact (confined.evaluate context callee isCallee).bind fun _ isCell =>
      (Steps.mapM fun node isNode => confined.evaluate context node
        ((areWithin_iff arguments).mp areArguments node isNode)).bind fun _ areCells =>
          confined.callChecked context paren _ _ isParen isCell areCells
  | _ => exact .failDefect _

/-- Checked calls end confined with more fuel. -/
theorem callChecked_succ (confined : footprint.Confined fuel)
    (isParen : footprint.leaves (.token .closing paren)) (isCell : footprint.Cells callee)
    (areCells : ∀ cell ∈ arguments, footprint.Cells cell) :
    footprint.Steps footprint.Cells
      (Lox.callChecked (fuel + 1) context paren.line callee arguments) := by
  unfold Lox.callChecked
  split
  · exact .failAt nofun
  · split
    · exact (Steps.trace _ _ _).bind fun _ _ =>
        confined.call context paren callee arguments isParen isCell areCells
    · exact .failAt nofun

/-- Calls end confined with more fuel. -/
theorem call_succ (confined : footprint.Confined fuel)
    (isParen : footprint.leaves (.token .closing paren)) (isCell : footprint.Cells callee)
    (areCells : ∀ cell ∈ arguments, footprint.Cells cell) :
    footprint.Steps footprint.Cells (Lox.call (fuel + 1) context paren.line callee arguments) := by
  unfold Cells Value.Within at isCell
  unfold Lox.call
  split
  · next declaration isFunction =>
    rw [isFunction] at isCell
    split
    · refine .fail fun line isFault => ⟨paren, isParen, ?_⟩
      exact congrArg RuntimeError.line (Fault.runtime.inj isFault)
    · split
      · exact .failDefect _
      · next bindings isBound =>
        have areBound := scopes_bindParameters areCells scopes_nil isBound
        exact (Steps.inScope footprint.seen_globals areBound (confined.statements _ isCell)).bind
          fun _ _ => .pure trivial
  · exact .newNumber _
  · exact .hostAction _ (fun callee arguments => confined.call context paren callee arguments isParen)
      areCells
  · exact .failDefect _

end Confined

/-- Everything ends confined, with whatever fuel. -/
theorem confined (footprint : Footprint) (fuel : Nat) : footprint.Confined fuel := by
  induction fuel with
  | zero =>
    exact ⟨fun _ _ _ => .unfinished, fun _ _ _ => .unfinished, fun _ _ _ _ _ _ _ => .unfinished,
      fun _ _ _ _ _ _ _ => .unfinished⟩
  | succ fuel ih =>
    exact ⟨fun _ _ => ih.execute_succ, fun _ _ => ih.evaluate_succ,
      fun _ _ _ _ => ih.callChecked_succ, fun _ _ _ _ => ih.call_succ⟩

/-- A program ends confined. -/
theorem Steps.run {program : Program} (within : AreWithin footprint.leaves program) (fuel : Nat)
    (context : Context) : footprint.Steps anyResult (program.run fuel context) :=
  (Steps.trace _ _ _).bind fun _ _ =>
    (((footprint.confined fuel).statements context within).onFault fun _ => .trace _ _ _).bind
      fun _ _ => .trace _ _ _

end Footprint

end Lox
