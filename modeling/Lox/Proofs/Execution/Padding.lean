import Lox.Proofs.Execution.Placement
import Lox.Proofs.Execution.Threshold
import Lox.Proofs.Execution.Upkeep

/-!
# Empty scopes make no difference

Of two runs, one has empty scopes between those of the other. They do the same as long as nothing is
declared in such a scope: they print the same, make the same cells, fail alike and leave the same bindings
in the scopes that stand for each other. The empty scopes stay empty.

So a statement that declares nothing of its own may as well run in a new scope.
-/

namespace Lox

open Pairing State

variable {placement : Placement} {left right after after' : State}

/-- A state has empty scopes besides those of another one, and is equal otherwise. From the current scope
one comes past empty ones to the other's current scope. -/
structure State.PaddedBy (placement : Placement) (left right : State) : Prop where
  stores : placement.Padded left.store right.store
  leads : placement.LeadsTo right.store right.current left.current
  isThere : left.current < left.store.size
  cells : right.nextCell = left.nextCell
  output : right.output = left.output
  trace : right.trace = left.trace

/-- What becomes of two runs, one of which has empty scopes besides: both keep what runs keep, and the
empty scopes are left as they are. -/
structure State.PaddedLater (placement : Placement) (left right left' right' : State) : Prop where
  kept : Kept left left'
  current : right'.current = right.current
  inserted : placement.InsertedKept right.store right'.store

/-- A run with another one that has empty scopes besides. -/
def paddedPairing (placement : Placement) : Pairing where
  states := PaddedBy placement
  later := PaddedLater placement
  cells _ _ := Eq
  later_refl left right := ⟨Kept.refl left, rfl, .refl right.store⟩
  later_trans first second := ⟨first.kept.trans second.kept, second.current.trans first.current,
    first.inserted.trans second.inserted⟩
  cells_later _ isCell := isCell

/-- New cells are made alike. -/
theorem paddedPairing_newCell (left right : State) (value : Value) :
    (paddedPairing placement).InStep left right (paddedPairing placement).cells (Exec.newCell value)
      (Exec.newCell value) := by
  intro states
  unfold Exec.newCell
  cases value.sharedCell? with
  | some cell => exact .done states ⟨Kept.refl left, rfl, .refl right.store⟩ rfl
  | none =>
    refine .done ⟨states.stores, states.leads, states.isThere, ?_, states.output, states.trace⟩
      ⟨kept_of_store_eq rfl rfl (Nat.le_succ _), rfl, .refl right.store⟩ ?_
    · exact congrArg Nat.succ states.cells
    · exact congrArg (Cell.mk · value) states.cells.symm

/-- Names are looked up alike. -/
theorem paddedPairing_lookup (left right : State) (name : Token) :
    (paddedPairing placement).InStep left right (paddedPairing placement).cells (Exec.lookup name)
      (Exec.lookup name) := by
  intro states
  unfold Exec.lookup
  rw [states.stores.get? states.leads]
  cases left.store.get? left.current name.text with
  | none => exact .failed states ⟨Kept.refl left, rfl, .refl right.store⟩
  | some cell => exact .done states ⟨Kept.refl left, rfl, .refl right.store⟩ rfl

/-- A definition in scopes that stand for each other goes on alike. -/
theorem State.PaddedBy.define (states : PaddedBy placement left right) (scope : ScopeId) (name : Text)
    (cell : Cell) :
    PaddedBy placement { left with store := left.store.define scope name cell }
        { right with store := right.store.define (placement.place scope) name cell } ∧
      PaddedLater placement left right { left with store := left.store.define scope name cell }
        { right with store := right.store.define (placement.place scope) name cell } := by
  have inserted : placement.InsertedKept right.store
      (right.store.define (placement.place scope) name cell) :=
    Placement.insertedKept_modify right.store scope (Bindings.put name cell)
  refine ⟨⟨states.stores.modify scope _, states.leads.of_kept inserted, ?_, states.cells,
    states.output, states.trace⟩, kept_define left scope name cell, rfl, inserted⟩
  exact Nat.lt_of_lt_of_eq states.isThere (Store.size_modify _).symm

/-- Names are assigned alike. -/
theorem paddedPairing_assign (left right : State) (name : Token) (cell cell' : Cell)
    (isCell : (paddedPairing placement).cells left right cell cell') :
    (paddedPairing placement).InStep left right anyResults (Exec.assign name cell)
      (Exec.assign name cell') := by
  intro states
  obtain rfl : cell = cell' := isCell
  unfold Exec.assign Store.assign?
  rw [states.stores.resolve states.leads]
  cases left.store.resolve left.current name.text with
  | none => exact .failed states ⟨Kept.refl left, rfl, .refl right.store⟩
  | some scope =>
    obtain ⟨states', later⟩ := states.define scope name.text cell
    exact .done states' later trivial

/-- What runs in new scopes goes on alike, if these are opened where one leads to the other. -/
theorem paddedPairing_inScope {scope scope' : ScopeId} {bindings : Bindings} {body body' : Exec Unit}
    (leads : placement.LeadsTo right.store scope' scope) (isThere : scope < left.store.size)
    (inStep : ∀ left right, right.current = placement.place left.current →
      (paddedPairing placement).InStep left right anyResults body body') :
    (paddedPairing placement).InStep left right anyResults (Exec.inScope scope bindings body)
      (Exec.inScope scope' bindings body') := by
  intro states
  have newest : right.store.size = placement.place left.store.size := states.stores.size
  refine InStep.inScope_at (fun _ => ?_) (inStep _ _ newest) ?_ states
  · refine ⟨states.stores.push leads isThere bindings, ?_, ?_, states.cells, states.output,
      states.trace⟩
    · change placement.LeadsTo _ right.store.size left.store.size
      rw [newest]
      exact .here _
    · exact Nat.lt_of_lt_of_eq (Nat.lt_succ_self _) Store.size_push.symm
  · intro after after' _ states' later
    have more : left.store.size ≤ after.store.size :=
      Nat.le_trans (Nat.le_succ _) (Nat.le_of_eq (later.kept.size.trans Store.size_push).symm)
    have inserted : placement.InsertedKept right.store
        (after'.store.truncate right.store.size) := by
      refine ((states.stores.insertedKept_push (some scope') bindings).trans later.inserted).trans ?_
      rw [newest]
      exact Placement.insertedKept_truncate _ states.stores.more
    refine ⟨⟨?_, states.leads.of_kept inserted, ?_, states'.cells, states'.output, states'.trace⟩,
      later.kept.leave, rfl, inserted⟩
    · change placement.Padded (after.store.truncate left.store.size)
        (after'.store.truncate right.store.size)
      rw [newest]
      exact states'.stores.truncate states.stores.more more
    · exact Nat.lt_of_lt_of_eq states.isThere later.kept.leave.size.symm

/-- Runs that differ in empty scopes go on alike, as long as they define nothing in those. -/
def paddedThreshold (placement : Placement) (context : Context) : Threshold where
  toPairing := paddedPairing placement
  toContexts := .twice context
  bound := sameBindings
  bound_nil := sameBindings_nil
  bound_put := sameBindings_put
  nilCell _ _ := .pure rfl
  cells_value isCell := congrArg Cell.value isCell
  cells_id := by
    intro left right cell cell' other other' isCell isOther
    obtain rfl : cell = cell' := isCell
    obtain rfl : other = other' := isOther
    rfl
  newCell := paddedPairing_newCell
  lookup := paddedPairing_lookup
  assign := paddedPairing_assign
  write left right line states :=
    .done ⟨states.stores, states.leads, states.isThere, states.cells,
        congrArg (Array.push · line) states.output, states.trace⟩
      ⟨kept_of_store_eq rfl rfl (Nat.le_refl _), rfl, .refl right.store⟩ trivial
  trace left right level line := .trace context level fun states =>
    .done ⟨states.stores, states.leads, states.isThere, states.cells, states.output,
        congrArg (Array.push · line) states.trace⟩
      ⟨kept_of_store_eq rfl rfl (Nat.le_refl _), rfl, .refl right.store⟩ trivial
  inside left right := right.current = placement.place left.current
  inside_later later isInside := by rw [later.current, later.kept.current, isInside]
  define left right name cell cell' isInside isCell states := by
    obtain rfl : cell = cell' := isCell
    have defined := states.define left.current name cell
    rw [← isInside] at defined
    exact .done defined.1 defined.2 trivial
  inBlock left right body body' inStep states :=
    paddedPairing_inScope states.leads states.isThere inStep states
  inCall left right bindings bindings' body body' bound inStep states := by
    obtain rfl : bindings = bindings' := bound
    have leads : placement.LeadsTo right.store globals globals := by
      have isPlaced : placement.LeadsTo right.store (placement.place globals) globals := .here globals
      rwa [placement.globals] at isPlaced
    exact paddedPairing_inScope leads (Nat.lt_of_le_of_lt (Nat.zero_le _) states.isThere) inStep states

/-- A step that empty scopes make no difference to. -/
def Exec.Transparent {α : Type} (step : Exec α) : Prop :=
  ∀ placement left right, (paddedPairing placement).InStep left right (fun _ _ => Eq) step step

namespace Exec.Transparent

variable {α β : Type} {fuel : Nat} {context : Context} {node : Node}

/-- A result is there whatever the scopes are. -/
theorem pure (value : α) : Transparent (Pure.pure value) :=
  fun _ _ _ => .pure rfl

/-- No fuel. -/
theorem unfinished : Transparent (Exec.unfinished : Exec α) :=
  fun _ _ _ => .unfinished

/-- Empty scopes make no difference to steps in sequence if they make none to each of them. -/
theorem bind {step : Exec α} {next : α → Exec β} (first : Transparent step)
    (follow : ∀ value, Transparent (next value)) : Transparent (step >>= next) :=
  fun placement left right => (first placement left right).bind
    fun after after' value _ _ same => same ▸ follow value placement after after'

/-- Empty scopes make no difference to traces. -/
theorem trace (context : Context) (level : Nat) (line : Text) :
    Transparent (context.trace level line) :=
  fun placement left right =>
    ((paddedThreshold placement context).trace left right level line).weaken fun _ _ _ _ _ => rfl

/-- Empty scopes make no difference to expressions. -/
theorem evaluate : Transparent (Lox.evaluate fuel context node) :=
  fun placement left right =>
    ((paddedThreshold placement context).evaluated fuel).evaluate left right context.callsLeft node

/-- Empty scopes make no difference to statements that declare nothing of their own. -/
theorem execute (undeclaring : node.Undeclaring) : Transparent (Lox.execute fuel context node) :=
  fun placement left right =>
    ((paddedThreshold placement context).executed fuel left right context.callsLeft node
      (.inr undeclaring)).weaken fun _ _ _ _ _ => rfl

/-- Empty scopes make no difference to statements one after another that declare nothing of their own. -/
theorem statements {statements : Program}
    (undeclaring : ∀ statement ∈ statements, statement.Undeclaring) :
    Transparent (statements.forM (Lox.execute fuel context)) := by
  induction statements with
  | nil => exact .pure ()
  | cons statement statements ih =>
    obtain ⟨first, others⟩ := List.forall_mem_cons.mp undeclaring
    exact (Transparent.execute first).bind fun _ => ih others

end Exec.Transparent

/-- The state's scopes are newer than those that enclose them, and its current scope is there. -/
structure State.Nested (state : State) : Prop where
  ordered : state.store.Ordered
  isThere : state.current < state.store.size

/-- What a run keeps includes the order of scopes. -/
theorem State.Nested.of_kept {state : State} (nested : state.Nested) (kept : Kept state after) :
    after.Nested where
  ordered scope outer isEnclosed :=
    nested.ordered scope outer ((kept.enclosing scope).symm.trans isEnclosed)
  isThere := by
    rw [kept.current, kept.size]
    exact nested.isThere

/-- In a new scope the scopes are in order again. -/
theorem State.Nested.enter {state : State} (nested : state.Nested) :
    (Exec.enter state.current [] state).Nested where
  ordered := nested.ordered.push nested.isThere
  isThere := Nat.lt_of_lt_of_eq (Nat.lt_succ_self _) Store.size_push.symm

/-- In the state with an empty global scope the scopes are in order. -/
theorem State.nested_blank : State.blank.Nested where
  ordered scope outer isEnclosed := by
    change (Store.empty.push none []).enclosing? scope = some outer at isEnclosed
    rw [Store.enclosing?_push] at isEnclosed
    split at isEnclosed
    · cases isEnclosed
    · rw [Store.enclosing?_of_size_le (Nat.zero_le scope)] at isEnclosed
      cases isEnclosed
  isThere := Nat.zero_lt_one

/-- A new empty scope pads the state it is opened in. -/
theorem State.Nested.paddedBy_enter {state : State} (nested : state.Nested)
    (positive : 0 < state.store.size) :
    PaddedBy (Placement.skipping state.store.size positive) state
      (Exec.enter state.current [] state) where
  stores := Placement.padded_skipping nested.ordered nested.isThere positive
  leads := Placement.leadsTo_skipping nested.isThere positive
  isThere := nested.isThere
  cells := rfl
  output := rfl
  trace := rfl

/-- Leaving a scope that pads a state gives that state. -/
theorem State.PaddedBy.leave_eq {count : Nat} {positive : 0 < count}
    (states : PaddedBy (Placement.skipping count positive) left right)
    (size : left.store.size = count) : Exec.leave left.current count right = left := by
  have sameStore : right.store.truncate count = left.store := states.stores.truncate_skipping size
  unfold Exec.leave
  rw [sameStore, states.cells, states.output, states.trace]

/-- A step that empty scopes make no difference to may as well run in a new one. -/
theorem Exec.Transparent.inScope_eq {step : Exec Unit} (transparent : step.Transparent)
    {state : State} (nested : state.Nested) : Exec.inScope state.current [] step state = step state := by
  have positive : 0 < state.store.size := Nat.zero_lt_of_lt nested.isThere
  have ends := transparent _ _ _ (nested.paddedBy_enter positive)
  unfold Exec.inScope
  dsimp only
  generalize step state = outcome at ends ⊢
  generalize step (Exec.enter state.current [] state) = outcome' at ends ⊢
  have back {after after' : State}
      (states : PaddedBy (Placement.skipping state.store.size positive) after after')
      (kept : Kept state after) : Exec.leave state.current state.store.size after' = after := by
    rw [← kept.current]
    exact states.leave_eq kept.size
  cases ends with
  | done states later same =>
    dsimp only
    rw [same, back states later.kept]
  | failed states later =>
    dsimp only
    rw [back states later.kept]
  | unfinished => rfl

/-- Statements in a block that declare nothing of their own may as well be executed one after another in the
current scope. -/
theorem execute_block_eq {fuel : Nat} {context : Context} {statements : Program} {state : State}
    (undeclaring : ∀ statement ∈ statements, statement.Undeclaring) (nested : state.Nested) :
    execute (fuel + 1) context (.block statements) state =
      statements.forM (execute fuel context) state :=
  (Exec.Transparent.statements undeclaring).inScope_eq nested

end Lox
