import Lox.Proofs.Execution.Frame

/-!
# What a single run keeps

A property of states and a relation from earlier to later states are kept by a run if its operations
keep them. This is the run in step with itself, with the same cells.

Most operations leave the scopes alone, so only assignments need a look. The scopes that there are, the
links between them and the current one are kept by every operation, and by whatever runs.
-/

namespace Lox

open Pairing State

variable {α β : Type}

/-- A property of the states of a run and what becomes of them, which no operation breaks that leaves the
scopes alone, and no assignment. -/
structure Upkeep where
  holds : State → Prop
  kept : State → State → Prop
  refl : ∀ state, kept state state
  trans : ∀ {before middle after}, kept before middle → kept middle after → kept before after
  quiet : ∀ {before after : State}, after.store = before.store → after.current = before.current →
    before.nextCell ≤ after.nextCell → holds before → holds after ∧ kept before after
  assign : ∀ {state : State} {scope : ScopeId} {name : Text} (cell : Cell),
    state.store.resolve state.current name = some scope → holds state →
    holds { state with store := state.store.define scope name cell } ∧
      kept state { state with store := state.store.define scope name cell }

namespace Upkeep

variable {upkeep : Upkeep}

/-- A step breaks nothing. -/
def Keeps (upkeep : Upkeep) (step : Exec α) : Prop :=
  ∀ state, upkeep.holds state → ∀ after ∈ (step state).last,
    upkeep.holds after ∧ upkeep.kept state after

/-- The run with itself. -/
def pairing (upkeep : Upkeep) : Pairing where
  states left right := left = right ∧ upkeep.holds left
  later left _ left' _ := upkeep.kept left left'
  cells _ _ := Eq
  later_refl left _ := upkeep.refl left
  later_trans := upkeep.trans
  cells_later _ isCell := isCell

/-- A step that breaks nothing is in step with itself. -/
theorem Keeps.inStep {step : Exec α} {results : State → State → α → α → Prop}
    (keeps : upkeep.Keeps step) (areResults : ∀ state value, results state state value value)
    (left right : State) : upkeep.pairing.InStep left right results step step := by
  intro states
  obtain ⟨rfl, holds⟩ := states
  have after := keeps left holds
  generalize step left = outcome at after ⊢
  cases outcome with
  | done value last =>
    obtain ⟨holds', kept⟩ := after last List.mem_cons_self
    exact .done ⟨rfl, holds'⟩ kept (areResults last value)
  | failed fault last =>
    obtain ⟨holds', kept⟩ := after last List.mem_cons_self
    exact .failed ⟨rfl, holds'⟩ kept
  | unfinished => exact .unfinished

/-- What is in step with itself breaks nothing. -/
theorem keeps_of_inStep {step : Exec α} {results : State → State → α → α → Prop}
    (inStep : ∀ state, upkeep.pairing.InStep state state results step step) :
    upkeep.Keeps step := by
  intro state holds after isAfter
  have ends := inStep state ⟨rfl, holds⟩
  generalize step state = outcome at ends isAfter
  cases ends with
  | done states kept _ =>
    obtain rfl := List.mem_singleton.mp isAfter
    exact ⟨states.2, kept⟩
  | failed states kept =>
    obtain rfl := List.mem_singleton.mp isAfter
    exact ⟨states.2, kept⟩
  | unfinished => exact absurd isAfter List.not_mem_nil

/-- A value that is there already breaks nothing. -/
theorem keeps_pure (value : α) : upkeep.Keeps (pure value) := by
  intro state holds after isAfter
  obtain rfl := List.mem_singleton.mp isAfter
  exact ⟨holds, upkeep.refl after⟩

/-- Steps in sequence break nothing if none of them does. -/
theorem Keeps.bind {step : Exec α} {next : α → Exec β} (keeps : upkeep.Keeps step)
    (follow : ∀ value, upkeep.Keeps (next value)) : upkeep.Keeps (step >>= next) := by
  intro state holds after isAfter
  obtain ⟨isAfter, -⟩ | ⟨value, middle, isDone, isAfter⟩ := Exec.cases_last_bind isAfter
  · exact keeps state holds after isAfter
  · obtain ⟨holds', kept⟩ := keeps state holds middle (Outcome.mem_last isDone)
    obtain ⟨holds'', kept'⟩ := follow value middle holds' after isAfter
    exact ⟨holds'', upkeep.trans kept kept'⟩

/-- A new cell leaves the scopes alone. -/
theorem keeps_newCell (value : Value) : upkeep.Keeps (Exec.newCell value) := by
  intro state holds after isAfter
  unfold Exec.newCell at isAfter
  generalize value.sharedCell? = shared at isAfter
  cases shared with
  | some cell =>
    obtain rfl := List.mem_singleton.mp isAfter
    exact ⟨holds, upkeep.refl after⟩
  | none =>
    obtain rfl := List.mem_singleton.mp isAfter
    exact upkeep.quiet rfl rfl (Nat.le_succ _) holds

/-- A look-up changes nothing. -/
theorem keeps_lookup (name : Token) : upkeep.Keeps (Exec.lookup name) := by
  intro state holds after isAfter
  unfold Exec.lookup at isAfter
  split at isAfter
  all_goals
    obtain rfl := List.mem_singleton.mp isAfter
    exact ⟨holds, upkeep.refl after⟩

/-- An assignment defines a name anew where it is resolved to. -/
theorem keeps_assign (name : Token) (cell : Cell) : upkeep.Keeps (Exec.assign name cell) := by
  intro state holds after isAfter
  unfold Exec.assign at isAfter
  split at isAfter
  · next store assigned =>
    obtain ⟨scope, isResolved, rfl⟩ := Store.assign?_eq_some_iff.mp assigned
    obtain rfl := List.mem_singleton.mp isAfter
    exact upkeep.assign cell isResolved holds
  · obtain rfl := List.mem_singleton.mp isAfter
    exact ⟨holds, upkeep.refl after⟩

/-- Printing leaves the scopes alone. -/
theorem keeps_write (line : Text) : upkeep.Keeps (Exec.write line) := by
  intro state holds after isAfter
  obtain rfl := List.mem_singleton.mp isAfter
  exact upkeep.quiet rfl rfl (Nat.le_refl _) holds

/-- Tracing leaves the scopes alone. -/
theorem keeps_record (line : Text) : upkeep.Keeps (Exec.record line) := by
  intro state holds after isAfter
  obtain rfl := List.mem_singleton.mp isAfter
  exact upkeep.quiet rfl rfl (Nat.le_refl _) holds

/-- A line of a trace leaves the scopes alone. -/
theorem keeps_trace (upkeep : Upkeep) (context : Context) (level : Nat) (line : Text) :
    upkeep.Keeps (context.trace level line) := by
  unfold Context.trace
  split
  · split
    · intro state holds after isAfter
      obtain rfl := List.mem_singleton.mp isAfter
      exact ⟨holds, upkeep.refl after⟩
    · exact keeps_record line
  · exact keeps_pure ()

/-- Every operation but a definition is in step with itself. -/
def operations (upkeep : Upkeep) (context : Context) : Operations where
  toPairing := upkeep.pairing
  toContexts := .twice context
  bound := sameBindings
  bound_nil := sameBindings_nil
  bound_put := sameBindings_put
  nilCell _ _ := .pure rfl
  cells_value isCell := congrArg Cell.value isCell
  cells_id := by
    intro left right cell cell' other other' isCell isOther
    obtain rfl : cell = cell' := isCell
    obtain rfl : other = other' := isOther
    rfl
  newCell left right value := (keeps_newCell value).inStep (fun _ _ => rfl) left right
  lookup left right name := (keeps_lookup name).inStep (fun _ _ => rfl) left right
  assign left right name cell cell' isCell := by
    obtain rfl : cell = cell' := isCell
    exact (keeps_assign name cell).inStep (fun _ _ => trivial) left right
  write left right line := (keeps_write line).inStep (fun _ _ => trivial) left right
  trace left right level line :=
    (upkeep.keeps_trace context level line).inStep (fun _ _ => trivial) left right

/-- Whatever gives a cell with some fuel breaks nothing. -/
structure Maintains (upkeep : Upkeep) (fuel : Nat) (context : Context) : Prop where
  evaluate : ∀ node, upkeep.Keeps (evaluate fuel context node)
  callChecked : ∀ line callee arguments, upkeep.Keeps (callChecked fuel context line callee arguments)
  call : ∀ line callee arguments, upkeep.Keeps (call fuel context line callee arguments)

/-- What gives a cell breaks nothing if it is in step with itself. -/
theorem maintains_of_evaluated {fuel : Nat} {context : Context}
    (evaluated : (upkeep.operations context).Evaluated fuel) : upkeep.Maintains fuel context where
  evaluate node := keeps_of_inStep fun state =>
    evaluated.evaluate state state context.callsLeft node
  callChecked line callee arguments := keeps_of_inStep fun state =>
    evaluated.callChecked state state context.callsLeft line callee callee arguments arguments rfl
      (List.forall₂_same.mpr fun _ _ => rfl)
  call line callee arguments := keeps_of_inStep fun state =>
    evaluated.call state state context.callsLeft line callee callee arguments arguments rfl
      (List.forall₂_same.mpr fun _ _ => rfl)

end Upkeep

/-- What every run keeps, in every state. -/
def keptUpkeep : Upkeep where
  holds _ := True
  kept := Kept
  refl := Kept.refl
  trans := Kept.trans
  quiet sameStore sameCurrent cells _ := ⟨trivial, kept_of_store_eq sameStore sameCurrent cells⟩
  assign {state} {scope} {name} cell _ _ := ⟨trivial, kept_define state scope name cell⟩

/-- A definition changes no links. -/
theorem keeps_define (name : Text) (cell : Cell) : keptUpkeep.Keeps (Exec.define name cell) := by
  intro state _ after isAfter
  obtain rfl := List.mem_singleton.mp isAfter
  exact ⟨trivial, kept_define state state.current name cell⟩

/-- A step in a new scope keeps what runs keep if the step itself does. -/
theorem keptUpkeep_inScope {enclosing : ScopeId} {bindings : Bindings} {body body' : Exec Unit}
    (inStep : ∀ left right, keptUpkeep.pairing.InStep left right anyResults body body')
    (state : State) :
    keptUpkeep.pairing.InStep state state anyResults (Exec.inScope enclosing bindings body)
      (Exec.inScope enclosing bindings body') := by
  apply InStep.inScope
  · intro _
    exact ⟨rfl, trivial⟩
  · exact inStep
  · intro after after' _ states kept
    obtain ⟨rfl, -⟩ := states
    exact ⟨⟨rfl, trivial⟩, State.Kept.leave kept⟩

/-- Every operation keeps what runs keep, definitions and new scopes included. -/
def keptSimulation (context : Context) : Simulation where
  toOperations := keptUpkeep.operations context
  define left right name cell cell' isCell := by
    obtain rfl : cell = cell' := isCell
    exact (keeps_define name cell).inStep (fun _ _ => trivial) left right
  inBlock left right body body' inStep states := by
    obtain ⟨rfl, -⟩ := states
    exact keptUpkeep_inScope inStep left ⟨rfl, trivial⟩
  inCall left right bindings bindings' body body' bound inStep states := by
    obtain ⟨rfl, -⟩ := states
    obtain rfl : bindings = bindings' := bound
    exact keptUpkeep_inScope inStep left ⟨rfl, trivial⟩

/-- Whatever gives a cell keeps what runs keep. -/
theorem keptUpkeep_maintains (fuel : Nat) (context : Context) : keptUpkeep.Maintains fuel context :=
  Upkeep.maintains_of_evaluated ((keptSimulation context).respected fuel).toEvaluated

variable {fuel : Nat} {context : Context} {node : Node} {state after : State}

/-- A line of a trace keeps what runs keep. -/
theorem kept_trace {level : Nat} {line : Text}
    (isAfter : after ∈ (context.trace level line state).last) : Kept state after :=
  (keptUpkeep.keeps_trace context level line state trivial after isAfter).2

/-- A statement keeps what runs keep, in every state. -/
theorem kept_execute (isAfter : after ∈ (execute fuel context node state).last) :
    Kept state after :=
  have keeps : keptUpkeep.Keeps (execute fuel context node) := Upkeep.keeps_of_inStep fun state =>
    ((keptSimulation context).respected fuel).execute state state context.callsLeft node
  (keeps state trivial after isAfter).2

/-- An expression keeps what runs keep, in every state. -/
theorem kept_evaluate (isAfter : after ∈ (evaluate fuel context node state).last) :
    Kept state after :=
  ((keptUpkeep_maintains fuel context).evaluate node state trivial after isAfter).2

end Lox
