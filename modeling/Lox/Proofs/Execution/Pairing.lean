import Lox.Execution.Evaluation
import Mathlib.Data.List.Forall2

/-!
# Runs in step

Two runs are in step when they end alike, in states that are connected as their first states were.
What connects states is left open here, and so is which cells stand for each other; being in step
goes through sequences of steps whatever they are.

One run in step with itself is a run that keeps an invariant, so this serves for those as well.
-/

namespace Lox

variable {α β γ δ : Type}

/-- The state that an outcome leaves, if any. -/
def Outcome.last : Outcome α → List State
  | .done _ state | .failed _ state => [state]
  | .unfinished => []

/-- A normal end is what an outcome leaves. -/
theorem Outcome.mem_last {outcome : Outcome α} {value : α} {after : State}
    (ended : outcome = .done value after) : after ∈ outcome.last := by
  rw [ended]
  exact List.mem_singleton_self after

/-- What steps in sequence leave is left by the first one where that does not end normally, and by the
second one otherwise. -/
theorem Exec.cases_last_bind {step : Exec α} {next : α → Exec β} {state after : State}
    (isAfter : after ∈ ((step >>= next) state).last) :
    (after ∈ (step state).last ∧ ∀ value middle, step state ≠ .done value middle) ∨
      ∃ value middle, step state = .done value middle ∧ after ∈ (next value middle).last := by
  change after ∈ (andThen step next state).last at isAfter
  unfold andThen at isAfter
  cases isOutcome : step state with
  | done value middle =>
    rw [isOutcome] at isAfter
    exact .inr ⟨value, middle, rfl, isAfter⟩
  | failed fault last =>
    rw [isOutcome] at isAfter
    exact .inl ⟨isAfter, nofun⟩
  | unfinished =>
    rw [isOutcome] at isAfter
    exact nomatch isAfter

/-- A connection between the states and the cells of two runs. What may become of two states says
what has to hold between them and the states that two runs end in. -/
structure Pairing where
  states : State → State → Prop
  later : State → State → State → State → Prop
  cells : State → State → Cell → Cell → Prop
  later_refl : ∀ left right, later left right left right
  later_trans : ∀ {left right left' right' left'' right''}, later left right left' right' →
    later left' right' left'' right'' → later left right left'' right''
  cells_later : ∀ {left right left' right' cell cell'}, later left right left' right' →
    cells left right cell cell' → cells left' right' cell cell'

namespace Pairing

variable {pairing : Pairing}

/-- Two runs from given states end alike. -/
inductive Ends (pairing : Pairing) (left right : State) (results : State → State → α → β → Prop) :
    Outcome α → Outcome β → Prop
  | done {result : α} {result' : β} {after after' : State} :
      pairing.states after after' → pairing.later left right after after' →
      results after after' result result' →
      Ends pairing left right results (.done result after) (.done result' after')
  | failed {fault : Fault} {after after' : State} :
      pairing.states after after' → pairing.later left right after after' →
      Ends pairing left right results (.failed fault after) (.failed fault after')
  | unfinished : Ends pairing left right results .unfinished .unfinished

/-- Two steps end alike from given states, if those are connected. -/
def InStep (pairing : Pairing) (left right : State) (results : State → State → α → β → Prop)
    (step : Exec α) (step' : Exec β) : Prop :=
  pairing.states left right → pairing.Ends left right results (step left) (step' right)

/-- Nothing is asked of the results. -/
def anyResults : State → State → α → β → Prop :=
  fun _ _ _ _ => True

variable {left right left' right' : State} {results results' : State → State → α → β → Prop}
  {step : Exec α} {step' : Exec β}

/-- What ends alike from later states ends alike from earlier ones. -/
theorem Ends.earlier {outcome : Outcome α} {outcome' : Outcome β}
    (ends : pairing.Ends left' right' results outcome outcome')
    (later : pairing.later left right left' right') :
    pairing.Ends left right results outcome outcome' := by
  cases ends with
  | done states later' result => exact .done states (pairing.later_trans later later') result
  | failed states later' => exact .failed states (pairing.later_trans later later')
  | unfinished => exact .unfinished

/-- Steps that end alike do so when less is asked of their results. -/
theorem InStep.weaken (inStep : pairing.InStep left right results step step')
    (weaker : ∀ after after' result result', results after after' result result' →
      results' after after' result result') : pairing.InStep left right results' step step' := by
  intro states
  have ends := inStep states
  generalize step left = outcome at ends ⊢
  generalize step' right = outcome' at ends ⊢
  cases ends with
  | done states later result => exact .done states later (weaker _ _ _ _ result)
  | failed states later => exact .failed states later
  | unfinished => exact .unfinished

/-- Values that are there already. -/
theorem InStep.pure {result : α} {result' : β} (isResult : results left right result result') :
    pairing.InStep left right results (Pure.pure result) (Pure.pure result') :=
  fun states => .done states (pairing.later_refl left right) isResult

/-- The same fault in both runs. -/
theorem InStep.fail (fault : Fault) :
    pairing.InStep left right results (Exec.fail fault) (Exec.fail fault) :=
  fun states => .failed states (pairing.later_refl left right)

/-- No fuel in both runs. -/
theorem InStep.unfinished : pairing.InStep left right results Exec.unfinished Exec.unfinished :=
  fun _ => .unfinished

/-- Steps in sequence end alike when each of them does. -/
theorem InStep.bind {finals : State → State → γ → δ → Prop} {next : α → Exec γ} {next' : β → Exec δ}
    (inStep : pairing.InStep left right results step step')
    (follow : ∀ after after' result result', pairing.later left right after after' →
      results after after' result result' →
      pairing.InStep after after' finals (next result) (next' result')) :
    pairing.InStep left right finals (step >>= next) (step' >>= next') := by
  intro states
  have ends := inStep states
  change pairing.Ends left right finals (Exec.andThen step next left)
    (Exec.andThen step' next' right)
  unfold Exec.andThen
  generalize step left = outcome at ends ⊢
  generalize step' right = outcome' at ends ⊢
  cases ends with
  | done states later result => exact (follow _ _ _ _ later result states).earlier later
  | failed states later => exact .failed states later
  | unfinished => exact .unfinished

/-- The same statements one after another. -/
theorem InStep.forM {items : List γ} {run run' : γ → Exec Unit}
    (each : ∀ left right item, pairing.InStep left right anyResults (run item) (run' item))
    (left right : State) :
    pairing.InStep left right anyResults (items.forM run) (items.forM run') := by
  induction items generalizing left right with
  | nil => exact .pure trivial
  | cons item items ih => exact (each left right item).bind fun after after' _ _ _ _ => ih after after'

/-- The cells of some expressions, evaluated one after another. -/
theorem InStep.mapM {items : List γ} {run run' : γ → Exec Cell}
    (each : ∀ left right item, pairing.InStep left right pairing.cells (run item) (run' item))
    (left right : State) :
    pairing.InStep left right (fun after after' => List.Forall₂ (pairing.cells after after'))
      (items.mapM run) (items.mapM run') := by
  induction items generalizing left right with
  | nil => exact .pure .nil
  | cons item items ih =>
    rw [List.mapM_cons, List.mapM_cons]
    apply (each left right item).bind
    intro after after' cell cell' _ isCell
    apply (ih after after').bind
    intro last last' cells cells' later areCells
    exact .pure (.cons (pairing.cells_later later isCell) areCells)

/-- Something more in both runs before a fault goes on. -/
theorem InStep.onFault {more more' : Fault → Exec Unit}
    (inStep : pairing.InStep left right results step step')
    (follow : ∀ after after' fault,
      pairing.InStep after after' anyResults (more fault) (more' fault)) :
    pairing.InStep left right results (Exec.onFault step more) (Exec.onFault step' more') := by
  intro states
  have ends := inStep states
  unfold Exec.onFault
  generalize step left = outcome at ends ⊢
  generalize step' right = outcome' at ends ⊢
  cases ends with
  | done states later result => exact .done states later result
  | @failed fault after after' states later =>
    have ends' := follow after after' fault states
    dsimp only
    generalize more fault after = last at ends' ⊢
    generalize more' fault after' = last' at ends' ⊢
    cases ends' with
    | done states' later' _ => exact .failed states' (pairing.later_trans later later')
    | failed states' later' => exact .failed states' (pairing.later_trans later later')
    | unfinished => exact .unfinished
  | unfinished => exact .unfinished

/-- A line of a trace, if adding one keeps runs in step. -/
theorem InStep.trace (context : Context) (level : Nat) {line : Text}
    (record : pairing.InStep left right anyResults (Exec.record line) (Exec.record line)) :
    pairing.InStep left right anyResults (context.trace level line) (context.trace level line) := by
  unfold Context.trace
  split
  · split
    · exact .fail _
    · exact record
  · exact .pure trivial

/-- A step inside a new scope in both runs, if it keeps them in step from where the scopes are opened, and
so do opening the scopes and leaving them. -/
theorem InStep.inScope_at {scope scope' : ScopeId} {bindings bindings' : Bindings}
    {body body' : Exec Unit}
    (enter : pairing.states left right →
      pairing.states (Exec.enter scope bindings left) (Exec.enter scope' bindings' right))
    (inStep : pairing.InStep (Exec.enter scope bindings left) (Exec.enter scope' bindings' right)
      anyResults body body')
    (leave : ∀ after after', pairing.states left right → pairing.states after after' →
      pairing.later (Exec.enter scope bindings left) (Exec.enter scope' bindings' right) after
        after' →
      pairing.states (Exec.leave left.current left.store.size after)
          (Exec.leave right.current right.store.size after') ∧
        pairing.later left right (Exec.leave left.current left.store.size after)
          (Exec.leave right.current right.store.size after')) :
    pairing.InStep left right anyResults (Exec.inScope scope bindings body)
      (Exec.inScope scope' bindings' body') := by
  intro states
  have ends := inStep (enter states)
  unfold Exec.inScope
  dsimp only
  generalize body (Exec.enter scope bindings left) = outcome at ends ⊢
  generalize body' (Exec.enter scope' bindings' right) = outcome' at ends ⊢
  cases ends with
  | @done _ _ after after' inside later _ =>
    have outside := leave after after' states inside later
    exact .done outside.1 outside.2 trivial
  | @failed _ after after' inside later =>
    have outside := leave after after' states inside later
    exact .failed outside.1 outside.2
  | unfinished => exact .unfinished

/-- A step inside a new scope in both runs, if opening the scopes and leaving them keeps the runs in
step. -/
theorem InStep.inScope {scope scope' : ScopeId} {bindings bindings' : Bindings}
    {body body' : Exec Unit}
    (enter : pairing.states left right →
      pairing.states (Exec.enter scope bindings left) (Exec.enter scope' bindings' right))
    (inStep : ∀ left right, pairing.InStep left right anyResults body body')
    (leave : ∀ after after', pairing.states left right → pairing.states after after' →
      pairing.later (Exec.enter scope bindings left) (Exec.enter scope' bindings' right) after
        after' →
      pairing.states (Exec.leave left.current left.store.size after)
          (Exec.leave right.current right.store.size after') ∧
        pairing.later left right (Exec.leave left.current left.store.size after)
          (Exec.leave right.current right.store.size after')) :
    pairing.InStep left right anyResults (Exec.inScope scope bindings body)
      (Exec.inScope scope' bindings' body') :=
  .inScope_at enter (inStep _ _) leave

/-- Cells that stand for each other go on doing so. -/
theorem forall₂_later {cells cells' : List Cell}
    (later : pairing.later left right left' right')
    (areCells : List.Forall₂ (pairing.cells left right) cells cells') :
    List.Forall₂ (pairing.cells left' right') cells cells' :=
  areCells.imp fun _ _ => pairing.cells_later later

end Pairing

end Lox
