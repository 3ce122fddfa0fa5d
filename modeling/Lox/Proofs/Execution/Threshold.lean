import Lox.Proofs.Execution.Simulation

/-!
# Thresholds

Two runs may be in step in the scopes that they open, and where they stand as long as they define
nothing there. Then expressions, calls and blocks are in step, and so are all statements that declare
nothing of their own.

Inside, where the runs may define names, this is a simulation. Outside it is carried by what expressions
and statements are made of.
-/

namespace Lox

open Pairing

/-- A pairing that every operation respects, definitions only in certain states, and in such states
the scopes are that runs open. -/
structure Threshold extends Operations where
  inside : State → State → Prop
  inside_later : ∀ {left right left' right'}, later left right left' right' → inside left right →
    inside left' right'
  define : ∀ left right name cell cell', inside left right → cells left right cell cell' →
    toPairing.InStep left right anyResults (Exec.define name cell) (Exec.define name cell')
  inBlock : ∀ left right (body body' : Exec Unit),
    (∀ left right, inside left right → toPairing.InStep left right anyResults body body') →
    toPairing.InStep left right anyResults (Exec.current >>= fun scope => Exec.inScope scope [] body)
      (Exec.current >>= fun scope => Exec.inScope scope [] body')
  inCall : ∀ left right bindings bindings' (body body' : Exec Unit),
    bound left right bindings bindings' →
    (∀ left right, inside left right → toPairing.InStep left right anyResults body body') →
    toPairing.InStep left right anyResults (Exec.inScope globals bindings body)
      (Exec.inScope globals bindings' body')

namespace Threshold

variable {α β : Type} {threshold : Threshold} {left right : State}
  {results : State → State → α → β → Prop} {step : Exec α} {step' : Exec β}

/-- The pairing of runs that are inside. -/
def within (threshold : Threshold) : Pairing :=
  { threshold.toPairing with
    states := fun left right => threshold.states left right ∧ threshold.inside left right }

/-- Runs that are inside stay there. -/
theorem inStep_within (inStep : threshold.InStep left right results step step') :
    threshold.within.InStep left right results step step' := by
  intro states
  have ends := inStep states.1
  generalize step left = outcome at ends ⊢
  generalize step' right = outcome' at ends ⊢
  cases ends with
  | done states' later isResult =>
    exact .done ⟨states', threshold.inside_later later states.2⟩ later isResult
  | failed states' later => exact .failed ⟨states', threshold.inside_later later states.2⟩ later
  | unfinished => exact .unfinished

/-- What is in step inside is in step. -/
theorem inStep_of_within (isInside : threshold.inside left right)
    (inStep : threshold.within.InStep left right results step step') :
    threshold.InStep left right results step step' := by
  intro states
  have ends := inStep ⟨states, isInside⟩
  generalize step left = outcome at ends ⊢
  generalize step' right = outcome' at ends ⊢
  cases ends with
  | done states' later isResult => exact .done states'.1 later isResult
  | failed states' later => exact .failed states'.1 later
  | unfinished => exact .unfinished

/-- Inside, every operation is in step. -/
def simulation (threshold : Threshold) : Simulation where
  toPairing := threshold.within
  toContexts := threshold.toContexts
  bound := threshold.bound
  bound_nil := threshold.bound_nil
  bound_put := threshold.bound_put
  nilCell left right := inStep_within (threshold.nilCell left right)
  cells_value := threshold.cells_value
  cells_id := threshold.cells_id
  newCell left right value := inStep_within (threshold.newCell left right value)
  lookup left right name := inStep_within (threshold.lookup left right name)
  assign left right name cell cell' isCell :=
    inStep_within (threshold.assign left right name cell cell' isCell)
  write left right line := inStep_within (threshold.write left right line)
  trace left right level line := inStep_within (threshold.trace left right level line)
  define left right name cell cell' isCell states :=
    inStep_within (threshold.define left right name cell cell' states.2 isCell) states
  inBlock left right body body' inStep :=
    inStep_within (threshold.inBlock left right body body' fun left right isInside =>
      inStep_of_within isInside (inStep left right))
  inCall left right bindings bindings' body body' bound inStep :=
    inStep_within (threshold.inCall left right bindings bindings' body body' bound
      fun left right isInside => inStep_of_within isInside (inStep left right))

/-- Statements one after another are in step inside. -/
theorem statements (threshold : Threshold) (fuel calls : Nat) (statements : Program)
    (left right : State) (isInside : threshold.inside left right) :
    threshold.InStep left right anyResults
      (statements.forM (execute fuel (threshold.first.allowing calls)))
      (statements.forM (execute fuel (threshold.second.allowing calls))) :=
  inStep_of_within isInside
    ((threshold.simulation.respected fuel).statements calls statements left right)

/-- Everything that gives a cell is in step. -/
theorem evaluated (threshold : Threshold) (fuel : Nat) :
    threshold.toOperations.Evaluated fuel := by
  induction fuel with
  | zero => exact threshold.evaluated_zero
  | succ fuel ih =>
    exact ih.succ fun left right bindings bindings' calls body bound =>
      threshold.inCall left right bindings bindings' _ _ bound
        (threshold.statements fuel calls body)

/-- Statements that declare nothing of their own are in step. -/
theorem executed (threshold : Threshold) (fuel : Nat) (left right : State) (calls : Nat)
    (node : Node) (admits : threshold.toOperations.Admits node) :
    threshold.InStep left right anyResults (execute fuel (threshold.first.allowing calls) node)
      (execute fuel (threshold.second.allowing calls) node) := by
  induction fuel generalizing left right calls node with
  | zero => exact .unfinished
  | succ fuel ih =>
    exact (threshold.evaluated fuel).execute_succ
      (fun left right calls statements =>
        threshold.inBlock left right _ _ (threshold.statements fuel calls statements))
      ih left right calls node admits

end Threshold

end Lox
