import Lox.Proofs.Execution.Operations

/-!
# Simulations

A simulation is a connection between two runs that every single operation on a state respects.
Then every statement, expression and call respects it, by induction on the fuel: one lemma says
what a step with more fuel does, and the run lemma follows.

The two runs may have contexts of their own, as long as the time and the number of calls that may
still nest are the same.
-/

namespace Lox

open Pairing

/-- A pairing that every operation on a state respects, definitions and new scopes included. -/
structure Simulation extends Operations where
  define : ∀ left right name cell cell', cells left right cell cell' →
    toPairing.InStep left right anyResults (Exec.define name cell) (Exec.define name cell')
  inBlock : ∀ left right (body body' : Exec Unit),
    (∀ left right, toPairing.InStep left right anyResults body body') →
    toPairing.InStep left right anyResults (Exec.current >>= fun scope => Exec.inScope scope [] body)
      (Exec.current >>= fun scope => Exec.inScope scope [] body')
  inCall : ∀ left right bindings bindings' (body body' : Exec Unit),
    bound left right bindings bindings' →
    (∀ left right, toPairing.InStep left right anyResults body body') →
    toPairing.InStep left right anyResults (Exec.inScope globals bindings body)
      (Exec.inScope globals bindings' body')

namespace Simulation

variable {simulation : Simulation} {fuel : Nat}

/-- Everything that runs with some fuel respects a simulation. -/
structure Respected (simulation : Simulation) (fuel : Nat) : Prop extends
    simulation.toOperations.Evaluated fuel where
  execute : ∀ left right calls node,
    simulation.InStep left right anyResults
      (execute fuel (simulation.first.allowing calls) node)
      (execute fuel (simulation.second.allowing calls) node)

/-- Statements one after another respect a simulation. -/
theorem Respected.statements (respected : simulation.Respected fuel) (calls : Nat)
    (statements : Program) (left right : State) :
    simulation.InStep left right anyResults
      (statements.forM (Lox.execute fuel (simulation.first.allowing calls)))
      (statements.forM (Lox.execute fuel (simulation.second.allowing calls))) :=
  InStep.forM (fun left right node => respected.execute left right calls node) left right

/-- Everything respects a simulation with more fuel. -/
theorem Respected.succ (respected : simulation.Respected fuel) : simulation.Respected (fuel + 1) where
  toEvaluated := respected.toEvaluated.succ fun left right _ _ calls body bound =>
    simulation.inCall left right _ _ _ _ bound (respected.statements calls body)
  execute left right calls node :=
    respected.toEvaluated.execute_succ
      (fun left right calls statements =>
        simulation.inBlock left right _ _ (respected.statements calls statements))
      (fun left right calls node _ => respected.execute left right calls node) left right calls node
      (.inl simulation.define)

/-- Everything respects a simulation, with whatever fuel. -/
theorem respected (simulation : Simulation) (fuel : Nat) : simulation.Respected fuel := by
  induction fuel with
  | zero => exact ⟨simulation.evaluated_zero, fun _ _ _ _ => .unfinished⟩
  | succ fuel ih => exact ih.succ

/-- A run of a program respects a simulation. -/
theorem run (simulation : Simulation) (fuel calls : Nat) (program : Program) (left right : State) :
    simulation.InStep left right anyResults
      (program.run fuel (simulation.first.allowing calls))
      (program.run fuel (simulation.second.allowing calls)) := by
  apply (simulation.trace_allowing left right calls 1 _).bind
  intro after after' _ _ _ _
  have statements := (simulation.respected fuel).statements calls program after after'
  refine (statements.onFault fun last last' fault => ?_).bind fun last last' _ _ _ _ => ?_
  · exact simulation.trace_allowing last last' calls 1 _
  · exact simulation.trace_allowing last last' calls 1 _

end Simulation

end Lox
