import Lox.Proofs.Execution.Lag

/-!
# More fuel

A run that ends with some fuel ends in the same way with more. Whatever a step with little fuel does
approximates what it does with much: it has run out of fuel, or it does the same.

Approximation goes through sequences of steps. The second steps are compared only in the states that the
first ones end in.
-/

namespace Lox

variable {α β : Type}

namespace Exec

/-- A step has run out of fuel in a state, or ends there as another one does. -/
def Approximates (step step' : Exec α) (state : State) : Prop :=
  step state = .unfinished ∨ step state = step' state

namespace Approximates

variable {step step' step'' : Exec α} {state : State}

/-- A step ends as it does. -/
theorem refl (step : Exec α) (state : State) : Approximates step step state :=
  .inr rfl

/-- No fuel approximates anything. -/
theorem unfinished (step : Exec α) (state : State) : Approximates Exec.unfinished step state :=
  .inl rfl

/-- A step may be approximated in several stages. -/
theorem trans (first : Approximates step step' state) (second : Approximates step' step'' state) :
    Approximates step step'' state := by
  obtain isUnfinished | same := first
  · exact .inl isUnfinished
  · obtain isUnfinished | same' := second
    · exact .inl (same.trans isUnfinished)
    · exact .inr (same.trans same')

/-- A step approximates what another one does that ends as it in the state. -/
theorem of_eq_left (same : step state = step' state)
    (approximates : Approximates step' step'' state) : Approximates step step'' state := by
  unfold Approximates
  rw [same]
  exact approximates

/-- A step approximates others that end in the state as one that it approximates. -/
theorem of_eq_right (approximates : Approximates step step' state)
    (same : step' state = step'' state) : Approximates step step'' state := by
  unfold Approximates
  rw [← same]
  exact approximates

/-- An approximation that is over ends as what it approximates. -/
theorem eq_of_over (approximates : Approximates step step' state) {outcome : Outcome α}
    (ended : step state = outcome) (isOver : outcome ≠ .unfinished) : step' state = outcome := by
  obtain isUnfinished | same := approximates
  · exact absurd (ended.symm.trans isUnfinished) isOver
  · exact same.symm.trans ended

/-- Steps in sequence approximate others if the first ones do, and the second ones do where the first
ones end. -/
theorem bind {next next' : α → Exec β} (first : Approximates step step' state)
    (follow : ∀ value after, step state = .done value after →
      Approximates (next value) (next' value) after) :
    Approximates (step >>= next) (step' >>= next') state := by
  change andThen step next state = .unfinished ∨ andThen step next state = andThen step' next' state
  unfold andThen
  obtain isUnfinished | same := first
  · rw [isUnfinished]
    exact .inl rfl
  · rw [← same]
    cases ended : step state with
    | done value after => exact follow value after ended
    | failed fault after => exact .inr rfl
    | unfinished => exact .inl rfl

/-- A step in a new scope approximates another if it does so inside. -/
theorem inScope {enclosing : ScopeId} {bindings : Bindings}
    (inside : Approximates step step' (enter enclosing bindings state)) :
    Approximates (inScope enclosing bindings step) (Exec.inScope enclosing bindings step') state := by
  change Exec.inScope enclosing bindings step state = .unfinished ∨ _
  unfold Exec.inScope
  dsimp only
  obtain isUnfinished | same := inside
  · rw [isUnfinished]
    exact .inl rfl
  · rw [same]
    exact .inr rfl

end Approximates

end Exec

open Exec

/-- What lags behind where no run is deeper approximates. -/
theorem Exec.Lags.approximates {step step' : Exec α} (lags : Lags False step step') (state : State) :
    Approximates step step' state := by
  have lag := lags.lag state
  unfold Approximates
  generalize step state = outcome at lag ⊢
  generalize step' state = outcome' at lag ⊢
  cases lag with
  | unfinished => exact .inl rfl
  | same => exact .inr rfl
  | overflow isDeeper _ => exact isDeeper.elim

/-- Everything that runs with some fuel runs so with some more, or runs out of fuel. -/
structure Approximated (fuel more : Nat) : Prop where
  execute : ∀ context node state,
    Approximates (execute fuel context node) (execute more context node) state
  statements : ∀ context (statements : Program) state,
    Approximates (statements.forM (Lox.execute fuel context))
      (statements.forM (Lox.execute more context)) state
  evaluate : ∀ context node state,
    Approximates (evaluate fuel context node) (evaluate more context node) state
  evaluateAll : ∀ context (nodes : List Node) state,
    Approximates (nodes.mapM (Lox.evaluate fuel context)) (nodes.mapM (Lox.evaluate more context))
      state
  callChecked : ∀ context line callee arguments state,
    Approximates (callChecked fuel context line callee arguments)
      (callChecked more context line callee arguments) state
  call : ∀ context line callee arguments state,
    Approximates (call fuel context line callee arguments) (call more context line callee arguments)
      state

/-- Everything runs as with more fuel. -/
theorem approximated {fuel more : Nat} (enough : fuel ≤ more) : Approximated fuel more :=
  have all := lagging False enough
  have same (context : Context) : Allows False context.callsLeft context.callsLeft := .inl rfl
  { execute := fun context node => (all.execute context (same context) node).approximates
    statements := fun context statements =>
      (all.statements context (same context) statements).approximates
    evaluate := fun context node => (all.evaluate context (same context) node).approximates
    evaluateAll := fun context _ => (Exec.Lags.mapM (all.evaluate context (same context))).approximates
    callChecked := fun context line callee arguments =>
      (all.callChecked context (same context) line callee arguments).approximates
    call := fun context line callee arguments =>
      (all.call context (same context) line callee arguments).approximates }

end Lox
