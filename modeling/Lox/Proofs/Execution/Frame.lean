import Lox.Execution.Session
import Lox.Proofs.Execution.Simulation
import Lox.Proofs.Execution.StoreLaws

/-!
# What every run keeps

A run leaves as many scopes as there were, with the same enclosing ones, and the same scope is
current again, whether it ends normally or in a fault. Cells are numbered without gaps for ever:
every cell that a name is bound to has a number below that of the next new one.

This is one run in step with itself. So the states of a session always have a global scope that
nothing encloses.
-/

namespace Lox

namespace State

/-- Every cell that a name is bound to has a number below that of the next new cell. -/
structure Numbered (state : State) : Prop where
  shared : firstFreshCell ≤ state.nextCell
  bound : ∀ scope name cell, (state.store.bindings scope).get? name = some cell →
    cell.id < state.nextCell

/-- A later state has the same scopes in the same places, the same current one, and no fewer
cells. -/
structure Kept (before after : State) : Prop where
  size : after.store.size = before.store.size
  current : after.current = before.current
  enclosing : ∀ scope, after.store.enclosing? scope = before.store.enclosing? scope
  cells : before.nextCell ≤ after.nextCell

/-- The state of a session: there is a global scope, nothing encloses it, and cells are numbered. -/
structure Ready (state : State) : Prop extends Numbered state where
  hasGlobals : 0 < state.store.size
  outermost : state.store.enclosing? globals = none

variable {before middle after : State}

/-- With the same scopes and no fewer cells everything is kept. -/
theorem kept_of_store_eq (sameStore : after.store = before.store)
    (sameCurrent : after.current = before.current) (cells : before.nextCell ≤ after.nextCell) :
    Kept before after where
  size := congrArg Store.size sameStore
  current := sameCurrent
  enclosing scope := congrArg (Store.enclosing? · scope) sameStore
  cells := cells

/-- A state keeps what it has. -/
theorem Kept.refl (state : State) : Kept state state :=
  kept_of_store_eq rfl rfl (Nat.le_refl _)

/-- What is kept twice is kept. -/
theorem Kept.trans (first : Kept before middle) (second : Kept middle after) :
    Kept before after where
  size := second.size.trans first.size
  current := second.current.trans first.current
  enclosing scope := (second.enclosing scope).trans (first.enclosing scope)
  cells := Nat.le_trans first.cells second.cells

/-- A definition keeps the scopes. -/
theorem kept_define (state : State) (scope : ScopeId) (name : Text) (cell : Cell) :
    Kept state { state with store := state.store.define scope name cell } :=
  ⟨Store.size_modify _, rfl, fun _ => Store.enclosing?_modify _, Nat.le_refl _⟩

/-- A definition with a numbered cell keeps the numbering. -/
theorem Numbered.define {state : State} {cell : Cell} (numbered : state.Numbered)
    (isNumbered : cell.id < state.nextCell) (scope : ScopeId) (name : Text) :
    ({ state with store := state.store.define scope name cell } : State).Numbered where
  shared := numbered.shared
  bound other found bound isBound := by
    rw [Store.bindings_define] at isBound
    split at isBound
    · rw [Bindings.get?_put] at isBound
      split at isBound
      · obtain rfl := Option.some.inj isBound
        exact isNumbered
      · exact numbered.bound other found bound isBound
    · exact numbered.bound other found bound isBound

/-- A new scope with numbered cells keeps the numbering. -/
theorem Numbered.enter {state : State} {bindings : Bindings} (numbered : state.Numbered)
    (areNumbered : ∀ name cell, bindings.get? name = some cell → cell.id < state.nextCell)
    (enclosing : ScopeId) : (Exec.enter enclosing bindings state).Numbered where
  shared := numbered.shared
  bound scope name cell isBound := by
    change ((state.store.push (some enclosing) bindings).bindings scope).get? name = _ at isBound
    rw [Store.bindings_push] at isBound
    split at isBound
    · exact areNumbered name cell isBound
    · exact numbered.bound scope name cell isBound

/-- Fewer scopes keep the numbering. -/
theorem Numbered.leave {state : State} (numbered : state.Numbered) (current : ScopeId)
    (scopes : Nat) : (Exec.leave current scopes state).Numbered where
  shared := numbered.shared
  bound scope name cell isBound := by
    change ((state.store.truncate scopes).bindings scope).get? name = _ at isBound
    rw [Store.bindings_truncate] at isBound
    split at isBound
    · exact numbered.bound scope name cell isBound
    · exact absurd isBound (by simp [Bindings.get?])

/-- What is kept inside a scope that was there is kept outside once the other is turned back to. -/
theorem Kept.turn {scope : ScopeId} (kept : Kept (Exec.turn scope before) after) :
    Kept before (Exec.turn before.current after) :=
  ⟨kept.size, rfl, kept.enclosing, kept.cells⟩

/-- What is kept inside a new scope is kept outside once that is left. -/
theorem Kept.leave {enclosing : ScopeId} {bindings : Bindings}
    (kept : Kept (Exec.enter enclosing bindings before) after) :
    Kept before (Exec.leave before.current before.store.size after) := by
  have more : after.store.size = before.store.size + 1 := kept.size.trans Store.size_push
  refine ⟨?_, rfl, fun scope => ?_, kept.cells⟩
  · change (after.store.truncate before.store.size).size = _
    rw [Store.size_truncate, more]
    omega
  · change (after.store.truncate before.store.size).enclosing? scope = _
    rw [Store.enclosing?_truncate, kept.enclosing]
    change (if scope < before.store.size then
      (before.store.push (some enclosing) bindings).enclosing? scope else none) = _
    split
    · next isThere => rw [Store.enclosing?_push, if_neg (Nat.ne_of_lt isThere)]
    · next absent => rw [Store.enclosing?_of_size_le (Nat.le_of_not_lt absent)]

end State

open Pairing State

/-- One run with itself, in numbered states. -/
def framePairing : Pairing where
  states left right := left = right ∧ left.Numbered
  later left _ left' _ := Kept left left'
  cells left _ cell cell' := cell = cell' ∧ cell.id < left.nextCell
  later_refl left _ := Kept.refl left
  later_trans := Kept.trans
  cells_later later isCell := ⟨isCell.1, Nat.lt_of_lt_of_le isCell.2 later.cells⟩

/-- The shared cells come before all others. -/
theorem sharedCell?_id_lt {value : Value} {cell : Cell} (shared : value.sharedCell? = some cell) :
    cell.id < firstFreshCell := by
  unfold Value.sharedCell? at shared
  split at shared <;> cases shared <;> decide

variable {left right : State} {results : State → State → Unit → Unit → Prop}

/-- A new cell is numbered, and so are all others afterwards. -/
theorem framePairing_newCell (left right : State) (value : Value) :
    framePairing.InStep left right framePairing.cells (Exec.newCell value) (Exec.newCell value) := by
  intro states
  obtain ⟨rfl, numbered⟩ := states
  unfold Exec.newCell
  cases shared : value.sharedCell? with
  | some cell =>
    exact .done ⟨rfl, numbered⟩ (Kept.refl left)
      ⟨rfl, Nat.lt_of_lt_of_le (sharedCell?_id_lt shared) numbered.shared⟩
  | none =>
    refine .done ⟨rfl, ?_⟩ (kept_of_store_eq rfl rfl (Nat.le_succ _)) ⟨rfl, Nat.lt_succ_self _⟩
    exact ⟨Nat.le_succ_of_le numbered.shared, fun scope name cell isBound =>
      Nat.lt_succ_of_lt (numbered.bound scope name cell isBound)⟩

/-- A cell that is looked up is numbered. -/
theorem framePairing_lookup (left right : State) (name : Token) :
    framePairing.InStep left right framePairing.cells (Exec.lookup name) (Exec.lookup name) := by
  intro states
  obtain ⟨rfl, numbered⟩ := states
  unfold Exec.lookup
  split
  · next cell found =>
    obtain ⟨scope, -, isBound⟩ := Store.get?_eq_some_iff.mp found
    exact .done ⟨rfl, numbered⟩ (Kept.refl left) ⟨rfl, numbered.bound scope _ cell isBound⟩
  · exact .failed ⟨rfl, numbered⟩ (Kept.refl left)

/-- An assignment of a numbered cell keeps the frame. -/
theorem framePairing_assign (left right : State) (name : Token) (cell cell' : Cell)
    (isCell : framePairing.cells left right cell cell') :
    framePairing.InStep left right anyResults (Exec.assign name cell) (Exec.assign name cell') := by
  intro states
  obtain ⟨rfl, numbered⟩ := states
  obtain ⟨rfl, isNumbered⟩ := isCell
  unfold Exec.assign
  split
  · next after assigned =>
    obtain ⟨scope, -, rfl⟩ := Store.assign?_eq_some_iff.mp assigned
    exact .done ⟨rfl, numbered.define isNumbered scope _⟩ (kept_define left scope _ cell) trivial
  · exact .failed ⟨rfl, numbered⟩ (Kept.refl left)

/-- A step in a new scope with numbered cells keeps the frame. -/
theorem framePairing_inScope {state : State} {enclosing : ScopeId} {bindings : Bindings}
    (areNumbered : ∀ name cell, bindings.get? name = some cell → cell.id < state.nextCell)
    {body body' : Exec Unit}
    (inStep : ∀ left right, framePairing.InStep left right anyResults body body') :
    framePairing.InStep state state anyResults (Exec.inScope enclosing bindings body)
      (Exec.inScope enclosing bindings body') := by
  apply InStep.inScope
  · intro states
    exact ⟨rfl, states.2.enter areNumbered enclosing⟩
  · exact inStep
  · intro after after' _ states kept
    obtain ⟨rfl, numbered⟩ := states
    exact ⟨⟨rfl, numbered.leave _ _⟩, State.Kept.leave kept⟩

/-- A line that is printed keeps the frame. -/
theorem framePairing_write (left right : State) (line : Text) :
    framePairing.InStep left right anyResults (Exec.write line) (Exec.write line) := by
  intro states
  obtain ⟨rfl, numbered⟩ := states
  exact .done ⟨rfl, numbered.shared, numbered.bound⟩ (kept_of_store_eq rfl rfl (Nat.le_refl _)) trivial

/-- A line of a trace keeps the frame. -/
theorem framePairing_record (left right : State) (line : Text) :
    framePairing.InStep left right anyResults (Exec.record line) (Exec.record line) := by
  intro states
  obtain ⟨rfl, numbered⟩ := states
  exact .done ⟨rfl, numbered.shared, numbered.bound⟩ (kept_of_store_eq rfl rfl (Nat.le_refl _)) trivial

/-- Every operation on a state keeps the frame. -/
def frameSimulation (context : Context) : Simulation where
  toPairing := framePairing
  toContexts := .twice context
  bound left _ bindings bindings' :=
    bindings = bindings' ∧ ∀ name cell, bindings.get? name = some cell → cell.id < left.nextCell
  bound_nil _ _ := ⟨rfl, fun _ _ isBound => absurd isBound (by simp [Bindings.get?])⟩
  bound_put := by
    intro left right bindings bindings' cell cell' name bound isCell
    obtain ⟨rfl, areNumbered⟩ := bound
    obtain ⟨rfl, isNumbered⟩ := isCell
    refine ⟨rfl, fun other found isBound => ?_⟩
    rw [Bindings.get?_put] at isBound
    split at isBound
    · obtain rfl := Option.some.inj isBound
      exact isNumbered
    · exact areNumbered other found isBound
  nilCell left right states := by
    obtain ⟨rfl, numbered⟩ := states
    exact .done ⟨rfl, numbered⟩ (Kept.refl left) ⟨rfl, Nat.lt_of_lt_of_le (by decide) numbered.shared⟩
  cells_value isCell := congrArg Cell.value isCell.1
  cells_id isCell isOther := by rw [isCell.1, isOther.1]
  newCell := framePairing_newCell
  lookup := framePairing_lookup
  assign := framePairing_assign
  define left right name cell cell' isCell states := by
    obtain ⟨rfl, numbered⟩ := states
    obtain ⟨rfl, isNumbered⟩ := isCell
    exact .done ⟨rfl, numbered.define isNumbered _ _⟩ (kept_define left _ _ cell) trivial
  write := framePairing_write
  trace left right level line := .trace context level (framePairing_record left right line)
  inBlock left right body body' inStep states := by
    obtain ⟨rfl, numbered⟩ := states
    exact framePairing_inScope (fun _ _ isBound => absurd isBound (by simp [Bindings.get?])) inStep
      ⟨rfl, numbered⟩
  inCall left right bindings bindings' body body' bound inStep states := by
    obtain ⟨rfl, numbered⟩ := states
    obtain ⟨rfl, areNumbered⟩ := bound
    exact framePairing_inScope areNumbered inStep ⟨rfl, numbered⟩

namespace State

variable {before after : State}

/-- A state that has kept the scopes of a session's state is one. -/
theorem Ready.of_kept (ready : before.Ready) (numbered : after.Numbered)
    (kept : Kept before after) : after.Ready where
  toNumbered := numbered
  hasGlobals := Nat.lt_of_lt_of_eq ready.hasGlobals kept.size.symm
  outermost := (kept.enclosing globals).trans ready.outermost

/-- A session may be inside a new scope. -/
theorem Ready.enter {state : State} {bindings : Bindings} (ready : state.Ready)
    (areNumbered : ∀ name cell, bindings.get? name = some cell → cell.id < state.nextCell)
    (enclosing : ScopeId) : (Exec.enter enclosing bindings state).Ready where
  toNumbered := ready.toNumbered.enter areNumbered enclosing
  hasGlobals := Nat.lt_of_lt_of_eq (Nat.succ_pos _) Store.size_push.symm
  outermost := by
    change (state.store.push (some enclosing) bindings).enclosing? globals = none
    have isOld : globals ≠ state.store.size := Nat.ne_of_lt ready.hasGlobals
    rw [Store.enclosing?_push, if_neg isOld]
    exact ready.outermost

/-- The state with an empty global scope is one of a session. -/
theorem ready_blank : blank.Ready where
  shared := Nat.le_refl _
  bound scope name cell isBound := by
    change ((Store.empty.push none []).bindings scope).get? name = some cell at isBound
    rw [Store.bindings_push] at isBound
    split at isBound
    · exact absurd isBound (by simp [Bindings.get?])
    · rw [Store.bindings_of_size_le (Nat.zero_le _)] at isBound
      exact absurd isBound (by simp [Bindings.get?])
  hasGlobals := Nat.zero_lt_one
  outermost := rfl

/-- A cell for a value is numbered. -/
theorem Numbered.allocate {state : State} (numbered : state.Numbered) (value : Value) :
    (state.allocate value).2.Numbered ∧
      (state.allocate value).1.id < (state.allocate value).2.nextCell ∧
      (state.allocate value).2.store = state.store := by
  unfold State.allocate
  cases shared : value.sharedCell? with
  | some cell => exact ⟨numbered, Nat.lt_of_lt_of_le (sharedCell?_id_lt shared) numbered.shared, rfl⟩
  | none =>
    exact ⟨⟨Nat.le_succ_of_le numbered.shared, fun scope name cell isBound =>
      Nat.lt_succ_of_lt (numbered.bound scope name cell isBound)⟩, Nat.lt_succ_self _, rfl⟩

/-- A session goes on with a global name bound to any value. -/
theorem Ready.defineGlobal {state : State} (ready : state.Ready) (name : Text) (value : Value) :
    (state.defineGlobal name value).Ready := by
  obtain ⟨numbered, isNumbered, sameStore⟩ := ready.toNumbered.allocate value
  refine ⟨numbered.define isNumbered globals name, ?_, ?_⟩
  · change 0 < ((state.allocate value).2.store.define globals name _).size
    rw [sameStore]
    exact Nat.lt_of_lt_of_eq ready.hasGlobals (Store.size_modify _).symm
  · change ((state.allocate value).2.store.define globals name _).enclosing? globals = none
    rw [sameStore, Store.enclosing?_define]
    exact ready.outermost

end State

/-- Every session begins in a state of a session. -/
theorem Session.ready_start (debugLevel : Nat) (now : Number) :
    (start debugLevel now).state.Ready :=
  ready_blank.defineGlobal "clock" Value.clock

/-- The state that an outcome leaves, if any, has the scopes and the current one of an earlier state and
is the state of a session again. -/
def Outcome.KeepsFrame {α : Type} (before : State) : Outcome α → Prop
  | .done _ after | .failed _ after => after.Ready ∧ Kept before after
  | .unfinished => True

/-- A program keeps the frame. -/
theorem Program.keepsFrame_run (program : Program) (fuel : Nat) (context : Context) {state : State}
    (ready : state.Ready) : (program.run fuel context state).KeepsFrame state := by
  have ends := (frameSimulation context).run fuel context.callsLeft program state state
    ⟨rfl, ready.toNumbered⟩
  change framePairing.Ends state state anyResults (program.run fuel context state)
    (program.run fuel context state) at ends
  generalize program.run fuel context state = outcome at ends ⊢
  cases ends with
  | done states kept _ | failed states kept =>
    obtain ⟨-, numbered⟩ := states
    exact ⟨ready.of_kept numbered kept, kept⟩
  | unfinished => trivial

end Lox
