import Lox.Proofs.Execution.Twins

/-!
# Twins stay twins

Twins that have the same scope open go on alike with every statement: they end alike, with the same
fault if there is one, and they are twins again. Each operation on a state is shown to keep this, and
a simulation carries it through programs.
-/

namespace Lox

namespace State

/-- Twins in scopes that stand for each other. -/
structure Alongside (start start' left right : State) : Prop extends
    Twins start start' left right where
  current : SameScope start.store.size start'.store.size left.current right.current
  isThere : left.current < left.store.size

variable {start start' left right after after' : State}

/-- A change alike in scopes that stand for each other keeps twins in step. -/
theorem Alongside.modify (states : Alongside start start' left right) (ready : start.Ready)
    (ready' : start'.Ready) {scope scope' : ScopeId}
    (same : SameScope start.store.size start'.store.size scope scope')
    {change change' : Bindings → Bindings}
    (changed : ∀ name, Option.Rel (SameCell start.nextCell start'.nextCell)
      ((change (left.store.bindings scope)).get? name)
      ((change' (right.store.bindings scope')).get? name)) :
    Alongside start start' { left with store := left.store.modify scope change }
      { right with store := right.store.modify scope' change' } where
  toTwins := states.toTwins.modify ready ready' same changed
  current := states.current
  isThere := Nat.lt_of_lt_of_eq states.isThere (Store.size_modify _).symm

/-- A definition in scopes that stand for each other keeps twins in step. -/
theorem Alongside.define (states : Alongside start start' left right) (ready : start.Ready)
    (ready' : start'.Ready) {scope scope' : ScopeId}
    (same : SameScope start.store.size start'.store.size scope scope') {cell cell' : Cell}
    (sameCell : SameCell start.nextCell start'.nextCell cell cell') (name : Text) :
    Alongside start start' { left with store := left.store.define scope name cell }
      { right with store := right.store.define scope' name cell' } :=
  states.modify ready ready' same
    (get?_put_rel (states.alike scope scope' same).bound sameCell name)

/-- The newest scope is current once it is opened. -/
theorem Alongside.enter (states : Alongside start start' left right) (ready : start.Ready)
    (ready' : start'.Ready) {scope scope' : ScopeId}
    (same : SameScope start.store.size start'.store.size scope scope')
    (isThere : scope < left.store.size) {bindings bindings' : Bindings}
    (bound : ∀ name, Option.Rel (SameCell start.nextCell start'.nextCell) (bindings.get? name)
      (bindings'.get? name)) :
    Alongside start start' (Exec.enter scope bindings left) (Exec.enter scope' bindings' right) where
  toTwins := states.toTwins.enter ready ready' same isThere bound
  current := .inr states.scopes
  isThere := Nat.lt_of_lt_of_eq (Nat.lt_succ_self _) Store.size_push.symm

/-- The scopes of before are there again once a new one is left. -/
theorem Alongside.leave (before : Alongside start start' left right) (ready : start.Ready)
    (ready' : start'.Ready) (inside : Alongside start start' after after') {scope : ScopeId}
    {bindings : Bindings} (kept : Kept (Exec.enter scope bindings left) after) :
    Alongside start start' (Exec.leave left.current left.store.size after)
      (Exec.leave right.current right.store.size after') where
  toTwins := by
    obtain ⟨opened, size, size'⟩ := before.scopes
    have more : after.store.size = left.store.size + 1 := kept.size.trans Store.size_push
    rw [size, size']
    apply inside.toTwins.leave ready ready'
    rw [more, size]
    exact Nat.le_succ _
  current := before.current
  isThere := Nat.lt_of_lt_of_eq before.isThere kept.leave.size.symm

end State

open Pairing State

/-- Twins in scopes that stand for each other, with the scopes and the current one that each of them
had. -/
def twinPairing (start start' : State) : Pairing where
  states := Alongside start start'
  later left right left' right' := Kept left left' ∧ Kept right right'
  cells _ _ := SameCell start.nextCell start'.nextCell
  later_refl left right := ⟨Kept.refl left, Kept.refl right⟩
  later_trans first second := ⟨first.1.trans second.1, first.2.trans second.2⟩
  cells_later _ isCell := isCell

variable {start start' : State} (ready : start.Ready) (ready' : start'.Ready)
include ready ready'

/-- A new cell stands for the one that the other run makes. -/
theorem twinPairing_newCell (left right : State) (value : Value) :
    (twinPairing start start').InStep left right (twinPairing start start').cells
      (Exec.newCell value) (Exec.newCell value) := by
  intro states
  unfold Exec.newCell
  cases shared : value.sharedCell? with
  | some cell =>
    have isShared := sharedCell?_id_lt shared
    exact .done states ⟨Kept.refl left, Kept.refl right⟩ ⟨rfl, .inl ⟨rfl,
      Nat.lt_of_lt_of_le isShared ready.shared, Nat.lt_of_lt_of_le isShared ready'.shared⟩⟩
  | none =>
    obtain ⟨made, count, count'⟩ := states.cells
    have kept (state : State) : Kept state { state with nextCell := state.nextCell + 1 } :=
      kept_of_store_eq rfl rfl (Nat.le_succ _)
    refine .done ?_ ⟨kept left, kept right⟩ ⟨rfl, .inr ⟨made, count, count'⟩⟩
    exact { states with cells := ⟨made + 1, congrArg Nat.succ count, congrArg Nat.succ count'⟩ }

omit ready ready' in
/-- A name is looked up alike by twins. -/
theorem twinPairing_lookup (left right : State) (name : Token) :
    (twinPairing start start').InStep left right (twinPairing start start').cells
      (Exec.lookup name) (Exec.lookup name) := by
  intro states
  have found := states.toTwins.get? states.current name.text
  unfold Exec.lookup
  generalize left.store.get? left.current name.text = cell at found ⊢
  generalize right.store.get? right.current name.text = cell' at found ⊢
  cases found with
  | none => exact .failed states ⟨Kept.refl left, Kept.refl right⟩
  | some isCell => exact .done states ⟨Kept.refl left, Kept.refl right⟩ isCell

/-- A name is assigned alike by twins. -/
theorem twinPairing_assign (left right : State) (name : Token) (cell cell' : Cell)
    (isCell : (twinPairing start start').cells left right cell cell') :
    (twinPairing start start').InStep left right anyResults (Exec.assign name cell)
      (Exec.assign name cell') := by
  intro states
  have found := states.toTwins.resolve states.current name.text
  unfold Exec.assign Store.assign?
  generalize left.store.resolve left.current name.text = inner at found ⊢
  generalize right.store.resolve right.current name.text = inner' at found ⊢
  cases found with
  | none => exact .failed states ⟨Kept.refl left, Kept.refl right⟩
  | some sameInner =>
    exact .done (states.define ready ready' sameInner isCell name.text)
      ⟨kept_define left _ _ cell, kept_define right _ _ cell'⟩ trivial

omit ready ready' in
/-- Twins print the same. -/
theorem twinPairing_write (left right : State) (line : Text) :
    (twinPairing start start').InStep left right anyResults (Exec.write line) (Exec.write line) := by
  intro states
  obtain ⟨lines, printed, printed'⟩ := states.output
  have kept (state : State) : Kept state { state with output := state.output.push line } :=
    kept_of_store_eq rfl rfl (Nat.le_refl _)
  refine .done ?_ ⟨kept left, kept right⟩ trivial
  refine { states with output := ⟨lines.push line, ?_, ?_⟩ }
  · rw [printed, Array.append_push]
  · rw [printed', Array.append_push]

omit ready ready' in
/-- Twins are traced alike. -/
theorem twinPairing_record (left right : State) (line : Text) :
    (twinPairing start start').InStep left right anyResults (Exec.record line)
      (Exec.record line) := by
  intro states
  obtain ⟨lines, traced, traced'⟩ := states.trace
  have kept (state : State) : Kept state { state with trace := state.trace.push line } :=
    kept_of_store_eq rfl rfl (Nat.le_refl _)
  refine .done ?_ ⟨kept left, kept right⟩ trivial
  refine { states with trace := ⟨lines.push line, ?_, ?_⟩ }
  · rw [traced, Array.append_push]
  · rw [traced', Array.append_push]

/-- A step in new scopes that stand for each other keeps twins in step. -/
theorem twinPairing_inScope {left right : State} {scope scope' : ScopeId}
    (same : SameScope start.store.size start'.store.size scope scope')
    (isThere : scope < left.store.size) {bindings bindings' : Bindings}
    (bound : ∀ name, Option.Rel (SameCell start.nextCell start'.nextCell) (bindings.get? name)
      (bindings'.get? name)) {body body' : Exec Unit}
    (inStep : ∀ left right, (twinPairing start start').InStep left right anyResults body body') :
    (twinPairing start start').InStep left right anyResults (Exec.inScope scope bindings body)
      (Exec.inScope scope' bindings' body') := by
  apply InStep.inScope
  · intro states
    exact states.enter ready ready' same isThere bound
  · exact inStep
  · intro after after' states inside kept
    exact ⟨states.leave ready ready' inside kept.1, kept.1.leave, kept.2.leave⟩

/-- Every operation on a state keeps twins in step. -/
def twinSimulation (context : Context) : Simulation where
  toPairing := twinPairing start start'
  toContexts := .twice context
  bound _ _ bindings bindings' := ∀ name,
    Option.Rel (SameCell start.nextCell start'.nextCell) (bindings.get? name) (bindings'.get? name)
  bound_nil _ _ _ := .none
  bound_put name bound isCell := get?_put_rel bound isCell name
  nilCell left right := twinPairing_newCell ready ready' left right .nil
  cells_value isCell := isCell.value
  cells_id isCell isOther := isCell.number.eq_iff isOther.number
  newCell := twinPairing_newCell ready ready'
  lookup := twinPairing_lookup
  assign := twinPairing_assign ready ready'
  define left right name cell cell' isCell states :=
    .done (states.define ready ready' states.current isCell name)
      ⟨kept_define left _ _ cell, kept_define right _ _ cell'⟩ trivial
  write := twinPairing_write
  trace left right level line := .trace context level (twinPairing_record left right line)
  inBlock _ _ _ _ inStep states :=
    twinPairing_inScope ready ready' states.current states.isThere (fun _ => .none) inStep states
  inCall _ _ _ _ _ _ bound inStep states :=
    twinPairing_inScope ready ready' (sameScope_globals _ _)
      (Nat.lt_of_le_of_lt (Nat.zero_le _) states.isThere) bound inStep states

end Lox
