import Lox.Proofs.Execution.Threshold
import Lox.Proofs.Execution.Upkeep

/-!
# Names stay where they are declared

An expression adds no name to any scope, whatever functions it calls, and neither does a statement
that declares nothing of its own: what is declared in a block or in a call is gone with its scope, and an
assignment binds only what is bound already.
-/

namespace Lox

open Pairing State

/-- A name that was just bound is bound, and the others are if they were. -/
theorem Bindings.binds_put (bindings : Bindings) (name other : Text) (cell : Cell) :
    binds (bindings.put name cell) other = (decide (other = name) || bindings.binds other) := by
  unfold binds
  rw [get?_put]
  split
  · next same => simp [same]
  · next different => simp [different]

/-- A name is bound where it is resolved to. -/
theorem Store.binds_of_resolve {store : Store} {id scope : ScopeId} {name : Text}
    (isResolved : store.resolve id name = some scope) :
    (store.bindings scope).binds name = true := by
  unfold resolve at isResolved
  exact @List.find?_some _ (fun scope => (store.bindings scope).binds name) _ _ isResolved

/-- A name that is bound anew where it is resolved to was bound there. -/
theorem Store.binds_define_of_resolve {store : Store} {id scope : ScopeId} {name : Text}
    (isResolved : store.resolve id name = some scope) (cell : Cell) (other : ScopeId) (found : Text) :
    ((store.define scope name cell).bindings other).binds found =
      (store.bindings other).binds found := by
  have isBound := binds_of_resolve isResolved
  rw [bindings_define]
  split
  · next same =>
    obtain ⟨rfl, -⟩ := same
    rw [Bindings.binds_put]
    by_cases isName : found = name
    · rw [isName, isBound, Bool.or_true]
    · simp [isName]
  · rfl

/-- The oldest scopes bind the same names as before, and the same scope is current. -/
structure State.NamesKept (count : Nat) (before after : State) : Prop where
  current : after.current = before.current
  names : ∀ scope < count, ∀ name,
    (after.store.bindings scope).binds name = (before.store.bindings scope).binds name

/-- Operations keep the names of the oldest scopes, if those are there. -/
def namesUpkeep (count : Nat) : Upkeep where
  holds state := count ≤ state.store.size
  kept := NamesKept count
  refl _ := ⟨rfl, fun _ _ _ => rfl⟩
  trans first second := ⟨second.current.trans first.current, fun scope isOld name =>
    (second.names scope isOld name).trans (first.names scope isOld name)⟩
  quiet sameStore sameCurrent _ isThere := by
    rw [sameStore]
    exact ⟨isThere, sameCurrent, fun _ _ _ => by rw [sameStore]⟩
  assign {state} {scope} {name} cell isResolved isThere := by
    refine ⟨Nat.le_trans isThere (Nat.le_of_eq (Store.size_modify _).symm), rfl, ?_⟩
    exact fun other _ found => Store.binds_define_of_resolve isResolved cell other found

/-- What runs in a new scope keeps the names of the scopes that were there. -/
theorem namesUpkeep_inScope {count : Nat} {enclosing : ScopeId} {bindings : Bindings}
    {body body' : Exec Unit}
    (inStep : ∀ left right, count ≤ left.current →
      (namesUpkeep count).pairing.InStep left right anyResults body body')
    (state : State) :
    (namesUpkeep count).pairing.InStep state state anyResults
      (Exec.inScope enclosing bindings body) (Exec.inScope enclosing bindings body') := by
  intro states
  have isThere : count ≤ state.store.size := states.2
  refine InStep.inScope_at (fun _ => ?_) (inStep _ _ isThere) ?_ states
  · exact ⟨rfl, Nat.le_trans isThere (Nat.le_trans (Nat.le_succ _) (Nat.le_of_eq Store.size_push.symm))⟩
  · intro after after' _ states' kept
    obtain ⟨rfl, isThere'⟩ := states'
    refine ⟨⟨rfl, ?_⟩, rfl, fun scope isOld name => ?_⟩
    · exact Nat.le_trans (Nat.le_min.mpr ⟨isThere, isThere'⟩) (Nat.le_of_eq Store.size_truncate.symm)
    · have isOutside : scope < state.store.size := Nat.lt_of_lt_of_le isOld isThere
      change ((after.store.truncate state.store.size).bindings scope).binds name = _
      rw [Store.bindings_truncate, if_pos isOutside, kept.names scope isOld name]
      change ((state.store.push (some enclosing) bindings).bindings scope).binds name = _
      rw [Store.bindings_push, if_neg (Nat.ne_of_lt isOutside)]

/-- Outside of new scopes, nothing is defined and all names are kept. -/
def namesThreshold (count : Nat) (context : Context) : Threshold where
  toOperations := (namesUpkeep count).operations context
  inside left _ := count ≤ left.current
  inside_later kept isInside := Nat.le_trans isInside (Nat.le_of_eq kept.current.symm)
  define left right name cell cell' isInside isCell states := by
    obtain ⟨rfl, isThere⟩ := states
    obtain rfl : cell = cell' := isCell
    refine .done ⟨rfl, ?_⟩ ⟨rfl, fun scope isOld found => ?_⟩ trivial
    · exact Nat.le_trans isThere (Nat.le_of_eq (Store.size_modify _).symm)
    · have isOutside : left.current ≠ scope := Nat.ne_of_gt (Nat.lt_of_lt_of_le isOld isInside)
      rw [Store.bindings_define, if_neg fun same => isOutside same.1]
  inBlock left right body body' inStep states := by
    obtain ⟨rfl, isThere⟩ := states
    exact namesUpkeep_inScope inStep left ⟨rfl, isThere⟩
  inCall left right bindings bindings' body body' bound inStep states := by
    obtain ⟨rfl, isThere⟩ := states
    obtain rfl : bindings = bindings' := bound
    exact namesUpkeep_inScope inStep left ⟨rfl, isThere⟩

/-- Whatever gives a cell keeps the names of the oldest scopes. -/
theorem namesUpkeep_maintains (count fuel : Nat) (context : Context) :
    (namesUpkeep count).Maintains fuel context :=
  Upkeep.maintains_of_evaluated ((namesThreshold count context).evaluated fuel)

/-- Two states bind the same names in every scope. -/
def State.SameNames (before after : State) : Prop :=
  ∀ scope name, (after.store.bindings scope).binds name = (before.store.bindings scope).binds name

/-- States with as many scopes bind the same names if these scopes do. -/
theorem State.NamesKept.sameNames {before after : State}
    (names : NamesKept before.store.size before after) (kept : Kept before after) :
    SameNames before after := by
  intro scope name
  by_cases isThere : scope < before.store.size
  · exact names.names scope isThere name
  · have absent := Nat.le_of_not_lt isThere
    rw [Store.bindings_of_size_le absent,
      Store.bindings_of_size_le (Nat.le_trans (Nat.le_of_eq kept.size) absent)]

/-- A step that keeps the scopes and the names in them leaves the same names. -/
theorem State.sameNames_of_keeps {α : Type} {step : Exec α} {state after : State}
    (keepsNames : (namesUpkeep state.store.size).Keeps step) (keepsScopes : keptUpkeep.Keeps step)
    (isAfter : after ∈ (step state).last) : SameNames state after :=
  (keepsNames state (Nat.le_refl _) after isAfter).2.sameNames
    (keepsScopes state trivial after isAfter).2

variable {fuel : Nat} {context : Context} {node : Node} {state after : State} {line : Int}
  {callee : Cell} {arguments : List Cell}

/-- An expression adds no name to any scope. -/
theorem sameNames_evaluate (isAfter : after ∈ (evaluate fuel context node state).last) :
    SameNames state after :=
  State.sameNames_of_keeps ((namesUpkeep_maintains _ fuel context).evaluate node)
    ((keptUpkeep_maintains fuel context).evaluate node) isAfter

/-- A checked call adds no name to any scope. -/
theorem sameNames_callChecked
    (isAfter : after ∈ (callChecked fuel context line callee arguments state).last) :
    SameNames state after :=
  State.sameNames_of_keeps ((namesUpkeep_maintains _ fuel context).callChecked line callee arguments)
    ((keptUpkeep_maintains fuel context).callChecked line callee arguments) isAfter

/-- A call adds no name to any scope. -/
theorem sameNames_call (isAfter : after ∈ (call fuel context line callee arguments state).last) :
    SameNames state after :=
  State.sameNames_of_keeps ((namesUpkeep_maintains _ fuel context).call line callee arguments)
    ((keptUpkeep_maintains fuel context).call line callee arguments) isAfter

/-- A statement that declares nothing of its own adds no name to any scope. -/
theorem sameNames_execute (undeclaring : node.Undeclaring)
    (isAfter : after ∈ (execute fuel context node state).last) : SameNames state after :=
  State.sameNames_of_keeps
    (Upkeep.keeps_of_inStep fun other => (namesThreshold state.store.size context).executed fuel
      other other context.callsLeft node (.inr undeclaring))
    (fun _ _ _ isAfter => ⟨trivial, kept_execute isAfter⟩) isAfter

end Lox
