import Lox.Proofs.Execution.Declarations
import Lox.Proofs.Execution.Padding

/-!
# Inserting empty scopes

An empty scope may be inserted in any scope, and some of the scopes there may be moved into it. It may also
become the current one. What runs then does the same as without the inserted scope: it ends alike, and in the
state in which that scope is inserted again. So nothing has happened in the inserted scope.

This holds for whatever declares nothing in an inserted scope: expressions and statements without declarations
of their own, and all statements if no inserted scope is current. A declaration that is executed in the
inserted scope binds its name there, and nothing else does.
-/

namespace Lox

open Exec Pairing State

/-- Where an empty scope is inserted: in which scope, which of the scopes there it encloses instead, and
whether it becomes the current one instead. -/
structure Insertion where
  outer : ScopeId
  moves : ScopeId → Bool
  becomesCurrent : Bool

namespace Insertion

/-- The number of the inserted scope, which comes next after the one that encloses it. -/
def inserted (insertion : Insertion) : ScopeId :=
  insertion.outer + 1

/-- Where the other scopes stand. -/
def placement (insertion : Insertion) : Placement :=
  .skipping insertion.inserted (Nat.succ_pos insertion.outer)

/-- The scope that something is in afterwards, be it moved or not: in the inserted scope, if it is moved there
from the one around that, and otherwise in the scope that it was in, where that stands now. -/
def instead (insertion : Insertion) (moved : Bool) (scope : ScopeId) : ScopeId :=
  if moved = true ∧ scope = insertion.outer then insertion.inserted
  else insertion.placement.place scope

end Insertion

/-- The store with an empty scope inserted. -/
def Store.insert (store : Store) (insertion : Insertion) : Store :=
  let others := store.scopes.toList.mapIdx fun id scope =>
    { scope with enclosing := scope.enclosing.map (insertion.instead (insertion.moves id)) }
  ⟨(others.insertIdx insertion.inserted ⟨some insertion.outer, []⟩).toArray⟩

/-- The state with an empty scope inserted, if the scope is there that is to enclose it. -/
def State.insert (state : State) (insertion : Insertion) : State :=
  if insertion.outer < state.store.size then
    { state with
      store := state.store.insert insertion
      current := insertion.instead insertion.becomesCurrent state.current }
  else state

/-- The state with empty scopes inserted one after another. -/
def State.insertAll (state : State) (insertions : List Insertion) : State :=
  insertions.foldl State.insert state

/-- The outcome with another state in the end. -/
def Outcome.mapState {α : Type} (change : State → State) : Outcome α → Outcome α
  | .done result state => .done result (change state)
  | .failed fault state => .failed fault (change state)
  | .unfinished => .unfinished

namespace Store

variable {store : Store} {insertion : Insertion} {scope : ScopeId}

/-- Every scope stands where it is placed, and in the inserted scope if it is moved there. -/
theorem scopes_insert_place :
    (store.insert insertion).scopes[insertion.placement.place scope]? =
      store.scopes[scope]?.map fun found =>
        { found with enclosing := found.enclosing.map (insertion.instead (insertion.moves scope)) } := by
  unfold insert
  rw [List.getElem?_toArray, List.getElem?_insertIdx]
  obtain isOld | isNew := Nat.lt_or_ge scope insertion.inserted
  · have isPlaced : insertion.placement.place scope = scope := Placement.place_skipping_old isOld
    rw [isPlaced, if_pos isOld, List.getElem?_mapIdx, Array.getElem?_toList]
  · have isPlaced : insertion.placement.place scope = scope + 1 := Placement.place_skipping_new isNew
    rw [isPlaced, if_neg (Nat.not_lt_of_le (Nat.le_succ_of_le isNew)),
      if_neg (Nat.ne_of_gt (Nat.lt_succ_of_le isNew)), Nat.add_sub_cancel, List.getElem?_mapIdx,
      Array.getElem?_toList]

/-- The inserted scope stands behind the one that encloses it. -/
theorem scopes_insert_inserted (isThere : insertion.outer < store.size) :
    (store.insert insertion).scopes[insertion.inserted]? = some ⟨some insertion.outer, []⟩ := by
  unfold insert
  rw [List.getElem?_toArray, List.getElem?_insertIdx_self, if_pos]
  rw [List.length_mapIdx, Array.length_toList]
  exact isThere

/-- The inserted scope is one more. -/
theorem size_insert (isThere : insertion.outer < store.size) :
    (store.insert insertion).size = store.size + 1 := by
  unfold insert size
  rw [List.size_toArray, List.length_insertIdx_of_le_length, List.length_mapIdx, Array.length_toList]
  rw [List.length_mapIdx, Array.length_toList]
  exact isThere

/-- The scopes bind what they bound. -/
theorem bindings_insert_place :
    (store.insert insertion).bindings (insertion.placement.place scope) = store.bindings scope := by
  unfold Store.bindings
  rw [scopes_insert_place]
  cases store.scopes[scope]? <;> rfl

/-- The scopes that are moved are enclosed by the inserted one, and the others by what enclosed them. -/
theorem enclosing?_insert_place :
    (store.insert insertion).enclosing? (insertion.placement.place scope) =
      (store.enclosing? scope).map (insertion.instead (insertion.moves scope)) := by
  unfold enclosing?
  rw [scopes_insert_place]
  cases store.scopes[scope]? <;> rfl

/-- The inserted scope is empty. -/
theorem bindings_insert_inserted (isThere : insertion.outer < store.size) :
    (store.insert insertion).bindings insertion.inserted = [] := by
  rw [Store.bindings, scopes_insert_inserted isThere]
  rfl

/-- The inserted scope is enclosed by the one that it is inserted in. -/
theorem enclosing?_insert_inserted (isThere : insertion.outer < store.size) :
    (store.insert insertion).enclosing? insertion.inserted = some insertion.outer := by
  rw [enclosing?, scopes_insert_inserted isThere]
  rfl

end Store

namespace Insertion

variable {insertion : Insertion} {store : Store} {scope outer : ScopeId}

/-- Every place is that of the inserted scope or of another one. -/
theorem eq_inserted_or_place (insertion : Insertion) (scope : ScopeId) :
    scope = insertion.inserted ∨ ∃ other, insertion.placement.place other = scope := by
  obtain isOld | rfl | isNew := Nat.lt_trichotomy scope insertion.inserted
  · exact .inr ⟨scope, Placement.place_skipping_old isOld⟩
  · exact .inl rfl
  · obtain ⟨other, rfl⟩ := Nat.exists_eq_succ_of_ne_zero (Nat.ne_zero_of_lt isNew)
    exact .inr ⟨other, Placement.place_skipping_new (Nat.le_of_lt_succ isNew)⟩

/-- From the scope that something is in afterwards one comes to the scope that it was in. -/
theorem leadsTo_instead (isThere : insertion.outer < store.size) (moved : Bool) (scope : ScopeId) :
    insertion.placement.LeadsTo (store.insert insertion) (insertion.instead moved scope) scope := by
  unfold instead
  split
  · next isMoved =>
    rw [isMoved.2]
    exact .past Placement.inserted_skipping (Store.bindings_insert_inserted isThere)
      (Store.enclosing?_insert_inserted isThere) (Placement.leadsTo_old _ (Nat.lt_succ_self _))
  · exact .here scope

/-- The scope that another one is in afterwards is older than that one. -/
theorem instead_lt (older : outer < scope) (moved : Bool) :
    insertion.instead moved outer < insertion.placement.place scope := by
  unfold instead
  split
  · next isMoved =>
    rw [isMoved.2] at older
    have isNew : insertion.inserted ≤ scope := Nat.succ_le_of_lt older
    have isPlaced : insertion.placement.place scope = scope + 1 := Placement.place_skipping_new isNew
    rw [isPlaced]
    exact Nat.lt_succ_of_le isNew
  · exact insertion.placement.increasing older

/-- With an empty scope inserted, scopes are newer than those that enclose them. -/
theorem ordered_insert (ordered : store.Ordered) (isThere : insertion.outer < store.size) :
    (store.insert insertion).Ordered := by
  intro scope outer isEnclosed
  obtain rfl | ⟨other, rfl⟩ := insertion.eq_inserted_or_place scope
  · rw [Store.enclosing?_insert_inserted isThere] at isEnclosed
    cases isEnclosed
    exact Nat.lt_succ_self _
  · rw [Store.enclosing?_insert_place] at isEnclosed
    obtain ⟨found, isFound, rfl⟩ := Option.map_eq_some_iff.mp isEnclosed
    exact instead_lt (ordered other found isFound) _

/-- An inserted scope pads a store. -/
theorem padded_insert (ordered : store.Ordered) (isThere : insertion.outer < store.size) :
    insertion.placement.Padded store (store.insert insertion) where
  more := isThere
  size := (Store.size_insert isThere).trans (Placement.place_skipping_new isThere).symm
  ordered := ordered
  ordered' := ordered_insert ordered isThere
  bindings scope := Store.bindings_insert_place
  outermost scope isOutermost := by rw [Store.enclosing?_insert_place, isOutermost, Option.map_none]
  enclosed scope outer isEnclosed := by
    rw [Store.enclosing?_insert_place, isEnclosed, Option.map_some]
    exact ⟨_, rfl, leadsTo_instead isThere _ outer⟩

variable {state after after' : State}

/-- An inserted scope pads a state. -/
theorem paddedBy_insert (nested : state.Nested) (isThere : insertion.outer < state.store.size) :
    PaddedBy insertion.placement state (state.insert insertion) := by
  unfold State.insert
  rw [if_pos isThere]
  exact ⟨padded_insert nested.ordered isThere, leadsTo_instead isThere _ _, nested.isThere, rfl, rfl, rfl⟩

/-- With an empty scope inserted, scopes are in order again. -/
theorem nested_insert (nested : state.Nested) (insertion : Insertion) :
    (state.insert insertion).Nested := by
  by_cases isThere : insertion.outer < state.store.size
  · have padded := paddedBy_insert nested isThere
    exact ⟨padded.stores.ordered', padded.stores.lt_size padded.leads nested.isThere⟩
  · unfold State.insert
    rwa [if_neg isThere]

/-- With empty scopes inserted, scopes are in order again. -/
theorem nested_insertAll (nested : state.Nested) (insertions : List Insertion) :
    (state.insertAll insertions).Nested := by
  induction insertions generalizing state with
  | nil => exact nested
  | cons insertion insertions ih => exact ih (nested_insert nested insertion)

/-- A store that pads another one is this one with a scope inserted, if its links and the scope itself are
still those of the insertion in an earlier store. -/
theorem store_eq_insert {left right : Store} (isThere : insertion.outer < store.size)
    (padded : insertion.placement.Padded left right) (size : left.size = store.size)
    (links : ∀ scope, left.enclosing? scope = store.enclosing? scope)
    (links' : ∀ scope, right.enclosing? scope = (store.insert insertion).enclosing? scope)
    (inserted : insertion.placement.InsertedKept (store.insert insertion) right) :
    right = left.insert insertion := by
  have isThere' : insertion.outer < left.size := Nat.lt_of_lt_of_eq isThere size.symm
  apply Store.ext_scopes
  · rw [padded.size, (padded_insert padded.ordered isThere').size]
  · intro scope
    obtain rfl | ⟨other, rfl⟩ := insertion.eq_inserted_or_place scope
    · have same := inserted insertion.inserted Placement.inserted_skipping
      rw [Store.bindings_insert_inserted isThere', Store.bindings, same,
        Store.scopes_insert_inserted isThere]
      rfl
    · rw [padded.bindings, Store.bindings_insert_place]
  · intro scope
    rw [links']
    obtain rfl | ⟨other, rfl⟩ := insertion.eq_inserted_or_place scope
    · rw [Store.enclosing?_insert_inserted isThere, Store.enclosing?_insert_inserted isThere']
    · rw [Store.enclosing?_insert_place, Store.enclosing?_insert_place, links]

/-- A run that leaves an inserted scope alone ends where the other one does, with the scope inserted. -/
theorem eq_insert (isThere : insertion.outer < state.store.size)
    (states : PaddedBy insertion.placement after after')
    (later : PaddedLater insertion.placement state (state.insert insertion) after after')
    (kept : Kept (state.insert insertion) after') : after' = after.insert insertion := by
  have isThere' : insertion.outer < after.store.size := Nat.lt_of_lt_of_eq isThere later.kept.size.symm
  rw [State.insert, if_pos isThere] at later kept
  have store : after'.store = after.store.insert insertion :=
    store_eq_insert isThere states.stores later.kept.size later.kept.enclosing kept.enclosing
      later.inserted
  have current : after'.current = insertion.instead insertion.becomesCurrent after.current := by
    rw [kept.current, later.kept.current]
  rw [State.insert, if_pos isThere', ← store, ← current, ← states.cells, ← states.output, ← states.trace]

end Insertion

section

variable {α : Type} {step : Exec α} {insertion : Insertion} {insertions : List Insertion} {state : State}

/-- A change that leaves the state in the end as it is. -/
theorem Outcome.mapState_eq_self {outcome : Outcome α} {change : State → State}
    (same : ∀ after ∈ outcome.last, change after = after) : outcome.mapState change = outcome := by
  cases outcome with
  | done result after => exact congrArg (Outcome.done result) (same after List.mem_cons_self)
  | failed fault after => exact congrArg (Outcome.failed fault) (same after List.mem_cons_self)
  | unfinished => rfl

/-- The outcome with the state in the end changed twice. -/
theorem Outcome.mapState_mapState (outcome : Outcome α) (change change' : State → State) :
    (outcome.mapState change).mapState change' = outcome.mapState (change' ∘ change) := by
  cases outcome <;> rfl

/-- A step that an inserted scope makes no difference to. -/
def Exec.Ignores (insertion : Insertion) (step : Exec α) : Prop :=
  ∀ state, state.Nested → step (state.insert insertion) = (step state).mapState (·.insert insertion)

/-- An inserted scope makes no difference to a step that is in step with itself past it. -/
theorem Exec.ignores_of_inStep (keeps : keptUpkeep.Keeps step)
    (inStep : ∀ state, insertion.outer < state.store.size →
      (paddedPairing insertion.placement).InStep state (state.insert insertion) (fun _ _ => Eq) step step) :
    step.Ignores insertion := by
  intro state nested
  by_cases isThere : insertion.outer < state.store.size
  · have ends := inStep state isThere (Insertion.paddedBy_insert nested isThere)
    have kept := fun after isAfter => (keeps (state.insert insertion) trivial after isAfter).2
    generalize step state = outcome at ends ⊢
    generalize step (state.insert insertion) = outcome' at ends kept ⊢
    cases ends with
    | done states later same =>
      rw [same, Insertion.eq_insert isThere states later (kept _ List.mem_cons_self)]
      rfl
    | failed states later =>
      rw [Insertion.eq_insert isThere states later (kept _ List.mem_cons_self)]
      rfl
    | unfinished => rfl
  · -- Nothing is inserted, neither before the step nor after it.
    rw [State.insert, if_neg isThere, Outcome.mapState_eq_self]
    intro after isAfter
    have size := (keeps state trivial after isAfter).2.size
    rw [State.insert, if_neg]
    rwa [size]

/-- Inserted scopes make no difference if none of them does. -/
theorem Exec.Ignores.insertAll (ignores : ∀ insertion ∈ insertions, step.Ignores insertion)
    (nested : state.Nested) :
    step (state.insertAll insertions) = (step state).mapState (·.insertAll insertions) := by
  induction insertions generalizing state with
  | nil => exact (Outcome.mapState_eq_self fun _ _ => rfl).symm
  | cons insertion insertions ih =>
    obtain ⟨first, others⟩ := List.forall_mem_cons.mp ignores
    calc step ((state.insert insertion).insertAll insertions)
        = (step (state.insert insertion)).mapState (·.insertAll insertions) :=
          ih others (Insertion.nested_insert nested insertion)
      _ = ((step state).mapState (·.insert insertion)).mapState (·.insertAll insertions) := by
          rw [first state nested]
      _ = (step state).mapState (·.insertAll (insertion :: insertions)) :=
          Outcome.mapState_mapState _ _ _

variable {fuel : Nat} {context : Context} {node : Node}

/-- An inserted scope makes no difference to an expression. -/
theorem ignores_evaluate (insertion : Insertion) : (evaluate fuel context node).Ignores insertion :=
  ignores_of_inStep (fun _ _ _ isAfter => ⟨trivial, kept_evaluate isAfter⟩) fun state _ =>
    Transparent.evaluate insertion.placement state (state.insert insertion)

/-- An inserted scope makes no difference to a statement that declares nothing of its own, nor to any
statement if it is not the current one. -/
theorem ignores_execute {insertion : Insertion}
    (declaresElsewhere : node.Undeclaring ∨ insertion.becomesCurrent = false) :
    (execute fuel context node).Ignores insertion := by
  refine ignores_of_inStep (fun _ _ _ isAfter => ⟨trivial, kept_execute isAfter⟩) fun state isThere => ?_
  obtain undeclaring | notCurrent := declaresElsewhere
  · exact Transparent.execute undeclaring insertion.placement state (state.insert insertion)
  · -- The current scope is one of both runs, so that they may declare names in it.
    have isInside : (state.insert insertion).current = insertion.placement.place state.current := by
      rw [State.insert, if_pos isThere]
      exact if_neg fun isMoved => Bool.noConfusion (notCurrent.symm.trans isMoved.1)
    have inStep := ((paddedThreshold insertion.placement context).simulation.respected fuel).execute
      state (state.insert insertion) context.callsLeft node
    exact (Threshold.inStep_of_within isInside inStep).weaken fun _ _ _ _ _ => rfl

end

/-- Empty scopes change nothing. Statements that declare nothing of their own are executed in a block as they
are one after another in the current scope: they end alike and in the same state. With any number of empty
scopes inserted anywhere in the global one, expressions and such statements end as they do without, in the
same state but for the inserted scopes; and so do all statements if no inserted scope is current. An empty
scope is still empty after an expression and such a statement, and after any statement unless it is the
current one and a declaration was executed in it. -/
theorem empty_scopes_change_nothing (fuel : Nat) (context : Context) {state : State}
    (nested : state.Nested) :
    (∀ statements : Program, (∀ statement ∈ statements, statement.Undeclaring) →
      execute (fuel + 1) context (.block statements) state =
        statements.forM (execute fuel context) state) ∧
    ∀ insertions : List Insertion,
      let inserted := state.insertAll insertions
      (∀ node, evaluate fuel context node inserted =
        (evaluate fuel context node state).mapState (·.insertAll insertions)) ∧
      (∀ node, (node.Undeclaring ∨ ∀ insertion ∈ insertions, insertion.becomesCurrent = false) →
        execute fuel context node inserted =
          (execute fuel context node state).mapState (·.insertAll insertions)) ∧
      ∀ scope, inserted.store.bindings scope = [] → ∀ node,
        (∀ after ∈ (evaluate fuel context node inserted).last, after.store.bindings scope = []) ∧
        (node.Undeclaring →
          ∀ after ∈ (execute fuel context node inserted).last, after.store.bindings scope = []) ∧
        ∀ after ∈ (execute fuel context node inserted).last,
          (after.store.bindings scope = [] ↔
            ¬(scope = inserted.current ∧ ∃ name, Declares context name fuel node inserted)) := by
  refine ⟨fun _ undeclaring => execute_block_eq undeclaring nested, fun insertions => ?_⟩
  intro inserted
  have nested' : inserted.Nested := Insertion.nested_insertAll nested insertions
  refine ⟨fun node => ?_, fun node declaresElsewhere => ?_, fun scope isEmpty node => ⟨?_, ?_, ?_⟩⟩
  · exact Exec.Ignores.insertAll (fun insertion _ => ignores_evaluate insertion) nested
  · exact Exec.Ignores.insertAll
      (fun insertion isOne => ignores_execute (declaresElsewhere.imp_right (· insertion isOne))) nested
  · exact fun after isAfter => (sameNames_evaluate isAfter).bindings_eq_nil isEmpty
  · exact fun undeclaring after isAfter => (sameNames_execute undeclaring isAfter).bindings_eq_nil isEmpty
  · exact fun after isAfter => bindings_eq_nil_iff nested'.isThere isAfter isEmpty

/-- A state in a block, around which a variable is bound to nil. -/
def State.inBlock : State :=
  Exec.enter globals [] { State.blank with store := State.blank.store.define globals "x" Cell.nil }

/-- In the block the scopes are in order. -/
theorem State.nested_inBlock : State.inBlock.Nested :=
  (State.nested_blank.of_kept (kept_define State.blank globals "x" Cell.nil)).enter

/-- Empty scopes around the block and within it, the second of which is current. -/
def aroundAndWithin : List Insertion :=
  [⟨globals, fun _ => true, false⟩, ⟨2, fun _ => false, true⟩]

/-- Statements that set the variable to true and print it. -/
def setsAndPrints : Program :=
  [.expression (.assign ⟨.identifier, [120], 1⟩ (.literal (.bool true))),
    .print (.variable ⟨.identifier, [120], 1⟩)]

/-- The statements do the same in a block and out of it, and with empty scopes around them. Only what is
declared in one of these is found there. -/
theorem variable_set_past_empty_scopes :
    let context : Context := ⟨0, false, 1, Number.zero false, []⟩
    let inserted := State.inBlock.insertAll aroundAndWithin
    (∃ after, setsAndPrints.forM (execute 4 context) State.inBlock = .done () after ∧
      after.output = #[Text.ofString "true"] ∧
      execute 5 context (.block setsAndPrints) State.inBlock = .done () after ∧
      execute 5 context (.block setsAndPrints) inserted = .done () (after.insertAll aroundAndWithin)) ∧
    ∃ after, execute 2 context (.var ⟨.identifier, [121], 1⟩ .null) inserted = .done () after ∧
      after.store.bindings 1 = [] ∧ after.store.bindings 3 ≠ [] := by
  intro context inserted
  have undeclaring : ∀ statement ∈ setsAndPrints, statement.Undeclaring := by
    simp [setsAndPrints, Node.Undeclaring]
  obtain ⟨inOrder, -⟩ := empty_scopes_change_nothing 4 context State.nested_inBlock
  obtain ⟨-, past⟩ := empty_scopes_change_nothing 5 context State.nested_inBlock
  obtain ⟨-, around⟩ := empty_scopes_change_nothing 2 context State.nested_inBlock
  have remain := (around aroundAndWithin).2.2
  obtain ⟨after, ended, printed⟩ : ∃ after,
      setsAndPrints.forM (execute 4 context) State.inBlock = .done () after ∧
        after.output = #[Text.ofString "true"] := ⟨_, rfl, rfl⟩
  have inBlock := (inOrder setsAndPrints undeclaring).trans ended
  refine ⟨⟨after, ended, printed, inBlock, ?_⟩, ?_⟩
  · rw [(past aroundAndWithin).2.1 (.block setsAndPrints) (.inl trivial), inBlock]
    rfl
  · obtain ⟨last, declared⟩ : ∃ last,
        execute 2 context (.var ⟨.identifier, [121], 1⟩ .null) inserted = .done () last := ⟨_, rfl⟩
    have isAfter := Outcome.mem_last declared
    refine ⟨last, declared, ((remain 1 rfl _).2.2 last isAfter).mpr ?_, fun isEmpty => ?_⟩
    · exact fun isCurrent => absurd isCurrent.1 (by decide)
    · exact ((remain 3 rfl _).2.2 last isAfter).mp isEmpty ⟨rfl, _, .var rfl rfl⟩

end Lox
