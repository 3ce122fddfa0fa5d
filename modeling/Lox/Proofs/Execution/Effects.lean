import Lox.Execution.Session
import Lox.Proofs.Execution.Footprint
import Lox.Proofs.Execution.Names

/-!
# What an execution may change

An execution takes no name away. An expression, a block and a call add none to any scope, whatever is
declared inside them; any other statement adds names to the current scope alone, and only those that it
declares outside of blocks and functions. A name that is nowhere declared or assigned to, neither in the
tree nor in a function that some scope holds, stays bound to the cells that it was bound to.
-/

namespace Lox

open Pairing State

/-- The names that a statement declares where it stands, outside of blocks and functions in it. -/
def Node.ownNames : Node → List Text
  | .var name _ | .function name _ _ => [name.text]
  | .conditional _ thenBranch elseBranch => thenBranch.ownNames ++ elseBranch.ownNames
  | .loop _ body => body.ownNames
  | _ => []

/-- No name is taken away, and none is added but some to the current scope. -/
structure State.Adds (names : List Text) (before after : State) : Prop where
  current : after.current = before.current
  bound : ∀ scope name, (before.store.bindings scope).binds name = true →
    (after.store.bindings scope).binds name = true
  added : ∀ scope name, (after.store.bindings scope).binds name = true →
    (before.store.bindings scope).binds name = true ∨ scope = before.current ∧ name ∈ names

/-- Where the same names are bound none is added. -/
theorem State.SameNames.adds {before after : State} (same : SameNames before after)
    (current : after.current = before.current) (names : List Text) : Adds names before after where
  current := current
  bound scope name isBound := (same scope name).trans isBound
  added scope name isBound := .inl ((same scope name).symm.trans isBound)

/-- Names that are added to the current scope twice are added. -/
theorem State.Adds.trans {names : List Text} {before middle after : State}
    (first : Adds names before middle) (second : Adds names middle after) :
    Adds names before after where
  current := second.current.trans first.current
  bound scope name isBound := second.bound scope name (first.bound scope name isBound)
  added scope name isBound := by
    obtain isBound | ⟨isCurrent, isName⟩ := second.added scope name isBound
    · exact first.added scope name isBound
    · exact .inr ⟨isCurrent.trans first.current, isName⟩

/-- A definition adds its name to its scope if it was not bound there. -/
theorem State.adds_define {names : List Text} {state : State} {name : Text} (cell : Cell)
    (isName : name ∈ names) :
    Adds names state { state with store := state.store.define state.current name cell } where
  current := rfl
  bound scope found isBound := by
    rw [Store.bindings_define]
    split
    · rw [Bindings.binds_put, isBound, Bool.or_true]
    · exact isBound
  added scope found isBound := by
    rw [Store.bindings_define] at isBound
    split at isBound
    · next isCurrent =>
      rw [Bindings.binds_put, Bool.or_eq_true, decide_eq_true_eq] at isBound
      obtain rfl | isBound := isBound
      · exact .inr ⟨isCurrent.1.symm, isName⟩
      · exact .inl isBound
    · exact .inl isBound

/-- Operations add no names. -/
def addingUpkeep (names : List Text) : Upkeep where
  holds _ := True
  kept := Adds names
  refl _ := SameNames.adds (fun _ _ => rfl) rfl names
  trans := State.Adds.trans
  quiet sameStore sameCurrent _ _ :=
    ⟨trivial, SameNames.adds (fun _ _ => by rw [sameStore]) sameCurrent names⟩
  assign {state} {scope} {name} cell isResolved _ := by
    have same : SameNames state { state with store := state.store.define scope name cell } :=
      Store.binds_define_of_resolve isResolved cell
    exact ⟨trivial, same.adds rfl names⟩

section

variable {names : List Text} {fuel : Nat} {context : Context}

/-- An expression adds no names. -/
theorem adding_evaluate (names : List Text) (fuel : Nat) (context : Context) (node : Node) :
    (addingUpkeep names).Keeps (evaluate fuel context node) :=
  fun _ _ _ isAfter =>
    ⟨trivial, (sameNames_evaluate isAfter).adds (kept_evaluate isAfter).current names⟩

/-- A statement that declares nothing of its own adds no names. -/
theorem adding_of_undeclaring (names : List Text) (fuel : Nat) (context : Context) {node : Node}
    (undeclaring : node.Undeclaring) : (addingUpkeep names).Keeps (execute fuel context node) :=
  fun _ _ _ isAfter =>
    ⟨trivial, (sameNames_execute undeclaring isAfter).adds (kept_execute isAfter).current names⟩

/-- A definition adds its name. -/
theorem adding_define {name : Text} (isName : name ∈ names) (cell : Cell) :
    (addingUpkeep names).Keeps (Exec.define name cell) := by
  intro state _ after isAfter
  obtain rfl := List.mem_singleton.mp isAfter
  exact ⟨trivial, adds_define cell isName⟩

/-- A definition that is traced adds its name. -/
theorem adding_declare {name : Text} (isName : name ∈ names) (cell : Cell) (line : Text) :
    (addingUpkeep names).Keeps (do Exec.define name cell; context.trace 2 line) :=
  (adding_define isName cell).bind fun _ => Upkeep.keeps_trace _ context 2 line

/-- A statement adds its own names at most. -/
theorem adding_execute (fuel : Nat) {node : Node} (areNames : node.ownNames ⊆ names) :
    (addingUpkeep names).Keeps (execute fuel context node) := by
  induction fuel generalizing node with
  | zero => exact fun _ _ _ isAfter => nomatch isAfter
  | succ fuel ih =>
    have evaluated := adding_evaluate names fuel context
    have traced := (addingUpkeep names).keeps_trace context
    cases node with
    | var name initializer =>
      refine Upkeep.Keeps.bind (α := Cell) ?_ fun cell =>
        adding_declare (areNames List.mem_cons_self) cell _
      cases initializer with
      | null => exact Upkeep.keeps_pure _
      | _ => exact evaluated _
    | function name parameters body =>
      exact (Upkeep.keeps_newCell _).bind fun cell =>
        adding_declare (areNames List.mem_cons_self) cell _
    | conditional condition thenBranch elseBranch =>
      obtain ⟨areThen, areElse⟩ := List.append_subset.mp areNames
      refine (evaluated condition).bind fun cell => (traced 3 _).bind fun _ => ?_
      split
      · exact ih areThen
      · cases elseBranch with
        | null => exact Upkeep.keeps_pure ()
        | _ => exact ih areElse
    | loop condition body =>
      refine (evaluated condition).bind fun cell => (traced 3 _).bind fun _ => ?_
      split
      · have areNames' : body.ownNames ⊆ names := areNames
        exact (ih areNames').bind fun _ => @ih (.loop condition body) areNames
      · exact Upkeep.keeps_pure ()
    | _ => exact adding_of_undeclaring names (fuel + 1) context trivial

end

/-- A leaf that neither declares a name nor assigns to it. -/
def Leaf.Spares (name : Text) : Leaf → Prop
  | .token .declared found | .token .assigned found => found.text ≠ name
  | _ => True

/-- No function that a scope holds declares a name or assigns to it. -/
def State.Spares (name : Text) (state : State) : Prop :=
  ∀ scope found cell, (state.store.bindings scope).get? found = some cell →
    cell.value.Within (Leaf.Spares name)

/-- The footprint of runs from a state that spare a name, which can see all scopes. -/
def sparing (name : Text) (state : State) : Footprint where
  leaves := Leaf.Spares name
  seen _ := True
  count := state.store.size
  seen_globals := trivial
  seen_new _ _ := trivial

/-- Where no function has anything to do with a name, runs spare it. -/
theorem State.Spares.confines {name : Text} {state : State} (spares : state.Spares name) :
    (sparing name state).Confines state where
  count_le := Nat.le_refl _
  current := trivial
  enclosing _ _ _ _ := trivial
  value scope _ := spares scope

/-- A step that spares a name leaves it bound to the same cells. -/
theorem Footprint.Steps.slot_eq {name : Text} {state after : State} {α : Type} {results : α → Prop}
    {step : Exec α} (spares : state.Spares name)
    (confined : (sparing name state).Steps results step) (isAfter : after ∈ (step state).last)
    {scope : ScopeId} (isThere : scope < state.store.size) :
    (after.store.bindings scope).get? name = (state.store.bindings scope).get? name :=
  ((confined state spares.confines).of_mem_last isAfter).2.slot scope isThere name
    fun _ isLeaf => isLeaf.elim id id

/-- However an execution ends, every name in a scope is still bound. An expression, a block and a call
add no name to any scope, and a statement adds names of its own to the current scope at most. A name is
bound to the same cells as before in every scope that was there, if it is neither declared nor assigned
to in what is executed or in the body of a function that a scope holds. -/
theorem effects_on_existing_scopes (fuel : Nat) (context : Context) (state : State) :
    (∀ node, ∀ after ∈ (evaluate fuel context node state).last, SameNames state after) ∧
    (∀ statements, ∀ after ∈ (execute fuel context (.block statements) state).last,
      SameNames state after) ∧
    (∀ line callee arguments,
      (∀ after ∈ (callChecked fuel context line callee arguments state).last,
        SameNames state after) ∧
      ∀ after ∈ (call fuel context line callee arguments state).last, SameNames state after) ∧
    (∀ node, ∀ after ∈ (execute fuel context node state).last, Adds node.ownNames state after) ∧
    ∀ name, state.Spares name → ∀ node, node.Within (Leaf.Spares name) →
      ∀ after ∈ (execute fuel context node state).last ++ (evaluate fuel context node state).last,
        ∀ scope < state.store.size,
          (after.store.bindings scope).get? name = (state.store.bindings scope).get? name := by
  refine ⟨fun _ _ => sameNames_evaluate, fun _ _ => sameNames_execute trivial,
    fun _ _ _ => ⟨fun _ => sameNames_callChecked, fun _ => sameNames_call⟩, ?_, ?_⟩
  · intro node after isAfter
    exact (adding_execute fuel (List.Subset.refl _) state trivial after isAfter).2
  · intro name spares node within after isAfter scope isThere
    have confined := (sparing name state).confined fuel
    obtain isAfter | isAfter := List.mem_append.mp isAfter
    · exact (confined.execute context node within).slot_eq spares isAfter isThere
    · exact (confined.evaluate context node within).slot_eq spares isAfter isThere

/-- A function that declares a variable of its own. -/
def declaresX : Declaration :=
  ⟨⟨.identifier, [102], 1⟩, [], [.var ⟨.identifier, [120], 1⟩ .null]⟩

/-- The state of a session that has declared the function. -/
def State.declaring : State :=
  (Session.start 0 (Number.zero false)).state.defineGlobal "f" (.function declaresX)

/-- A statement that declares another variable after a call of the function. -/
def declaresYAfterCall : Node :=
  .conditional (.unary ⟨.bang, [33], 1⟩ (.call (.variable ⟨.identifier, [102], 1⟩) ⟨.rightParen, [41], 1⟩ []))
    (.var ⟨.identifier, [121], 1⟩ .null) .null

/-- The statement adds its variable and not that of the function, which is still bound to its cell. -/
theorem only_own_variable_added :
    let context : Context := ⟨0, false, 1, Number.zero false, []⟩
    ∃ after, execute 9 context declaresYAfterCall State.declaring = .done () after ∧
      Adds ["y"] State.declaring after ∧
      (after.store.bindings globals).binds "y" = true ∧
      (after.store.bindings globals).get? "f" = (State.declaring.store.bindings globals).get? "f" := by
  intro context
  have spares : State.declaring.Spares "f" := by
    intro scope found cell isBound
    cases scope with
    | zero =>
      change Bindings.get? [("clock", ⟨3, Value.clock⟩), ("f", ⟨4, .function declaresX⟩)] found =
        some cell at isBound
      rw [Bindings.get?, List.lookup_cons, List.lookup_cons, List.lookup_nil] at isBound
      split at isBound
      · cases isBound
        trivial
      · split at isBound <;> cases isBound
        refine ⟨⟨?_, trivial⟩, trivial⟩
        change (_ : Text) ≠ _
        decide
    | succ scope => cases isBound
  have within : declaresYAfterCall.Within (Leaf.Spares "f") := by
    refine ⟨⟨trivial, trivial, trivial, trivial⟩, ⟨?_, trivial⟩, trivial⟩
    change (_ : Text) ≠ _
    decide
  obtain ⟨after, ended, isBound⟩ : ∃ after,
      execute 9 context declaresYAfterCall State.declaring = .done () after ∧
        (after.store.bindings globals).binds "y" = true := ⟨_, rfl, rfl⟩
  obtain ⟨-, -, -, adds, slots⟩ := effects_on_existing_scopes 9 context State.declaring
  have isAfter : after ∈ (execute 9 context declaresYAfterCall State.declaring).last := by
    rw [ended]
    exact List.mem_singleton_self after
  exact ⟨after, ended, adds _ after isAfter, isBound,
    slots "f" spares _ within after (List.mem_append_left _ isAfter) globals (by decide)⟩

end Lox
