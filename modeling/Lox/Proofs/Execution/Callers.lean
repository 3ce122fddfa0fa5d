import Lox.Proofs.Execution.TwinRuns

/-!
# What a call can see

A call of a declared function depends on the global scope and on its arguments, and on nothing of
where it is made: in two states that share those it ends in the same way, prints the same and leaves
the same global scope, and no other scope of the caller is changed.

The scopes of the caller need not even be alike. A call never looks at the current scope, so it may as
well be made from the global one, where the two states are twins.
-/

namespace Lox

/-- The outcome with another scope made current in the end. -/
def Outcome.within {α : Type} (current : ScopeId) : Outcome α → Outcome α
  | .done result state => .done result { state with current := current }
  | .failed fault state => .failed fault { state with current := current }
  | .unfinished => .unfinished

/-- A step that neither looks at the current scope nor changes it. -/
def IgnoresCurrent {α : Type} (step : Exec α) : Prop :=
  ∀ state current, step { state with current := current } = (step state).within current

/-- The state with the global scope current. -/
def State.inGlobals (state : State) : State :=
  { state with current := globals }

/-- A session may go on from the global scope. -/
theorem State.Ready.inGlobals {state : State} (ready : state.Ready) : state.inGlobals.Ready :=
  ⟨⟨ready.shared, ready.bound⟩, ready.hasGlobals, ready.outermost⟩

namespace IgnoresCurrent

variable {α β : Type}

/-- No step at all. -/
theorem pure (result : α) : IgnoresCurrent (Pure.pure result : Exec α) :=
  fun _ _ => rfl

/-- A fault ignores the current scope. -/
theorem fail (fault : Fault) : IgnoresCurrent (Exec.fail fault : Exec α) :=
  fun _ _ => rfl

/-- No fuel. -/
theorem unfinished : IgnoresCurrent (Exec.unfinished : Exec α) :=
  fun _ _ => rfl

/-- Steps in sequence ignore the current scope when each of them does. -/
theorem bind {step : Exec α} {next : α → Exec β} (first : IgnoresCurrent step)
    (follow : ∀ result, IgnoresCurrent (next result)) : IgnoresCurrent (step >>= next) := by
  intro state current
  change Exec.andThen step next _ = (Exec.andThen step next state).within current
  unfold Exec.andThen
  rw [first state current]
  cases step state with
  | done result after => exact follow result after current
  | failed fault after => rfl
  | unfinished => rfl

/-- Traces do not say which scope is current. -/
theorem trace (context : Context) (level : Nat) (line : Text) :
    IgnoresCurrent (context.trace level line) := by
  unfold Context.trace
  split
  · split
    · exact fail _
    · exact fun _ _ => rfl
  · exact pure ()

/-- A scope that a given one encloses does not depend on the current one, which is put back. -/
theorem inScope (enclosing : ScopeId) (bindings : Bindings) (body : Exec α) :
    IgnoresCurrent (Exec.inScope enclosing bindings body) := by
  intro state current
  unfold Exec.inScope
  change (match body (Exec.enter enclosing bindings state) with
    | .done value after => Outcome.done value (Exec.leave current state.store.size after)
    | .failed fault after => .failed fault (Exec.leave current state.store.size after)
    | .unfinished => .unfinished) = _
  dsimp only
  cases body (Exec.enter enclosing bindings state) <;> rfl

end IgnoresCurrent

open Pairing State

variable {callee : Cell} {declaration : Declaration}

/-- A call of a declared function is a step that ignores the current scope, and has no result. -/
theorem call_eq (isFunction : callee.value = .function declaration) (fuel : Nat) (context : Context)
    (line : Int) (arguments : List Cell) :
    ∃ step : Exec Unit, IgnoresCurrent step ∧
      call fuel context line callee arguments = step >>= fun _ => pure Cell.nil := by
  cases fuel with
  | zero => exact ⟨Exec.unfinished, .unfinished, rfl⟩
  | succ fuel =>
    unfold call
    rw [isFunction]
    dsimp only
    split
    · exact ⟨Exec.failAt line .stackOverflow, .fail _, rfl⟩
    · split
      · exact ⟨Exec.failDefect .missingArgument, .fail _, rfl⟩
      · exact ⟨_, .inScope _ _ _, rfl⟩

/-- So is one that is checked first. -/
theorem callChecked_eq (isFunction : callee.value = .function declaration) (fuel : Nat)
    (context : Context) (line : Int) (arguments : List Cell) :
    ∃ step : Exec Unit, IgnoresCurrent step ∧
      callChecked fuel context line callee arguments = step >>= fun _ => pure Cell.nil := by
  cases fuel with
  | zero => exact ⟨Exec.unfinished, .unfinished, rfl⟩
  | succ fuel =>
    obtain ⟨step, ignores, isStep⟩ := call_eq isFunction fuel context line arguments
    unfold callChecked
    rw [isFunction]
    dsimp only [Value.arity?]
    split
    · rw [isStep, ← bind_assoc]
      exact ⟨_, .bind (.trace context 2 _) fun _ => ignores, rfl⟩
    · exact ⟨Exec.failAt line _, .fail _, rfl⟩

/-- A call of a declared function may as well be made from the global scope. -/
theorem callChecked_within (isFunction : callee.value = .function declaration) (fuel : Nat)
    (context : Context) (line : Int) (arguments : List Cell) (state : State) :
    callChecked fuel context line callee arguments state =
      (callChecked fuel context line callee arguments state.inGlobals).within state.current := by
  obtain ⟨step, ignores, isStep⟩ := callChecked_eq isFunction fuel context line arguments
  rw [isStep]
  exact (ignores.bind fun _ => .pure Cell.nil) state.inGlobals state.current

/-- A call of a declared function that ends normally gives nil. -/
theorem eq_nil_of_callChecked (isFunction : callee.value = .function declaration) {fuel : Nat}
    {context : Context} {line : Int} {arguments : List Cell} {state after : State} {result : Cell}
    (ended : callChecked fuel context line callee arguments state = .done result after) :
    result = Cell.nil := by
  obtain ⟨step, -, isStep⟩ := callChecked_eq isFunction fuel context line arguments
  rw [isStep] at ended
  change Exec.andThen step (fun _ => Exec.result Cell.nil) state = _ at ended
  unfold Exec.andThen at ended
  cases isOutcome : step state with
  | done _ last =>
    rw [isOutcome] at ended
    cases ended
    rfl
  | failed fault last =>
    rw [isOutcome] at ended
    cases ended
  | unfinished =>
    rw [isOutcome] at ended
    cases ended

namespace State

/-- Two steps from two states have done the same to what the states share: they have added the same
lines to what was printed and traced, and the same names are global, with cells that stand for each
other. -/
structure SameEffect (first second after after' : State) : Prop where
  output : ∃ lines, after.output = first.output ++ lines ∧ after'.output = second.output ++ lines
  trace : ∃ lines, after.trace = first.trace ++ lines ∧ after'.trace = second.trace ++ lines
  globals : ∀ name, Option.Rel (SameCell first.nextCell second.nextCell)
    ((after.store.bindings globals).get? name) ((after'.store.bindings globals).get? name)

/-- A step has left the scopes of its caller alone: no scope but the global one is changed, none is
new, and the same one is current. -/
structure CallerKept (before after : State) : Prop extends Kept before after where
  others : OthersKept before after

/-- What twins have done, they have done alike. -/
theorem Twins.sameEffect {first second after after' : State}
    (twins : Twins first second after after') : SameEffect first second after after' where
  output := twins.output
  trace := twins.trace
  globals := (twins.alike _ _ (sameScope_globals _ _)).bound

end State

/-- A function that is called in two states with the same global scope does the same in both,
whatever scopes are open and current in each: the calls end in the same way, with nil or the same
fault, have the same effect, and leave the other scopes of their callers alone. -/
theorem callChecked_ignores_caller {first second : State} (ready : first.Ready)
    (ready' : second.Ready)
    (agree : ∀ name, (first.store.bindings globals).get? name =
      (second.store.bindings globals).get? name)
    (isFunction : callee.value = .function declaration) {arguments : List Cell}
    (areThere : ∀ cell ∈ callee :: arguments, cell.id < first.nextCell ∧ cell.id < second.nextCell)
    (fuel : Nat) (context : Context) (line : Int) :
    match callChecked fuel context line callee arguments first,
      callChecked fuel context line callee arguments second with
    | .done result after, .done result' after' =>
      result = Cell.nil ∧ result' = Cell.nil ∧ SameEffect first second after after' ∧
        CallerKept first after ∧ CallerKept second after'
    | .failed fault after, .failed fault' after' =>
      fault = fault' ∧ SameEffect first second after after' ∧
        CallerKept first after ∧ CallerKept second after'
    | .unfinished, .unfinished => True
    | _, _ => False := by
  have twins := twins_of_agree ready.inGlobals ready'.inGlobals agree
  have itself (cell : Cell) (isThere : cell ∈ callee :: arguments) :
      SameCell first.inGlobals.nextCell second.inGlobals.nextCell cell cell :=
    ⟨rfl, .inl ⟨rfl, areThere cell isThere⟩⟩
  have areCells : List.Forall₂ (SameCell first.inGlobals.nextCell second.inGlobals.nextCell)
      arguments arguments :=
    List.forall₂_same.mpr fun cell isThere => itself cell (List.mem_cons_of_mem _ isThere)
  have ends := ((twinSimulation ready.inGlobals ready'.inGlobals context).respected fuel).callChecked
    _ _ context.callsLeft line callee callee arguments arguments (itself callee List.mem_cons_self)
    areCells ⟨twins, sameScope_globals _ _, ready.hasGlobals⟩
  change Ends _ _ _ _ (callChecked fuel context line callee arguments first.inGlobals)
    (callChecked fuel context line callee arguments second.inGlobals) at ends
  rw [callChecked_within isFunction fuel context line arguments first,
    callChecked_within isFunction fuel context line arguments second]
  have isNil {state after : State} {result : Cell}
      (ended : callChecked fuel context line callee arguments state = .done result after) :
      result = Cell.nil := eq_nil_of_callChecked isFunction ended
  have back {before after : State} (kept : Kept before.inGlobals after)
      (others : OthersKept before.inGlobals after) :
      CallerKept before { after with current := before.current } :=
    ⟨⟨kept.size, rfl, kept.enclosing, kept.cells⟩, others⟩
  generalize left : callChecked fuel context line callee arguments first.inGlobals = outcome at ends ⊢
  generalize right : callChecked fuel context line callee arguments second.inGlobals = outcome'
    at ends ⊢
  cases ends with
  | done states kept _ =>
    have effect := states.sameEffect
    exact ⟨isNil left, isNil right, ⟨effect.output, effect.trace, effect.globals⟩,
      back kept.1 states.hidden, back kept.2 states.hidden'⟩
  | failed states kept =>
    have effect := states.sameEffect
    exact ⟨rfl, ⟨effect.output, effect.trace, effect.globals⟩, back kept.1 states.hidden,
      back kept.2 states.hidden'⟩
  | unfinished => trivial

/-- A function that prints a variable of its surroundings. -/
def printsX : Declaration :=
  ⟨⟨.identifier, [102], 1⟩, [], [.print (.variable ⟨.identifier, [120], 1⟩)]⟩

/-- The state of a session that has declared the function. -/
def outsideBlock : State :=
  (Session.start 0 (Number.zero false)).state.defineGlobal "f" (.function printsX)

/-- The same session in a block that has declared the variable. -/
def insideBlock : State :=
  Exec.enter globals [("x", Cell.nil)] outsideBlock

/-- The function does not find the variable, not even when it is called in the block. -/
theorem local_not_found_by_call :
    let context : Context := ⟨0, false, 1, Number.zero false, []⟩
    let callee : Cell := ⟨4, .function printsX⟩
    let fault := .runtime ⟨.undefinedVariable "x", 1⟩
    ∃ after after', callChecked 5 context 1 callee [] outsideBlock = .failed fault after ∧
      callChecked 5 context 1 callee [] insideBlock = .failed fault after' ∧
      SameEffect outsideBlock insideBlock after after' ∧ CallerKept insideBlock after' := by
  intro context callee fault
  have ready : outsideBlock.Ready := (Session.ready_start 0 _).defineGlobal "f" _
  have areNumbered : ∀ name cell, Bindings.get? [("x", Cell.nil)] name = some cell →
      cell.id < outsideBlock.nextCell := by
    intro name cell isBound
    have isPut : Bindings.get? (Bindings.put "x" Cell.nil []) name = some cell := isBound
    rw [Bindings.get?_put] at isPut
    split at isPut
    · cases isPut
      decide
    · exact absurd isPut (by simp [Bindings.get?])
  have ready' : insideBlock.Ready := ready.enter areNumbered globals
  have areThere : ∀ cell ∈ [callee],
      cell.id < outsideBlock.nextCell ∧ cell.id < insideBlock.nextCell := by
    intro cell isCallee
    obtain rfl := List.mem_singleton.mp isCallee
    decide
  have isFunction : callee.value = .function printsX := rfl
  have same := callChecked_ignores_caller ready ready' (fun _ => rfl) isFunction areThere 5 context 1
  obtain ⟨after, ended⟩ : ∃ after,
      callChecked 5 context 1 callee [] outsideBlock = .failed fault after := ⟨_, rfl⟩
  obtain ⟨after', ended'⟩ : ∃ after,
      callChecked 5 context 1 callee [] insideBlock = .failed fault after := ⟨_, rfl⟩
  rw [ended, ended'] at same
  exact ⟨after, after', ended, ended', same.2.1, same.2.2.2⟩

end Lox
