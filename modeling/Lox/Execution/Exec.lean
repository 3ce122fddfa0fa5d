import Lox.Execution.Host
import Lox.Execution.Store

/-!
# Executions

An execution goes from a state to an outcome: a result, a fault, or nothing yet when its fuel has
run out. A fault keeps the state it happened in. Scopes are entered and left in one place, which
puts the current scope back however the execution inside ends.
-/

namespace Lox

/-- What a run can change. -/
structure State where
  store : Store
  current : ScopeId
  nextCell : Nat
  output : Array Text
  trace : Array Text
  deriving Inhabited, Repr

/-- The global scope. -/
def globals : ScopeId := 0

/-- What a run is given and cannot change: how much it traces and whether the trace is stored in
a file, how deep its calls may nest, the time, and the functions of the host. -/
structure Context where
  debugLevel : Nat
  traceStored : Bool
  callsLeft : Nat
  now : Number
  host : List HostFunction
  deriving Inhabited, Repr

/-- How an execution ends. -/
inductive Outcome (α : Type) where
  | done (result : α) (state : State)
  | failed (fault : Fault) (state : State)
  | unfinished
  deriving Inhabited, Repr

/-- An outcome whose state is changed once more. -/
def Outcome.changed {α : Type} (change : State → State) : Outcome α → Outcome α
  | done result state => .done result (change state)
  | failed fault state => .failed fault (change state)
  | unfinished => .unfinished

/-- A step of a run. -/
def Exec (α : Type) : Type :=
  State → Outcome α

namespace Exec

variable {α β : Type}

/-- The step that only has a result. -/
@[always_inline, inline]
def result (value : α) : Exec α :=
  fun state => .done value state

/-- One step after another; the second is left out when the first does not end normally. -/
@[always_inline, inline]
def andThen (first : Exec α) (second : α → Exec β) : Exec β :=
  fun state =>
    match first state with
    | .done value after => second value after
    | .failed fault after => .failed fault after
    | .unfinished => .unfinished

@[always_inline]
instance : Monad Exec where
  pure := result
  bind := andThen

instance : LawfulMonad Exec :=
  LawfulMonad.mk' Exec
    (by
      intro α step
      funext state
      change andThen step (fun value => result (id value)) state = step state
      unfold andThen
      cases step state <;> rfl)
    (fun _ _ => rfl)
    (by
      intro α β γ first second third
      funext state
      change andThen (andThen first second) third state =
        andThen first (fun value => andThen (second value) third) state
      unfold andThen
      cases first state <;> rfl)

/-- The step that fails. -/
@[always_inline, inline]
def fail (fault : Fault) : Exec α :=
  fun state => .failed fault state

/-- The step that fails with a runtime error. -/
def failAt (line : Int) (cause : Cause) : Exec α :=
  fail (.runtime ⟨cause, line⟩)

/-- The step that fails with a defect. -/
def failDefect (defect : Defect) : Exec α :=
  fail (.defect defect)

/-- The step that has run out of fuel. -/
@[always_inline, inline]
def unfinished : Exec α :=
  fun _ => .unfinished

/-- The current scope. -/
@[always_inline, inline]
def current : Exec ScopeId :=
  fun state => .done state.current state

/-- Prints a line. -/
def write (line : Text) : Exec Unit :=
  fun state => .done () { state with output := state.output.push line }

/-- Adds a line to the trace. -/
def record (line : Text) : Exec Unit :=
  fun state => .done () { state with trace := state.trace.push line }

/-- The cell of a value, a new one unless the value has a shared one. -/
def newCell (value : Value) : Exec Cell :=
  match value.sharedCell? with
  | some cell => result cell
  | none => fun state =>
    .done ⟨state.nextCell, value⟩ { state with nextCell := state.nextCell + 1 }

/-- Binds a name in the current scope. -/
def define (name : Text) (cell : Cell) : Exec Unit :=
  fun state => .done () { state with store := state.store.define state.current name cell }

/-- The cell that a name stands for. -/
def lookup (name : Token) : Exec Cell :=
  fun state =>
    match state.store.get? state.current name.text with
    | some cell => .done cell state
    | none => failAt name.line (.undefinedVariable name.text) state

/-- Binds a name anew where it is bound. -/
def assign (name : Token) (cell : Cell) : Exec Unit :=
  fun state =>
    match state.store.assign? state.current name.text cell with
    | some store => .done () { state with store := store }
    | none => failAt name.line (.undefinedVariable name.text) state

/-- Opens a scope and makes it the current one. -/
def enter (enclosing : ScopeId) (bindings : Bindings) (state : State) : State :=
  { state with
    store := state.store.push (some enclosing) bindings
    current := state.store.size }

/-- Puts back the current scope and drops the scopes opened since. -/
def leave (current : ScopeId) (scopes : Nat) (state : State) : State :=
  { state with store := state.store.truncate scopes, current := current }

/-- Runs a step in a new scope, which is gone afterwards. -/
@[always_inline, inline]
def inScope (enclosing : ScopeId) (bindings : Bindings) (body : Exec α) : Exec α :=
  fun state =>
    let current := state.current
    let scopes := state.store.size
    match body (enter enclosing bindings state) with
    | .done value after => .done value (leave current scopes after)
    | .failed fault after => .failed fault (leave current scopes after)
    | .unfinished => .unfinished

/-- A step in a new scope runs inside it, and leaves it however it ends. -/
theorem inScope_eq {enclosing : ScopeId} {bindings : Bindings} {body : Exec α} {state : State} :
    inScope enclosing bindings body state =
      (body (enter enclosing bindings state)).changed (leave state.current state.store.size) := by
  unfold inScope Outcome.changed
  cases body (enter enclosing bindings state) <;> rfl

/-- Makes a scope that is there already the current one. -/
def turn (scope : ScopeId) (state : State) : State :=
  { state with current := scope }

/-- Runs a step in a scope that is there already, and which stays. -/
def within (scope : ScopeId) (body : Exec α) : Exec α :=
  fun state => (body (turn scope state)).changed (turn state.current)

/-- Does something more before a fault goes on. -/
def onFault (body : Exec α) (more : Fault → Exec Unit) : Exec α :=
  fun state =>
    match body state with
    | .failed fault after =>
      match more fault after with
      | .done _ after => .failed fault after
      | .failed other after => .failed other after
      | .unfinished => .unfinished
    | outcome => outcome

end Exec

/-- Why a line cannot be added to the trace, if it cannot. -/
def Context.traceError? (context : Context) (line : Text) : Option StorageError :=
  if context.traceStored then line.storageError? else none

/-- Adds a line to the trace of a run that is traced at least at a level. A line that cannot be
stored ends the run and is left out as a whole. -/
def Context.trace (context : Context) (level : Nat) (line : Text) : Exec Unit :=
  if level ≤ context.debugLevel then
    match context.traceError? line with
    | some error => Exec.failDefect (.storage error)
    | none => Exec.record line
  else pure ()

end Lox
