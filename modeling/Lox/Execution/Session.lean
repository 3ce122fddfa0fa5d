import Lox.Execution.Evaluation

/-!
# Sessions

A session runs one program after another over the same global scope. What a program did before it
failed stays, unless it was entered as a unit at a prompt: then a runtime error puts the global
bindings back. A trace goes to the debug file while that is open, and to the console afterwards.
-/

namespace Lox

/-- How deep calls of declared functions may nest. -/
def maxCallDepth : Nat := 1200

/-- A text of lines, each with the line break that ends it. -/
def Text.ofLines (lines : List Text) : Text :=
  lines.flatMap (· ++ [.char '\n'])

/-- The function that every session knows from the start. -/
def Value.clock : Value :=
  .native "clock" 0 .clock

/-- A run of programs over one global scope. -/
structure Session where
  debugLevel : Nat
  debugOpen : Bool
  now : Number
  host : List HostFunction
  state : State
  deriving Inhabited, Repr

/-- How a run of a program ends. -/
inductive Ending where
  | finished
  | failed (fault : Fault)
  | unfinished
  deriving DecidableEq, Inhabited, Repr

namespace State

/-- The state with an empty global scope. -/
def blank : State :=
  { store := Store.empty.push none []
    current := globals
    nextCell := firstFreshCell
    output := #[]
    trace := #[] }

/-- The state with a cell for a value, and that cell. -/
def allocate (state : State) (value : Value) : Cell × State :=
  match value.sharedCell? with
  | some cell => (cell, state)
  | none => (⟨state.nextCell, value⟩, { state with nextCell := state.nextCell + 1 })

/-- The state with a global name bound to a value. -/
def defineGlobal (state : State) (name : Text) (value : Value) : State :=
  let (cell, state) := state.allocate value
  { state with store := state.store.define globals name cell }

/-- The state with the standard functions bound anew. -/
def loadStandard (state : State) : State :=
  state.defineGlobal "clock" Value.clock

end State

namespace Session

/-- A session at its start. -/
def start (debugLevel : Nat) (now : Number) : Session :=
  { debugLevel := debugLevel
    debugOpen := decide (0 < debugLevel)
    now := now
    host := []
    state := State.blank.loadStandard }

/-- What a run in a session is given. -/
def context (session : Session) : Context :=
  { debugLevel := session.debugLevel
    traceStored := session.debugOpen
    callsLeft := maxCallDepth
    now := session.now
    host := session.host }

/-- The global bindings. -/
def snapshot (session : Session) : Bindings :=
  session.state.store.snapshot globals

/-- The session with the global bindings as they were. -/
def restore (session : Session) (saved : Bindings) : Session :=
  { session with state.store := session.state.store.restore globals saved }

/-- The session with one more host function, bound to a name. -/
def defineNative (session : Session) (name : Text) (arity : Int) (function : HostFunction) : Session :=
  { session with
    host := session.host ++ [function]
    state := session.state.defineGlobal name (.native name arity (.hosted session.host.length)) }

/-- A host function that is added is found under the key that its name is bound to, and those that were
there stay under theirs. -/
theorem hostFunction_defineNative (session : Session) (name : Text) (arity : Int)
    (function : HostFunction) (key : Nat) :
    (session.defineNative name arity function).context.hostFunction key =
      if key = session.host.length then function else session.context.hostFunction key := by
  change (session.host ++ [function])[key]?.getD .absent =
    if key = session.host.length then function else session.host[key]?.getD .absent
  obtain isOld | isNew | isBeyond := Nat.lt_trichotomy key session.host.length
  · rw [List.getElem?_append_left isOld, if_neg (Nat.ne_of_lt isOld)]
  · rw [isNew, List.getElem?_concat_length, if_pos rfl, Option.getD_some]
  · have isAbsent : (session.host ++ [function])[key]? = none :=
      List.getElem?_eq_none (by rw [List.length_append]; exact isBeyond)
    rw [isAbsent, List.getElem?_eq_none (Nat.le_of_lt isBeyond), if_neg (Nat.ne_of_gt isBeyond)]

/-- The session with the standard functions bound anew. -/
def loadStandard (session : Session) : Session :=
  { session with state := session.state.loadStandard }

/-- The session with its debug file closed. -/
def close (session : Session) : Session :=
  { session with debugOpen := false }

/-- The ending and the session after an outcome. -/
def ending {α : Type} (session : Session) : Outcome α → Ending × Session
  | .done _ state => (.finished, { session with state := state })
  | .failed fault state => (.failed fault, { session with state := state })
  | .unfinished => (.unfinished, session)

/-- Runs a program. -/
def run (fuel : Nat) (program : Program) (session : Session) : Ending × Session :=
  session.ending (program.run fuel session.context session.state)

/-- Runs a program as one unit, whose global bindings a runtime error takes back. -/
def runUnit (fuel : Nat) (program : Program) (session : Session) : Ending × Session :=
  match session.run fuel program with
  | (.failed (.runtime error), after) =>
    (.failed (.runtime error), after.restore session.snapshot)
  | other => other

/-- What was printed and traced between two moments of a session. -/
structure Added where
  output : List Text
  traced : List Text
  deriving Inhabited, Repr

/-- What a session printed and traced since an earlier moment of it. -/
def since (after before : Session) : Added :=
  { output := after.state.output.toList.drop before.state.output.size
    traced := after.state.trace.toList.drop before.state.trace.size }

end Session

end Lox
