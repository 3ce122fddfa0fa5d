import Lox.Execution.Fault

/-!
# Functions of a host

What the functions of a host do is a parameter of a run. Such a function looks at the values that it is
given, makes new ones, prints, calls functions and goes on with what they return, and ends with one of the
cells that it has come to know or with an error.

It never meets the scopes of a program. So it neither reads nor binds names, and it cannot make another
scope the current one. An error of a function that it has called is one of its own call.
-/

namespace Lox

/-- The errors of host functions: one of their own with a text, a value used as what it is not, an argument
that is not there, or an integer that no number comes near. -/
inductive HostError where
  | failure (text : Text)
  | noNumber (kind : ValueKind)
  | noCall (kind : ValueKind)
  | missingArgument
  | integerTooLarge
  | storage (error : StorageError)
  deriving DecidableEq, Inhabited, Repr

/-- How a run fails with the error of a host function, which is at no line of a program. -/
def HostError.fault : HostError → Fault
  | failure text => .runtime ⟨.hostFailure text, 0⟩
  | noNumber kind => .defect (.noNumber kind)
  | noCall kind => .defect (.noCall kind)
  | missingArgument => .defect .missingArgument
  | integerTooLarge => .defect .integerTooLarge
  | storage error => .defect (.storage error)

/-- The error of counting the bytes of a value, unless it can be counted. -/
def Value.byteError? : Value → Option StorageError
  | .text content => content.byteError?
  | _ => none

/-- The number that a value counts as. -/
def Value.asNumber (value : Value) : Except HostError Number :=
  match value.byteError?, value.toNumber? with
  | some error, _ => .error (.storage error)
  | none, some counted => .ok counted
  | none, none => .error (.noNumber value.kind)

/-- The number of arguments that a value asks for. -/
def Value.askedArguments (value : Value) : Except HostError Int :=
  match value.arity? with
  | some asked => .ok asked
  | none => .error (.noCall value.kind)

/-- What a host finds out about a value. -/
structure Appearance where
  kind : ValueKind
  truthy : Bool
  number : Except HostError Number
  shown : Text
  askedArguments : Except HostError Int
  deriving Inhabited, Repr

/-- How a value looks to a host. -/
def Value.appearance (value : Value) : Appearance where
  kind := value.kind
  truthy := value.truthy
  number := value.asNumber
  shown := value.shown
  askedArguments := value.askedArguments

/-- What a host function knows: how the cells look that it was given and has got since, which of them are
one, and which have equal values. -/
structure HostView where
  cells : List Appearance
  same : Nat → Nat → Bool
  equal : Nat → Nat → Bool

/-- Whether something holds of the cells at two places. -/
def holdsAt (known : List Cell) (holds : Cell → Cell → Bool) (place other : Nat) : Bool :=
  match known[place]?, known[other]? with
  | some cell, some found => holds cell found
  | _, _ => false

/-- What a host function knows of cells. -/
def HostView.of (known : List Cell) : HostView where
  cells := known.map fun cell => cell.value.appearance
  same := holdsAt known fun cell other => cell.id = other.id
  equal := holdsAt known fun cell other => cell.value.equals other.value

/-- What a host function does next. It names the cells that it knows by their places: first its arguments,
then all that it has made or got from calls. -/
inductive HostAction where
  | answer (place : Nat)
  | fail (error : HostError)
  | create (literal : Literal) (next : HostAction)
  | print (line : Text) (next : HostAction)
  | call (callee : Nat) (arguments : List Nat) (next : HostView → HostAction)

/-- A function of a host. -/
def HostFunction : Type :=
  HostView → HostAction

instance : Repr HostFunction where
  reprPrec _ _ := "HostFunction"

/-- The function where a host has added none. -/
def HostFunction.absent : HostFunction :=
  fun _ => .fail (.noCall .native)

end Lox
