import Lox.Proofs.Execution.HostCells
import Lox.Proofs.Execution.Pairing

/-!
# Operations in step

Two runs whose single operations are in step, all but definitions: then so are the operators and the
binding of parameters, and the host functions if the calls are that they make. With more fuel the
expressions and calls are in step if what they are made of is, and so are the statements that declare
nothing of their own.

The two runs may have contexts of their own, as long as the time, the functions of the host and the
number of calls that may still nest are the same.
-/

namespace Lox

/-- The context with another number of calls that may still nest. -/
def Context.allowing (context : Context) (calls : Nat) : Context :=
  { context with callsLeft := calls }

/-- A statement that declares nothing itself, whatever the blocks and functions in it declare. -/
def Node.Undeclaring : Node → Prop
  | .var _ _ | .function _ _ _ => False
  | .conditional _ thenBranch elseBranch => thenBranch.Undeclaring ∧ elseBranch.Undeclaring
  | .loop _ body => body.Undeclaring
  | _ => True

open Pairing

/-- Two contexts with the same time and the same host. -/
structure Contexts where
  first : Context
  second : Context
  now_eq : first.now = second.now
  host_eq : first.host = second.host

/-- A context beside itself. -/
def Contexts.twice (context : Context) : Contexts :=
  ⟨context, context, rfl, rfl⟩

/-- Bindings that stand for each other because they are the same. -/
def sameBindings (_ _ : State) : Bindings → Bindings → Prop :=
  Eq

/-- No bindings are the same as no bindings. -/
theorem sameBindings_nil (left right : State) : sameBindings left right [] [] :=
  rfl

/-- The same cell keeps bindings the same. -/
theorem sameBindings_put {left right : State} {bindings bindings' : Bindings} {cell cell' : Cell}
    (name : Text) (same : sameBindings left right bindings bindings') (isCell : cell = cell') :
    sameBindings left right (bindings.put name cell) (bindings'.put name cell') :=
  congrArg₂ (Bindings.put name) isCell same

/-- A pairing that every operation on a state but a definition respects, in two contexts with the
same time and the same host. It says which bindings of parameters stand for each other, too. -/
structure Operations extends Pairing, Contexts where
  bound : State → State → Bindings → Bindings → Prop
  bound_nil : ∀ left right, bound left right [] []
  bound_put : ∀ {left right bindings bindings' cell cell'} name,
    bound left right bindings bindings' → cells left right cell cell' →
    bound left right (bindings.put name cell) (bindings'.put name cell')
  nilCell : ∀ left right,
    toPairing.InStep left right cells (pure Cell.nil) (pure Cell.nil)
  cells_value : ∀ {left right cell cell'}, cells left right cell cell' → cell.value = cell'.value
  cells_id : ∀ {left right cell cell' other other'}, cells left right cell cell' →
    cells left right other other' → (cell.id = other.id ↔ cell'.id = other'.id)
  newCell : ∀ left right value,
    toPairing.InStep left right cells (Exec.newCell value) (Exec.newCell value)
  lookup : ∀ left right name,
    toPairing.InStep left right cells (Exec.lookup name) (Exec.lookup name)
  assign : ∀ left right name cell cell', cells left right cell cell' →
    toPairing.InStep left right anyResults (Exec.assign name cell) (Exec.assign name cell')
  write : ∀ left right line,
    toPairing.InStep left right anyResults (Exec.write line) (Exec.write line)
  trace : ∀ left right level line,
    toPairing.InStep left right anyResults (first.trace level line) (second.trace level line)

namespace Operations

variable {operations : Operations} {left right : State} {arguments arguments' : List Cell}

/-- Prefix operators respect the operations. -/
theorem applyUnary (operator : Token) (operand : Value) :
    operations.InStep left right operations.cells (Lox.applyUnary operator operand)
      (Lox.applyUnary operator operand) := by
  unfold Lox.applyUnary
  split
  · exact operations.newCell left right _
  · split
    · exact operations.newCell left right _
    · exact .fail _
  · exact .fail _

/-- Operators between values respect the operations. -/
theorem applyBinary (operator : Token) (value value' : Value) :
    operations.InStep left right operations.cells (Lox.applyBinary operator value value')
      (Lox.applyBinary operator value value') := by
  unfold Lox.applyBinary
  split
  · exact operations.newCell left right _
  · exact operations.newCell left right _
  · split
    · exact operations.newCell left right _
    · exact .fail _
  · split
    · split
      · exact operations.newCell left right _
      · exact .fail _
    · exact .fail _

/-- The argument at a place is there in both runs or in neither. -/
theorem argument (areCells : List.Forall₂ (operations.cells left right) arguments arguments')
    (index : Nat) :
    operations.InStep left right operations.cells (Lox.argument arguments index)
      (Lox.argument arguments' index) := by
  have isThere := getElem?_rel areCells index
  unfold Lox.argument
  generalize arguments[index]? = found at isThere ⊢
  generalize arguments'[index]? = found' at isThere ⊢
  cases isThere with
  | none => exact .fail _
  | some isCell => exact .pure isCell

/-- Host functions know the same in both runs. -/
theorem hostView_eq (areCells : List.Forall₂ (operations.cells left right) arguments arguments') :
    HostView.of arguments = HostView.of arguments' := by
  refine HostView.of_eq areCells (fun isCell => ?_) operations.cells_id fun isCell isOther => ?_
  · rw [operations.cells_value isCell]
  · rw [operations.cells_value isCell, operations.cells_value isOther]

/-- What a host function does is in step if the functions that it calls are. -/
theorem hostAction (action : HostAction) {invoke invoke' : Cell → List Cell → Exec Cell}
    (invoked : ∀ left right callee callee' arguments arguments',
      operations.cells left right callee callee' →
      List.Forall₂ (operations.cells left right) arguments arguments' →
      operations.InStep left right operations.cells (invoke callee arguments)
        (invoke' callee' arguments'))
    (areCells : List.Forall₂ (operations.cells left right) arguments arguments') :
    operations.InStep left right operations.cells (action.run invoke arguments)
      (action.run invoke' arguments') := by
  induction action generalizing left right arguments arguments' with
  | answer place => exact argument areCells place
  | fail error => exact .fail _
  | create literal next ih =>
    apply (operations.newCell left right _).bind
    intro after after' cell cell' later isCell
    exact ih (forall₂_concat (forall₂_later later areCells) isCell)
  | print line next ih =>
    apply (operations.write left right line).bind
    intro after after' _ _ later _
    exact ih (forall₂_later later areCells)
  | call callee given next ih =>
    have areNamed := cellsAt?_rel areCells (callee :: given)
    unfold HostAction.run
    generalize cellsAt? arguments (callee :: given) = cells at areNamed ⊢
    generalize cellsAt? arguments' (callee :: given) = cells' at areNamed ⊢
    cases areNamed with
    | none => exact .fail _
    | some areNamed =>
      cases areNamed with
      | nil => exact .fail _
      | cons isCallee areGiven =>
        apply (invoked left right _ _ _ _ isCallee areGiven).bind
        intro after after' cell cell' later isCell
        have known := forall₂_concat (forall₂_later later areCells) isCell
        rw [hostView_eq known]
        exact ih _ known

/-- The functions of the host are the same, however many calls may still nest. -/
theorem hostFunction_eq (operations : Operations) (calls calls' key : Nat) :
    (operations.first.allowing calls).hostFunction key =
      (operations.second.allowing calls').hostFunction key := by
  change operations.first.host[key]?.getD .absent = operations.second.host[key]?.getD .absent
  rw [operations.host_eq]

/-- Parameters are bound in both runs or there is an argument too few in both. -/
theorem bindParameters (parameters : List Token)
    (areCells : List.Forall₂ (operations.cells left right) arguments arguments')
    {bindings bindings' : Bindings} (bound : operations.bound left right bindings bindings') :
    Option.Rel (operations.bound left right) (Lox.bindParameters parameters arguments bindings)
      (Lox.bindParameters parameters arguments' bindings') := by
  induction parameters generalizing arguments arguments' bindings bindings' with
  | nil => exact .some bound
  | cons parameter parameters ih =>
    cases areCells with
    | nil => exact .none
    | cons isCell areCells => exact ih areCells (operations.bound_put parameter.text bound isCell)

/-- A trace line goes on in step, however many calls may still nest. -/
theorem trace_allowing (left right : State) (calls level : Nat) (line : Text) :
    operations.InStep left right anyResults
      ((operations.first.allowing calls).trace level line)
      ((operations.second.allowing calls).trace level line) :=
  operations.trace left right level line

/-- Everything that gives a cell with some fuel is in step. -/
structure Evaluated (operations : Operations) (fuel : Nat) : Prop where
  evaluate : ∀ left right calls node,
    operations.InStep left right operations.cells
      (evaluate fuel (operations.first.allowing calls) node)
      (evaluate fuel (operations.second.allowing calls) node)
  callChecked : ∀ left right calls line callee callee' arguments arguments',
    operations.cells left right callee callee' →
    List.Forall₂ (operations.cells left right) arguments arguments' →
    operations.InStep left right operations.cells
      (callChecked fuel (operations.first.allowing calls) line callee arguments)
      (callChecked fuel (operations.second.allowing calls) line callee' arguments')
  call : ∀ left right calls line callee callee' arguments arguments',
    operations.cells left right callee callee' →
    List.Forall₂ (operations.cells left right) arguments arguments' →
    operations.InStep left right operations.cells
      (call fuel (operations.first.allowing calls) line callee arguments)
      (call fuel (operations.second.allowing calls) line callee' arguments')

/-- With no fuel there is nothing to be in step. -/
theorem evaluated_zero (operations : Operations) : operations.Evaluated 0 where
  evaluate _ _ _ _ := .unfinished
  callChecked _ _ _ _ _ _ _ _ _ _ := .unfinished
  call _ _ _ _ _ _ _ _ _ _ := .unfinished

namespace Evaluated

variable {fuel : Nat}

/-- Expressions are in step with more fuel. -/
theorem evaluate_succ (evaluated : operations.Evaluated fuel) (left right : State) (calls : Nat)
    (node : Node) :
    operations.InStep left right operations.cells
      (Lox.evaluate (fuel + 1) (operations.first.allowing calls) node)
      (Lox.evaluate (fuel + 1) (operations.second.allowing calls) node) := by
  cases node with
  | literal value => exact operations.newCell left right _
  | grouping inner => exact evaluated.evaluate left right calls inner
  | «variable» name => exact operations.lookup left right name
  | assign name value =>
    apply (evaluated.evaluate left right calls value).bind
    intro after after' cell cell' _ isCell
    apply (operations.assign after after' name cell cell' isCell).bind
    intro last last' _ _ later _
    exact .pure (operations.cells_later later isCell)
  | unary operator operand =>
    apply (evaluated.evaluate left right calls operand).bind
    intro after after' cell cell' _ isCell
    rw [operations.cells_value isCell]
    exact applyUnary operator cell'.value
  | logical first operator second =>
    apply (evaluated.evaluate left right calls first).bind
    intro after after' cell cell' _ isCell
    rw [operations.cells_value isCell]
    split
    · exact .pure isCell
    · exact evaluated.evaluate after after' calls second
  | binary first operator second =>
    apply (evaluated.evaluate left right calls first).bind
    intro after after' cell cell' _ isCell
    apply (evaluated.evaluate after after' calls second).bind
    intro last last' other other' _ isOther
    rw [operations.cells_value isCell, operations.cells_value isOther]
    exact applyBinary operator cell'.value other'.value
  | call callee paren arguments =>
    apply (evaluated.evaluate left right calls callee).bind
    intro after after' cell cell' _ isCell
    apply (InStep.mapM (fun left right node => evaluated.evaluate left right calls node) after
      after').bind
    intro last last' cells cells' later areCells
    exact evaluated.callChecked last last' calls paren.line cell cell' cells cells'
      (operations.cells_later later isCell) areCells
  | _ => exact .fail _

/-- Calls are in step with more fuel. -/
theorem callChecked_succ (evaluated : operations.Evaluated fuel) (left right : State)
    (calls : Nat) (line : Int) (callee callee' : Cell)
    (isCallee : operations.cells left right callee callee')
    (areCells : List.Forall₂ (operations.cells left right) arguments arguments') :
    operations.InStep left right operations.cells
      (Lox.callChecked (fuel + 1) (operations.first.allowing calls) line callee arguments)
      (Lox.callChecked (fuel + 1) (operations.second.allowing calls) line callee' arguments') := by
  unfold Lox.callChecked
  rw [operations.cells_value isCallee, areCells.length_eq]
  split
  · exact .fail _
  · split
    · apply (trace_allowing left right calls 2 _).bind
      intro after after' _ _ later _
      exact evaluated.call after after' calls line callee callee' arguments arguments'
        (operations.cells_later later isCallee) (forall₂_later later areCells)
    · exact .fail _

/-- Calls of functions are in step with more fuel, if the statements of a function are so in the scope
of the call. -/
theorem call_succ (evaluated : operations.Evaluated fuel)
    (inCall : ∀ left right bindings bindings' calls (body : Program),
      operations.bound left right bindings bindings' →
      operations.InStep left right anyResults
        (Exec.inScope globals bindings
          (body.forM (Lox.execute fuel (operations.first.allowing calls))))
        (Exec.inScope globals bindings'
          (body.forM (Lox.execute fuel (operations.second.allowing calls)))))
    (left right : State) (calls : Nat) (line : Int) (callee callee' : Cell)
    (isCallee : operations.cells left right callee callee')
    (areCells : List.Forall₂ (operations.cells left right) arguments arguments') :
    operations.InStep left right operations.cells
      (Lox.call (fuel + 1) (operations.first.allowing calls) line callee arguments)
      (Lox.call (fuel + 1) (operations.second.allowing calls) line callee' arguments') := by
  unfold Lox.call
  rw [operations.cells_value isCallee]
  split
  · next declaration _ =>
    cases calls with
    | zero => exact .fail _
    | succ calls =>
      have bound := bindParameters declaration.parameters areCells (operations.bound_nil left right)
      generalize Lox.bindParameters declaration.parameters arguments [] = bindings at bound ⊢
      generalize Lox.bindParameters declaration.parameters arguments' [] = bindings' at bound ⊢
      cases bound with
      | none => exact .fail _
      | some areBound =>
        exact (inCall left right _ _ calls declaration.body areBound).bind
          fun after after' _ _ _ _ => operations.nilCell after after'
  · have sameTime : (operations.first.allowing calls).now = (operations.second.allowing calls).now :=
      operations.now_eq
    rw [sameTime]
    exact operations.newCell left right _
  · unfold HostFunction.run
    rw [hostFunction_eq operations calls calls, hostView_eq areCells]
    exact hostAction _ (fun left right => evaluated.call left right calls line) areCells
  · exact .fail _

/-- What gives a cell is in step with more fuel, if the statements of a function are so in the scope
of the call. -/
theorem succ (evaluated : operations.Evaluated fuel)
    (inCall : ∀ left right bindings bindings' calls (body : Program),
      operations.bound left right bindings bindings' →
      operations.InStep left right anyResults
        (Exec.inScope globals bindings
          (body.forM (Lox.execute fuel (operations.first.allowing calls))))
        (Exec.inScope globals bindings'
          (body.forM (Lox.execute fuel (operations.second.allowing calls))))) :
    operations.Evaluated (fuel + 1) where
  evaluate := evaluated.evaluate_succ
  callChecked left right calls line callee callee' _ _ isCallee areCells :=
    evaluated.callChecked_succ left right calls line callee callee' isCallee areCells
  call left right calls line callee callee' _ _ isCallee areCells :=
    evaluated.call_succ inCall left right calls line callee callee' isCallee areCells

end Evaluated

/-- Definitions are in step as well. -/
def Defines (operations : Operations) : Prop :=
  ∀ left right name cell cell', operations.cells left right cell cell' →
    operations.InStep left right anyResults (Exec.define name cell) (Exec.define name cell')

/-- A statement can be in step: definitions are, or it declares nothing itself. -/
def Admits (operations : Operations) (node : Node) : Prop :=
  operations.Defines ∨ node.Undeclaring

/-- The initial value of a variable is in step. -/
theorem Evaluated.initializer {fuel : Nat} (evaluated : operations.Evaluated fuel)
    (left right : State) (calls : Nat) (initializer : Node) :
    operations.InStep left right operations.cells
      (match initializer with
        | .null => pure Cell.nil
        | value => Lox.evaluate fuel (operations.first.allowing calls) value)
      (match initializer with
        | .null => pure Cell.nil
        | value => Lox.evaluate fuel (operations.second.allowing calls) value) := by
  cases initializer with
  | null => exact operations.nilCell left right
  | _ => exact evaluated.evaluate left right calls _

/-- Admitted statements are in step with more fuel, if blocks and admitted statements are so. -/
theorem Evaluated.execute_succ {fuel : Nat} (evaluated : operations.Evaluated fuel)
    (inBlock : ∀ left right calls (statements : Program),
      operations.InStep left right anyResults
        (Exec.current >>= fun scope =>
          Exec.inScope scope [] (statements.forM (execute fuel (operations.first.allowing calls))))
        (Exec.current >>= fun scope =>
          Exec.inScope scope [] (statements.forM (execute fuel (operations.second.allowing calls)))))
    (executed : ∀ left right calls node, operations.Admits node →
      operations.InStep left right anyResults (execute fuel (operations.first.allowing calls) node)
        (execute fuel (operations.second.allowing calls) node))
    (left right : State) (calls : Nat) (node : Node) (admits : operations.Admits node) :
    operations.InStep left right anyResults
      (execute (fuel + 1) (operations.first.allowing calls) node)
      (execute (fuel + 1) (operations.second.allowing calls) node) := by
  cases node with
  | expression value =>
    exact (evaluated.evaluate left right calls value).bind fun _ _ _ _ _ _ => .pure trivial
  | print value =>
    apply (evaluated.evaluate left right calls value).bind
    intro after after' cell cell' _ isCell
    rw [operations.cells_value isCell]
    exact operations.write after after' _
  | var name initializer =>
    have defines : operations.Defines := admits.resolve_right id
    apply (evaluated.initializer left right calls initializer).bind
    intro after after' cell cell' _ isCell
    rw [operations.cells_value isCell]
    apply (defines after after' name.text cell cell' isCell).bind
    intro last last' _ _ _ _
    exact trace_allowing last last' calls 2 _
  | block statements => exact inBlock left right calls statements
  | conditional condition thenBranch elseBranch =>
    apply (evaluated.evaluate left right calls condition).bind
    intro after after' cell cell' _ isCell
    rw [operations.cells_value isCell]
    apply (trace_allowing after after' calls 3 _).bind
    intro last last' _ _ _ _
    split
    · exact executed last last' calls thenBranch (admits.imp id fun parts => parts.1)
    · have admitsElse : operations.Admits elseBranch := admits.imp id fun parts => parts.2
      cases elseBranch with
      | null => exact .pure trivial
      | _ => exact executed last last' calls _ admitsElse
  | loop condition body =>
    apply (evaluated.evaluate left right calls condition).bind
    intro after after' cell cell' _ isCell
    rw [operations.cells_value isCell]
    apply (trace_allowing after after' calls 3 _).bind
    intro last last' _ _ _ _
    split
    · exact (executed last last' calls body admits).bind fun next next' _ _ _ _ =>
        executed next next' calls (.loop condition body) admits
    · exact .pure trivial
  | function name parameters body =>
    have defines : operations.Defines := admits.resolve_right id
    apply (operations.newCell left right _).bind
    intro after after' cell cell' _ isCell
    apply (defines after after' name.text cell cell' isCell).bind
    intro last last' _ _ _ _
    exact trace_allowing last last' calls 2 _
  | _ => exact .fail _

end Operations

end Lox
