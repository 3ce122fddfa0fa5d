import Lox.Proofs.Execution.Footprint
import Lox.Proofs.Execution.Operations
import Lox.Proofs.Text.Characters

/-!
# Runs that lag behind

A run with less fuel, or with fewer calls that may nest, lags behind one with more. It has run out of
fuel, or it ends in the same way. With fewer calls it may also have stopped for want of them, and then
the other run has printed what it has, and goes on from there.

Lagging goes through sequences of steps, because what comes later takes back nothing that was printed.
-/

namespace Lox

open Footprint

/-- The footprint that confines nothing. -/
def boundless : Footprint where
  leaves _ := True
  seen _ := True
  count := 0
  seen_globals := trivial
  seen_new _ _ := trivial

/-- Every value is within all leaves. -/
theorem within_boundless (value : Value) : value.Within boundless.leaves := by
  cases value with
  | function declaration => exact (Node.areWithin_iff_leaves _).mpr fun _ _ => trivial
  | _ => trivial

/-- A token for a line that a call is reported at. -/
def anyParen (line : Int) : Token :=
  ⟨.rightParen, [], line⟩

/-- Nothing is confined in any state. -/
theorem confines_boundless (state : State) : boundless.Confines state where
  count_le := Nat.zero_le _
  current := trivial
  enclosing _ _ _ _ := trivial
  value _ _ _ cell _ := within_boundless cell.value

variable {α β γ : Type}

/-- A step takes back nothing that was printed. -/
def Exec.Grows (step : Exec α) : Prop :=
  ∀ state, ∀ after ∈ (step state).last, state.output.toList <+: after.output.toList

/-- A step with any footprint takes back nothing. -/
theorem Footprint.Steps.grows {results : α → Prop} {step : Exec α}
    (confined : boundless.Steps results step) : step.Grows := fun state _ isAfter =>
  ((confined state (confines_boundless state)).of_mem_last isAfter).2.output

/-- Steps in sequence take back nothing if none of them does. -/
theorem Exec.Grows.bind {step : Exec α} {next : α → Exec β} (first : step.Grows)
    (follow : ∀ value, (next value).Grows) : (step >>= next).Grows := by
  intro state after isAfter
  obtain ⟨isAfter, -⟩ | ⟨value, middle, isDone, isAfter⟩ := Exec.cases_last_bind isAfter
  · exact first state after isAfter
  · exact (first state middle (Outcome.mem_last isDone)).trans (follow value middle after isAfter)

namespace Exec

/-- An outcome lags behind another one. Only in deeper runs may there be more to come after a call that
was one too many. -/
inductive Lag (deeper : Prop) : Outcome α → Outcome α → Prop
  | unfinished {outcome : Outcome α} : Lag deeper .unfinished outcome
  | same (outcome : Outcome α) : Lag deeper outcome outcome
  | overflow {line : Int} {after : State} {outcome : Outcome α} :
      deeper → (∀ last ∈ outcome.last, after.output.toList <+: last.output.toList) →
      Lag deeper (.failed (.runtime ⟨.stackOverflow, line⟩) after) outcome

/-- A step lags behind another one from every state, and the other takes back nothing. -/
structure Lags (deeper : Prop) (step step' : Exec α) : Prop where
  grows : step'.Grows
  lag : ∀ state, Lag deeper (step state) (step' state)

namespace Lags

variable {deeper : Prop} {step step' : Exec α}

/-- A step that takes back nothing lags behind itself. -/
theorem refl {results : α → Prop} (confined : boundless.Steps results step) :
    Lags deeper step step :=
  ⟨confined.grows, fun state => .same (step state)⟩

/-- No fuel lags behind everything. -/
theorem unfinished {results : α → Prop} (confined : boundless.Steps results step) :
    Lags deeper Exec.unfinished step :=
  ⟨confined.grows, fun _ => .unfinished⟩

/-- A value that is there already. -/
theorem pure (value : α) : Lags deeper (Pure.pure value) (Pure.pure value) :=
  have confined : boundless.Steps anyResult (Pure.pure value) := .pure trivial
  refl confined

/-- A runtime error that has another cause than a want of calls. -/
theorem failAt {cause : Cause} (line : Int) (other : cause ≠ .stackOverflow) :
    Lags deeper (Exec.failAt line cause : Exec α) (Exec.failAt line cause) :=
  have confined : boundless.Steps anyResult (Exec.failAt line cause : Exec α) := .failAt other
  refl confined

/-- A defect. -/
theorem failDefect (defect : Defect) :
    Lags deeper (Exec.failDefect defect : Exec α) (Exec.failDefect defect) :=
  have confined : boundless.Steps anyResult (Exec.failDefect defect : Exec α) := .failDefect defect
  refl confined

/-- Steps in sequence lag behind others if each of them does. -/
theorem bind {next next' : α → Exec β} (first : Lags deeper step step')
    (follow : ∀ value, Lags deeper (next value) (next' value)) :
    Lags deeper (step >>= next) (step' >>= next') := by
  refine ⟨first.grows.bind fun value => (follow value).grows, fun state => ?_⟩
  change Lag deeper (andThen step next state) (andThen step' next' state)
  have lag := first.lag state
  unfold andThen
  generalize step state = outcome at lag ⊢
  generalize step' state = outcome' at lag ⊢
  cases lag with
  | unfinished => exact .unfinished
  | same =>
    cases outcome with
    | done value after => exact (follow value).lag after
    | failed fault after => exact .same _
    | unfinished => exact .unfinished
  | overflow isDeeper grows =>
    refine .overflow isDeeper fun last isLast => ?_
    cases outcome' with
    | done value middle =>
      exact (grows middle (List.mem_singleton_self middle)).trans
        ((follow value).grows middle last isLast)
    | failed fault middle => exact grows last isLast
    | unfinished => exact absurd isLast List.not_mem_nil

/-- Statements one after another lag behind others if each of them does. -/
theorem forM {items : List γ} {run run' : γ → Exec Unit}
    (each : ∀ item, Lags deeper (run item) (run' item)) :
    Lags deeper (items.forM run) (items.forM run') := by
  induction items with
  | nil => exact pure ()
  | cons item items ih => exact (each item).bind fun _ => ih

/-- Expressions one after another lag behind others if each of them does. -/
theorem mapM {items : List γ} {run run' : γ → Exec Cell}
    (each : ∀ item, Lags deeper (run item) (run' item)) :
    Lags deeper (items.mapM run) (items.mapM run') := by
  induction items with
  | nil => exact pure []
  | cons item items ih =>
    rw [List.mapM_cons, List.mapM_cons]
    exact (each item).bind fun _ => ih.bind fun _ => pure _

/-- What a host function does lags behind if the functions that it calls do. -/
theorem hostAction (action : HostAction) {invoke invoke' : Cell → List Cell → Exec Cell}
    (invoked : ∀ callee arguments, Lags deeper (invoke callee arguments) (invoke' callee arguments))
    (known : List Cell) : Lags deeper (action.run invoke known) (action.run invoke' known) := by
  induction action generalizing known with
  | answer place => exact .refl (Steps.argument (fun cell _ => within_boundless cell.value) place)
  | fail error =>
    cases error with
    | failure text => exact .failAt _ nofun
    | _ => exact .failDefect _
  | create literal next ih =>
    exact (Lags.refl (Steps.newCell (within_boundless _))).bind fun cell => ih (known ++ [cell])
  | print line next ih => exact (Lags.refl (Steps.write line)).bind fun _ => ih known
  | call callee given next ih =>
    unfold HostAction.run
    split
    · exact (invoked _ _).bind fun cell => ih _ (known ++ [cell])
    · exact .failDefect _

/-- Leaving a scope takes back nothing that was printed. -/
theorem last_inScope {enclosing : ScopeId} {bindings : Bindings} {body : Exec α} {state after : State}
    (isAfter : after ∈ (inScope enclosing bindings body state).last) :
    ∃ last ∈ (body (enter enclosing bindings state)).last,
      after = leave state.current state.store.size last := by
  unfold inScope at isAfter
  dsimp only at isAfter
  generalize body (enter enclosing bindings state) = outcome at isAfter ⊢
  cases outcome with
  | done value last | failed fault last =>
    exact ⟨last, List.mem_singleton_self last, List.mem_singleton.mp isAfter⟩
  | unfinished => exact absurd isAfter List.not_mem_nil

/-- A step in a new scope lags behind another if it does so inside. -/
theorem inScope {enclosing : ScopeId} {bindings : Bindings} (inside : Lags deeper step step') :
    Lags deeper (Exec.inScope enclosing bindings step) (Exec.inScope enclosing bindings step') := by
  refine ⟨fun state after isAfter => ?_, fun state => ?_⟩
  · obtain ⟨last, isLast, rfl⟩ := last_inScope isAfter
    exact inside.grows (enter enclosing bindings state) last isLast
  · have lag := inside.lag (enter enclosing bindings state)
    have ends (last : State) (isLast : last ∈ (Exec.inScope enclosing bindings step' state).last) :=
      last_inScope isLast
    change Lag deeper (Exec.inScope enclosing bindings step state) _
    unfold Exec.inScope at ends ⊢
    dsimp only at ends ⊢
    generalize step (enter enclosing bindings state) = outcome at lag ⊢
    generalize step' (enter enclosing bindings state) = outcome' at lag ends ⊢
    cases lag with
    | unfinished => exact .unfinished
    | same => exact .same _
    | overflow isDeeper grows =>
      refine .overflow isDeeper fun last isLast => ?_
      obtain ⟨inner, isInner, rfl⟩ := ends last isLast
      exact grows inner isInner

/-- What is done before a fault goes on takes back nothing, if it only prints. -/
theorem prefix_onFault {body : Exec α} {more : Fault → Exec Unit} (grows : ∀ fault, (more fault).Grows)
    {state last : State} (isLast : last ∈ (Exec.onFault body more state).last) :
    ∃ middle ∈ (body state).last, middle.output.toList <+: last.output.toList := by
  unfold Exec.onFault at isLast
  generalize body state = outcome at isLast ⊢
  cases outcome with
  | done value middle | unfinished => exact ⟨last, isLast, List.prefix_refl _⟩
  | failed fault middle =>
    refine ⟨middle, List.mem_singleton_self middle, ?_⟩
    have further := grows fault middle
    dsimp only at isLast
    generalize more fault middle = outcome at further isLast
    cases outcome with
    | done _ after | failed _ after => exact further last isLast
    | unfinished => exact absurd isLast List.not_mem_nil

/-- Something more before a fault goes on lags behind the same, if what is done before an overflow goes on
ends normally and prints nothing. -/
theorem onFault {more : Fault → Exec Unit} (inside : Lags deeper step step')
    (grows : ∀ fault, (more fault).Grows)
    (quiet : ∀ line state, ∃ after, more (.runtime ⟨.stackOverflow, line⟩) state = .done () after ∧
      after.output = state.output) :
    Lags deeper (Exec.onFault step more) (Exec.onFault step' more) := by
  refine ⟨fun state last isLast => ?_, fun state => ?_⟩
  · obtain ⟨middle, isMiddle, further⟩ := prefix_onFault grows isLast
    exact (inside.grows state middle isMiddle).trans further
  · have lag := inside.lag state
    have ends (last : State) (isLast : last ∈ (Exec.onFault step' more state).last) :=
      prefix_onFault grows isLast
    change Lag deeper (Exec.onFault step more state) _
    unfold Exec.onFault at ends ⊢
    generalize step state = outcome at lag ⊢
    generalize step' state = outcome' at lag ends ⊢
    cases lag with
    | unfinished => exact .unfinished
    | same => exact .same _
    | @overflow line after _ isDeeper goesOn =>
      obtain ⟨traced, isTraced, sameOutput⟩ := quiet line after
      dsimp only
      rw [isTraced]
      refine .overflow isDeeper fun last isLast => ?_
      obtain ⟨middle, isMiddle, further⟩ := ends last isLast
      rw [sameOutput]
      exact (goesOn middle isMiddle).trans further

end Lags

end Exec

open Exec

/-- The numbers of calls that may nest in two runs: as many, or no fewer in the deeper one. -/
def Allows (deeper : Prop) (calls calls' : Nat) : Prop :=
  calls = calls' ∨ deeper ∧ calls ≤ calls'

/-- Everything that runs with some fuel lags behind what it does with more. -/
structure Lagging (deeper : Prop) (fuel fuel' : Nat) : Prop where
  execute : ∀ (context : Context) {calls calls'}, Allows deeper calls calls' → ∀ node,
    Lags deeper (execute fuel (context.allowing calls) node)
      (execute fuel' (context.allowing calls') node)
  evaluate : ∀ (context : Context) {calls calls'}, Allows deeper calls calls' → ∀ node,
    Lags deeper (evaluate fuel (context.allowing calls) node)
      (evaluate fuel' (context.allowing calls') node)
  callChecked : ∀ (context : Context) {calls calls'}, Allows deeper calls calls' → ∀ line callee arguments,
    Lags deeper (callChecked fuel (context.allowing calls) line callee arguments)
      (callChecked fuel' (context.allowing calls') line callee arguments)
  call : ∀ (context : Context) {calls calls'}, Allows deeper calls calls' → ∀ line callee arguments,
    Lags deeper (call fuel (context.allowing calls) line callee arguments)
      (call fuel' (context.allowing calls') line callee arguments)

namespace Lagging

variable {deeper : Prop} {fuel fuel' calls calls' : Nat}

/-- A line of a trace does not depend on how many calls may nest. -/
theorem trace (context : Context) (level : Nat) (line : Text) :
    Lags deeper ((context.allowing calls).trace level line)
      ((context.allowing calls').trace level line) :=
  .refl (Steps.trace context level line)

/-- Statements one after another lag. -/
theorem statements (lagging : Lagging deeper fuel fuel') (context : Context)
    (allows : Allows deeper calls calls') (statements : Program) :
    Lags deeper (statements.forM (Lox.execute fuel (context.allowing calls)))
      (statements.forM (Lox.execute fuel' (context.allowing calls'))) :=
  .forM (lagging.execute context allows)

/-- A name that is bound and traced. -/
theorem declare (context : Context) (name : Token) (cell : Cell) (line : Text) :
    Lags deeper (do Exec.define name.text cell; (context.allowing calls).trace 2 line)
      (do Exec.define name.text cell; (context.allowing calls').trace 2 line) :=
  .bind (.refl (Steps.define trivial (within_boundless _))) fun _ => trace context 2 line

/-- Statements lag with more fuel. -/
theorem execute_succ (lagging : Lagging deeper fuel fuel') (context : Context)
    (allows : Allows deeper calls calls') (node : Node) :
    Lags deeper (Lox.execute (fuel + 1) (context.allowing calls) node)
      (Lox.execute (fuel' + 1) (context.allowing calls') node) := by
  cases node with
  | expression value => exact (lagging.evaluate context allows value).bind fun _ => .pure ()
  | print value =>
    exact (lagging.evaluate context allows value).bind fun _ => .refl (Steps.write _)
  | var name initializer =>
    refine Lags.bind (α := Cell) ?_ fun cell => declare context name cell _
    cases initializer with
    | null => exact .pure _
    | _ => exact lagging.evaluate context allows _
  | block statements =>
    exact (Lags.refl Steps.current).bind fun _ => .inScope (lagging.statements context allows statements)
  | conditional condition thenBranch elseBranch =>
    refine (lagging.evaluate context allows condition).bind fun cell =>
      (trace context 3 _).bind fun _ => ?_
    split
    · exact lagging.execute context allows thenBranch
    · cases elseBranch with
      | null => exact .pure ()
      | _ => exact lagging.execute context allows _
  | loop condition body =>
    refine (lagging.evaluate context allows condition).bind fun cell =>
      (trace context 3 _).bind fun _ => ?_
    split
    · exact (lagging.execute context allows body).bind fun _ => lagging.execute context allows _
    · exact .pure ()
  | function name parameters body =>
    exact (Lags.refl (Steps.newCell (within_boundless _))).bind fun cell =>
      declare context name cell _
  | _ => exact .failDefect _

/-- Expressions lag with more fuel. -/
theorem evaluate_succ (lagging : Lagging deeper fuel fuel') (context : Context)
    (allows : Allows deeper calls calls') (node : Node) :
    Lags deeper (Lox.evaluate (fuel + 1) (context.allowing calls) node)
      (Lox.evaluate (fuel' + 1) (context.allowing calls') node) := by
  cases node with
  | literal value => exact .refl (Steps.newCell (within_boundless _))
  | grouping inner => exact lagging.evaluate context allows inner
  | «variable» name => exact .refl (Steps.lookup name)
  | assign name value =>
    exact (lagging.evaluate context allows value).bind fun cell =>
      (Lags.refl (Steps.assign trivial (within_boundless _))).bind fun _ => .pure cell
  | unary operator operand =>
    exact (lagging.evaluate context allows operand).bind fun _ => .refl (Steps.applyUnary operator _)
  | logical left operator right =>
    refine (lagging.evaluate context allows left).bind fun cell => ?_
    split
    · exact .pure cell
    · exact lagging.evaluate context allows right
  | binary left operator right =>
    exact (lagging.evaluate context allows left).bind fun _ =>
      (lagging.evaluate context allows right).bind fun _ => .refl (Steps.applyBinary operator _ _)
  | call callee paren arguments =>
    exact (lagging.evaluate context allows callee).bind fun _ =>
      (Lags.mapM (lagging.evaluate context allows)).bind fun _ =>
        lagging.callChecked context allows paren.line _ _
  | _ => exact .failDefect _

/-- Checked calls lag with more fuel. -/
theorem callChecked_succ (lagging : Lagging deeper fuel fuel') (context : Context)
    (allows : Allows deeper calls calls') (line : Int) (callee : Cell) (arguments : List Cell) :
    Lags deeper (Lox.callChecked (fuel + 1) (context.allowing calls) line callee arguments)
      (Lox.callChecked (fuel' + 1) (context.allowing calls') line callee arguments) := by
  unfold Lox.callChecked
  split
  · exact .failAt _ nofun
  · split
    · exact (trace context 2 _).bind fun _ => lagging.call context allows line callee arguments
    · exact .failAt _ nofun

/-- Calls lag with more fuel. A call that is one too many fails where it stands, and in the deeper run it
is made. -/
theorem call_succ (lagging : Lagging deeper fuel fuel') (context : Context)
    (allows : Allows deeper calls calls') (line : Int) (callee : Cell) (arguments : List Cell) :
    Lags deeper (Lox.call (fuel + 1) (context.allowing calls) line callee arguments)
      (Lox.call (fuel' + 1) (context.allowing calls') line callee arguments) := by
  have grows := ((boundless.confined (fuel' + 1)).call (context.allowing calls') (anyParen line) callee
    arguments trivial (within_boundless _) fun cell _ => within_boundless cell.value).grows
  unfold Lox.call at grows ⊢
  split
  · next declaration isFunction =>
    rw [isFunction] at grows
    cases calls with
    | zero =>
      obtain rfl | ⟨isDeeper, -⟩ := allows
      · exact ⟨grows, fun state => .same _⟩
      · exact ⟨grows, fun state => .overflow isDeeper (grows state)⟩
    | succ calls =>
      obtain ⟨calls', rfl⟩ : ∃ fewer, calls' = fewer + 1 :=
        Nat.exists_eq_succ_of_ne_zero (by obtain rfl | ⟨-, isMore⟩ := allows <;> omega)
      have allows' : Allows deeper calls calls' :=
        allows.imp Nat.succ.inj fun both => ⟨both.1, Nat.le_of_succ_le_succ both.2⟩
      dsimp only [Context.allowing]
      split
      · exact .failDefect _
      · exact (Lags.inScope (lagging.statements context allows' declaration.body)).bind fun _ =>
          .pure _
  · exact .refl (Steps.newNumber _)
  · exact .hostAction _ (lagging.call context allows line) arguments
  · exact .failDefect _

end Lagging

/-- Everything lags behind what it does with more fuel. -/
theorem lagging (deeper : Prop) {fuel fuel' : Nat} (enough : fuel ≤ fuel') :
    Lagging deeper fuel fuel' := by
  induction fuel generalizing fuel' with
  | zero =>
    have all (node : Node) : node.Within boundless.leaves := (Node.within_iff node).mpr fun _ _ => trivial
    have confined := boundless.confined fuel'
    exact ⟨fun context _ _ _ node => .unfinished (confined.execute _ node (all node)),
      fun context _ _ _ node => .unfinished (confined.evaluate _ node (all node)),
      fun context _ _ _ line callee arguments => .unfinished (confined.callChecked _ (anyParen line)
        callee arguments trivial (within_boundless _) fun cell _ => within_boundless cell.value),
      fun context _ _ _ line callee arguments => .unfinished (confined.call _ (anyParen line) callee
        arguments trivial (within_boundless _) fun cell _ => within_boundless cell.value)⟩
  | succ fuel ih =>
    obtain ⟨fuel', rfl⟩ : ∃ less, fuel' = less + 1 := Nat.exists_eq_succ_of_ne_zero (by omega)
    have less := ih (Nat.le_of_succ_le_succ enough)
    exact ⟨fun context _ _ => less.execute_succ context, fun context _ _ => less.evaluate_succ context,
      fun context _ _ => less.callChecked_succ context, fun context _ _ => less.call_succ context⟩

/-- That calls nest too deep is always traced, and nothing is printed. -/
theorem trace_overflow (context : Context) (line : Int) (state : State) :
    ∃ after, context.trace 1
        (("runtime error: " : Text) ++ (Fault.runtime ⟨.stackOverflow, line⟩).message) state = .done () after ∧
      after.output = state.output := by
  have onlyChars : Text.OnlyChars
      (("runtime error: " : Text) ++ (Fault.runtime ⟨.stackOverflow, line⟩).message) := by
    simp [Fault.message, RuntimeError.message, Cause.message]
  have noError : context.traceError?
      (("runtime error: " : Text) ++ (Fault.runtime ⟨.stackOverflow, line⟩).message) = none := by
    unfold Context.traceError?
    rw [Text.storageError?_eq_none_iff.mpr onlyChars, ite_self]
  unfold Context.trace
  rw [noError]
  split
  · exact ⟨_, rfl, rfl⟩
  · exact ⟨state, rfl, rfl⟩

/-- A program lags behind itself with more fuel. -/
theorem Program.lags_run (program : Program) (context : Context) {deeper : Prop}
    {fuel fuel' calls calls' : Nat} (enough : fuel ≤ fuel') (allows : Allows deeper calls calls') :
    Lags deeper (program.run fuel (context.allowing calls))
      (program.run fuel' (context.allowing calls')) :=
  (Lagging.trace context 1 _).bind fun _ =>
    (Lags.onFault ((lagging deeper enough).statements context allows program)
      (fun _ => (Steps.trace context 1 _).grows) (trace_overflow context)).bind
        fun _ => Lagging.trace context 1 _

end Lox
