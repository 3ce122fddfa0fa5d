import Lox.Proofs.Execution.Pairing

/-!
# The moments of a run

A watched step tells, besides how it ends, which states it passes through: those before and after
each single operation, and those on entering and on leaving a scope. It does so also when it runs out
of fuel. A host function is watched as well, between the things that it does and during its calls. Watching
changes nothing: what is watched ends as it would unwatched.

This is for statements about everything that happens during a run, and not in the end only.
-/

namespace Lox

variable {α β γ : Type}

/-- A step of a run that tells the states it passes through. -/
def Watched (α : Type) : Type :=
  State → List State × Outcome α

namespace Watched

/-- The step that only has a result. -/
def result (value : α) : Watched α :=
  fun state => ([], .done value state)

/-- One step after another; the second is left out when the first does not end normally. -/
def andThen (first : Watched α) (second : α → Watched β) : Watched β :=
  fun state =>
    match first state with
    | (passed, .done value after) => (passed ++ (second value after).1, (second value after).2)
    | (passed, .failed fault after) => (passed, .failed fault after)
    | (passed, .unfinished) => (passed, .unfinished)

instance : Monad Watched where
  pure := result
  bind := andThen

instance : LawfulMonad Watched :=
  LawfulMonad.mk' Watched
    (by
      intro α step
      funext state
      change andThen step (fun value => result (id value)) state = step state
      unfold andThen
      split <;> simp_all [result])
    (fun _ _ => rfl)
    (by
      intro α β γ first second third
      funext state
      change andThen (andThen first second) third state =
        andThen first (fun value => andThen (second value) third) state
      unfold andThen
      rcases first state with ⟨passed, _ | _ | _⟩
      · next value after =>
        dsimp only
        rcases second value after with ⟨passed', _ | _ | _⟩ <;> simp
      · rfl
      · rfl)

/-- A single operation, between two moments. -/
def single (step : Exec α) : Watched α :=
  fun state => (state :: (step state).last, step state)

/-- The step that has run out of fuel. -/
def unfinished : Watched α :=
  fun _ => ([], .unfinished)

/-- Runs a step in a new scope, which is gone afterwards. -/
def inScope (enclosing : ScopeId) (bindings : Bindings) (body : Watched α) : Watched α :=
  fun state =>
    let inside := body (Exec.enter enclosing bindings state)
    let outcome := Exec.inScope enclosing bindings (fun state => (body state).2) state
    (Exec.enter enclosing bindings state :: inside.1 ++ outcome.last, outcome)

/-- Runs a step in a scope that is there already. -/
def within (scope : ScopeId) (body : Watched α) : Watched α :=
  fun state =>
    let outcome := Exec.within scope (fun state => (body state).2) state
    (Exec.turn scope state :: (body (Exec.turn scope state)).1 ++ outcome.last, outcome)

/-- Does something more before a fault goes on. -/
def onFault (body : Watched α) (more : Fault → Watched Unit) : Watched α :=
  fun state =>
    let inside := body state
    let further :=
      match inside.2 with
      | .failed fault after => (more fault after).1
      | _ => []
    (inside.1 ++ further,
      Exec.onFault (fun state => (body state).2) (fun fault state => (more fault state).2) state)

/-- Does what a host function does next with the cells it knows. -/
def hostAction (invoke : Cell → List Cell → Watched Cell) : HostAction → List Cell → Watched Cell
  | .answer place, known => single (argument known place)
  | .fail error, _ => single (Exec.fail error.fault)
  | .create literal next, known => do
    let cell ← single (Exec.newCell (Value.ofLiteral literal))
    hostAction invoke next (known ++ [cell])
  | .print line next, known => do
    single (Exec.write line)
    hostAction invoke next known
  | .call callee arguments next, known =>
    match cellsAt? known (callee :: arguments) with
    | some (callee :: arguments) => do
      let cell ← invoke callee arguments
      hostAction invoke (next (HostView.of (known ++ [cell]))) (known ++ [cell])
    | _ => single (Exec.failDefect .missingArgument)

mutual

/-- Executes a statement. -/
def execute : (fuel : Nat) → Context → Node → Watched Unit
  | 0, _, _ => unfinished
  | fuel + 1, context, statement =>
    match statement with
    | .expression value => do
      let _ ← evaluate fuel context value
    | .print value => do
      let cell ← evaluate fuel context value
      single (Exec.write cell.value.shown)
    | .var name initializer => do
      let cell ← (
        match initializer with
        | .null => pure Cell.nil
        | value => evaluate fuel context value)
      single (Exec.define name.text cell)
      single (context.trace 2 (("declare " : Text) ++ name.text ++ " = " ++ cell.value.described))
    | .block statements => do
      inScope (← single Exec.current) [] (statements.forM (execute fuel context))
    | .conditional condition thenBranch elseBranch => do
      let cell ← evaluate fuel context condition
      let holds := cell.value.truthy
      single (context.trace 3 (("if condition -> " : Text) ++ shownCondition holds))
      if holds then execute fuel context thenBranch
      else
        match elseBranch with
        | .null => pure ()
        | alternative => execute fuel context alternative
    | .loop condition body => do
      let cell ← evaluate fuel context condition
      let holds := cell.value.truthy
      single (context.trace 3 (("while condition -> " : Text) ++ shownCondition holds))
      if holds then do
        execute fuel context body
        execute fuel context (.loop condition body)
      else pure ()
    | .function name parameters body => do
      let cell ← single (Exec.newCell (.function ⟨name, parameters, body⟩))
      single (Exec.define name.text cell)
      single (context.trace 2 (("define function " : Text) ++ name.text))
    | other => single (Exec.failDefect (.notStatement other.form))

/-- Evaluates an expression. -/
def evaluate : (fuel : Nat) → Context → Node → Watched Cell
  | 0, _, _ => unfinished
  | fuel + 1, context, expression =>
    match expression with
    | .literal value => single (Exec.newCell (Value.ofLiteral value))
    | .grouping inner => evaluate fuel context inner
    | .variable name => single (Exec.lookup name)
    | .assign name value => do
      let cell ← evaluate fuel context value
      single (Exec.assign name cell)
      pure cell
    | .unary operator operand => do
      let cell ← evaluate fuel context operand
      single (applyUnary operator cell.value)
    | .logical left operator right => do
      let cell ← evaluate fuel context left
      if cell.value.truthy = decide (operator.kind = .orWord) then pure cell
      else evaluate fuel context right
    | .binary left operator right => do
      let left ← evaluate fuel context left
      let right ← evaluate fuel context right
      single (applyBinary operator left.value right.value)
    | .call callee paren arguments => do
      let callee ← evaluate fuel context callee
      let arguments ← arguments.mapM (evaluate fuel context)
      callChecked fuel context paren.line callee arguments
    | other => single (Exec.failDefect (.notExpression other.form))

/-- Calls a value with arguments if it is a function that asks for so many. -/
def callChecked : (fuel : Nat) → Context → (line : Int) → Cell → List Cell → Watched Cell
  | 0, _, _, _, _ => unfinished
  | fuel + 1, context, line, callee, arguments =>
    match callee.value.arity? with
    | none => single (Exec.failAt line .notCallable)
    | some arity =>
      if arguments.length = arity then do
        single (context.trace 2
          (("call " : Text) ++ callee.value.shown ++ " with " ++ Text.ofNat arguments.length ++
            " argument(s)"))
        call fuel context line callee arguments
      else single (Exec.failAt line (.arityMismatch arity arguments.length))

/-- Calls a function with arguments. -/
def call : (fuel : Nat) → Context → (line : Int) → Cell → List Cell → Watched Cell
  | 0, _, _, _, _ => unfinished
  | fuel + 1, context, line, callee, arguments =>
    match callee.value with
    | .function declaration =>
      match context.callsLeft with
      | 0 => single (Exec.failAt line .stackOverflow)
      | callsLeft + 1 =>
        match bindParameters declaration.parameters arguments [] with
        | none => single (Exec.failDefect .missingArgument)
        | some bindings => do
          inScope globals bindings
            (declaration.body.forM (execute fuel { context with callsLeft := callsLeft }))
          pure Cell.nil
    | .native _ _ .clock => single (Exec.newCell (.number context.now))
    | .native _ _ (.hosted key) =>
      hostAction (call fuel context line) (context.hostFunction key (HostView.of arguments)) arguments
    | other => single (Exec.failDefect (.noCall other.kind))

end

/-- Runs a program statement by statement. -/
def program (fuel : Nat) (context : Context) (program : Program) : Watched Unit := do
  single (context.trace 1 (("run " : Text) ++ Text.ofNat program.length ++ " statement(s)"))
  onFault (program.forM (execute fuel context)) fun fault =>
    single (context.trace 1 (("runtime error: " : Text) ++ fault.message))
  single (context.trace 1 "run finished")

/-- How a watched step ends. -/
def outcome (step : Watched α) : Exec α :=
  fun state => (step state).2

/-- A sequence of steps ends as it does unwatched if each of them does. -/
theorem outcome_bind {first : Watched α} {second : α → Watched β} {step : Exec α}
    {next : α → Exec β} (same : outcome first = step)
    (follow : ∀ value, outcome (second value) = next value) :
    outcome (first >>= second) = step >>= next := by
  subst same
  funext state
  change (andThen first second state).2 = Exec.andThen (outcome first) next state
  unfold andThen Exec.andThen outcome
  cases first state with
  | mk passed ending =>
    cases ending with
    | done value after => exact congrFun (follow value) after
    | failed fault after => rfl
    | unfinished => rfl

/-- Statements end one after another as they do unwatched. -/
theorem outcome_forM {items : List γ} {watched : γ → Watched Unit} {run : γ → Exec Unit}
    (same : ∀ item, outcome (watched item) = run item) :
    outcome (items.forM watched) = items.forM run := by
  induction items with
  | nil => rfl
  | cons item items ih => exact outcome_bind (same item) fun _ => ih

/-- Expressions have the results that they have unwatched. -/
theorem outcome_mapM {items : List γ} {watched : γ → Watched Cell} {run : γ → Exec Cell}
    (same : ∀ item, outcome (watched item) = run item) :
    outcome (items.mapM watched) = items.mapM run := by
  induction items with
  | nil => rfl
  | cons item items ih =>
    rw [List.mapM_cons, List.mapM_cons]
    exact outcome_bind (same item) fun _ => outcome_bind ih fun _ => rfl

/-- A step in a new scope ends as it does unwatched. -/
theorem outcome_inScope {enclosing : ScopeId} {bindings : Bindings} {body : Watched α}
    {step : Exec α} (same : outcome body = step) :
    outcome (inScope enclosing bindings body) = Exec.inScope enclosing bindings step :=
  same ▸ rfl

/-- A step in a scope that is there already ends as it does unwatched. -/
theorem outcome_within {scope : ScopeId} {body : Watched α} {step : Exec α}
    (same : outcome body = step) : outcome (within scope body) = Exec.within scope step :=
  same ▸ rfl

/-- What a host function does ends as it does unwatched if the functions that it calls do. -/
theorem outcome_hostAction {invoke : Cell → List Cell → Watched Cell}
    {run : Cell → List Cell → Exec Cell}
    (same : ∀ callee arguments, outcome (invoke callee arguments) = run callee arguments)
    (action : HostAction) (known : List Cell) :
    outcome (hostAction invoke action known) = action.run run known := by
  induction action generalizing known with
  | answer place => rfl
  | fail error => rfl
  | create literal next ih => exact outcome_bind rfl fun cell => ih (known ++ [cell])
  | print line next ih => exact outcome_bind rfl fun _ => ih known
  | call callee arguments next ih =>
    unfold hostAction HostAction.run
    generalize cellsAt? known (callee :: arguments) = named
    obtain _ | _ | ⟨callee, arguments⟩ := named
    · rfl
    · rfl
    · exact outcome_bind (same callee arguments) fun cell => ih _ (known ++ [cell])

/-- Everything that runs with some fuel ends as it does unwatched. -/
structure Faithful (fuel : Nat) : Prop where
  execute : ∀ context node, outcome (execute fuel context node) = Lox.execute fuel context node
  evaluate : ∀ context node, outcome (evaluate fuel context node) = Lox.evaluate fuel context node
  callChecked : ∀ context line callee arguments,
    outcome (callChecked fuel context line callee arguments) =
      Lox.callChecked fuel context line callee arguments
  call : ∀ context line callee arguments,
    outcome (call fuel context line callee arguments) =
      Lox.call fuel context line callee arguments

variable {fuel : Nat}

/-- Statements end as they do unwatched with more fuel. -/
theorem Faithful.execute_succ (faithful : Faithful fuel) (context : Context) (node : Node) :
    outcome (Watched.execute (fuel + 1) context node) = Lox.execute (fuel + 1) context node := by
  cases node with
  | expression value => exact outcome_bind (faithful.evaluate context value) fun _ => rfl
  | print value => exact outcome_bind (faithful.evaluate context value) fun _ => rfl
  | var name initializer =>
    refine outcome_bind ?_ fun _ => outcome_bind rfl fun _ => rfl
    cases initializer with
    | null => rfl
    | _ => exact faithful.evaluate context _
  | block statements =>
    exact outcome_bind rfl fun _ => outcome_inScope (outcome_forM (faithful.execute context))
  | conditional condition thenBranch elseBranch =>
    refine outcome_bind (faithful.evaluate context condition) fun cell =>
      outcome_bind rfl fun _ => ?_
    split
    · exact faithful.execute context thenBranch
    · cases elseBranch with
      | null => rfl
      | _ => exact faithful.execute context _
  | loop condition body =>
    refine outcome_bind (faithful.evaluate context condition) fun cell =>
      outcome_bind rfl fun _ => ?_
    split
    · exact outcome_bind (faithful.execute context body) fun _ => faithful.execute context _
    · rfl
  | function name parameters body =>
    exact outcome_bind rfl fun _ => outcome_bind rfl fun _ => rfl
  | _ => rfl

/-- Expressions end as they do unwatched with more fuel. -/
theorem Faithful.evaluate_succ (faithful : Faithful fuel) (context : Context) (node : Node) :
    outcome (Watched.evaluate (fuel + 1) context node) = Lox.evaluate (fuel + 1) context node := by
  cases node with
  | grouping inner => exact faithful.evaluate context inner
  | assign name value =>
    exact outcome_bind (faithful.evaluate context value) fun _ => outcome_bind rfl fun _ => rfl
  | unary operator operand => exact outcome_bind (faithful.evaluate context operand) fun _ => rfl
  | logical left operator right =>
    refine outcome_bind (faithful.evaluate context left) fun cell => ?_
    split
    · rfl
    · exact faithful.evaluate context right
  | binary left operator right =>
    exact outcome_bind (faithful.evaluate context left) fun _ =>
      outcome_bind (faithful.evaluate context right) fun _ => rfl
  | call callee paren arguments =>
    exact outcome_bind (faithful.evaluate context callee) fun _ =>
      outcome_bind (outcome_mapM (faithful.evaluate context)) fun _ =>
        faithful.callChecked context paren.line _ _
  | _ => rfl

/-- Calls end as they do unwatched with more fuel. -/
theorem Faithful.callChecked_succ (faithful : Faithful fuel) (context : Context) (line : Int)
    (callee : Cell) (arguments : List Cell) :
    outcome (Watched.callChecked (fuel + 1) context line callee arguments) =
      Lox.callChecked (fuel + 1) context line callee arguments := by
  unfold Watched.callChecked Lox.callChecked
  cases callee.value.arity? with
  | none => rfl
  | some arity =>
    dsimp only
    split
    · exact outcome_bind rfl fun _ => faithful.call context line callee arguments
    · rfl

/-- Calls of functions end as they do unwatched with more fuel. -/
theorem Faithful.call_succ (faithful : Faithful fuel) (context : Context) (line : Int)
    (callee : Cell) (arguments : List Cell) :
    outcome (Watched.call (fuel + 1) context line callee arguments) =
      Lox.call (fuel + 1) context line callee arguments := by
  unfold Watched.call Lox.call
  cases callee.value with
  | function declaration =>
    dsimp only
    cases context.callsLeft with
    | zero => rfl
    | succ callsLeft =>
      dsimp only
      cases bindParameters declaration.parameters arguments [] with
      | none => rfl
      | some bindings =>
        exact outcome_bind (outcome_inScope (outcome_forM (faithful.execute _))) fun _ => rfl
  | native name arity operation =>
    cases operation with
    | clock => rfl
    | hosted key => exact outcome_hostAction (faithful.call context line) _ arguments
  | _ => rfl

/-- Everything ends as it does unwatched, with whatever fuel. -/
theorem faithful (fuel : Nat) : Faithful fuel := by
  induction fuel with
  | zero => exact ⟨fun _ _ => rfl, fun _ _ => rfl, fun _ _ _ _ => rfl, fun _ _ _ _ => rfl⟩
  | succ fuel ih => exact ⟨ih.execute_succ, ih.evaluate_succ, ih.callChecked_succ, ih.call_succ⟩

/-- A program ends as it does unwatched. -/
theorem outcome_program (fuel : Nat) (context : Context) (program : Program) :
    outcome (Watched.program fuel context program) = program.run fuel context := by
  have statements : outcome (program.forM (Watched.execute fuel context)) =
      program.forM (Lox.execute fuel context) :=
    outcome_forM ((faithful fuel).execute context)
  exact outcome_bind rfl fun _ => outcome_bind (statements ▸ rfl) fun _ => rfl

end Watched

end Lox
