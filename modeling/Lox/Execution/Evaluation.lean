import Lox.Execution.Operation

/-!
# Running programs

Statements are executed and expressions evaluated over one state. The fuel bounds the length of a
run, and with enough of it a run that ends does not depend on it. The context bounds how deep
calls of declared functions may nest; a call beyond that is a runtime error at the call's closing
parenthesis.
-/

namespace Lox

/-- A truth value in traces. -/
def shownCondition (holds : Bool) : Text :=
  if holds then "True" else "False"

mutual

/-- Executes a statement. -/
def execute : (fuel : Nat) → Context → Node → Exec Unit
  | 0, _, _ => Exec.unfinished
  | fuel + 1, context, statement =>
    match statement with
    | .expression value => do
      let _ ← evaluate fuel context value
    | .print value => do
      let cell ← evaluate fuel context value
      Exec.write cell.value.shown
    | .var name initializer => do
      let cell ← (
        match initializer with
        | .null => pure Cell.nil
        | value => evaluate fuel context value)
      Exec.define name.text cell
      context.trace 2 (("declare " : Text) ++ name.text ++ " = " ++ cell.value.described)
    | .block statements => do
      Exec.inScope (← Exec.current) [] (statements.forM (execute fuel context))
    | .conditional condition thenBranch elseBranch => do
      let cell ← evaluate fuel context condition
      let holds := cell.value.truthy
      context.trace 3 (("if condition -> " : Text) ++ shownCondition holds)
      if holds then execute fuel context thenBranch
      else
        match elseBranch with
        | .null => pure ()
        | alternative => execute fuel context alternative
    | .loop condition body => do
      let cell ← evaluate fuel context condition
      let holds := cell.value.truthy
      context.trace 3 (("while condition -> " : Text) ++ shownCondition holds)
      if holds then do
        execute fuel context body
        execute fuel context (.loop condition body)
      else pure ()
    | .function name parameters body => do
      let cell ← Exec.newCell (.function ⟨name, parameters, body⟩)
      Exec.define name.text cell
      context.trace 2 (("define function " : Text) ++ name.text)
    | other => Exec.failDefect (.notStatement other.form)

/-- Evaluates an expression. -/
def evaluate : (fuel : Nat) → Context → Node → Exec Cell
  | 0, _, _ => Exec.unfinished
  | fuel + 1, context, expression =>
    match expression with
    | .literal value => Exec.newCell (Value.ofLiteral value)
    | .grouping inner => evaluate fuel context inner
    | .variable name => Exec.lookup name
    | .assign name value => do
      let cell ← evaluate fuel context value
      Exec.assign name cell
      pure cell
    | .unary operator operand => do
      let cell ← evaluate fuel context operand
      applyUnary operator cell.value
    | .logical left operator right => do
      let cell ← evaluate fuel context left
      if cell.value.truthy = decide (operator.kind = .orWord) then pure cell
      else evaluate fuel context right
    | .binary left operator right => do
      let left ← evaluate fuel context left
      let right ← evaluate fuel context right
      applyBinary operator left.value right.value
    | .call callee paren arguments => do
      let callee ← evaluate fuel context callee
      let arguments ← arguments.mapM (evaluate fuel context)
      callChecked fuel context paren.line callee arguments
    | other => Exec.failDefect (.notExpression other.form)

/-- Calls a value with arguments if it is a function that asks for so many. -/
def callChecked : (fuel : Nat) → Context → (line : Int) → Cell → List Cell → Exec Cell
  | 0, _, _, _, _ => Exec.unfinished
  | fuel + 1, context, line, callee, arguments =>
    match callee.value.arity? with
    | none => Exec.failAt line .notCallable
    | some arity =>
      if arguments.length = arity then do
        context.trace 2
          (("call " : Text) ++ callee.value.shown ++ " with " ++ Text.ofNat arguments.length ++
            " argument(s)")
        call fuel context line callee arguments
      else Exec.failAt line (.arityMismatch arity arguments.length)

/-- Calls a function with arguments. The body of a declared function runs in a scope of its own
between the global one and nothing else. What a host function calls is called from the same line and is
checked for nothing before. -/
def call : (fuel : Nat) → Context → (line : Int) → Cell → List Cell → Exec Cell
  | 0, _, _, _, _ => Exec.unfinished
  | fuel + 1, context, line, callee, arguments =>
    match callee.value with
    | .function declaration =>
      match context.callsLeft with
      | 0 => Exec.failAt line .stackOverflow
      | callsLeft + 1 =>
        match bindParameters declaration.parameters arguments [] with
        | none => Exec.failDefect .missingArgument
        | some bindings => do
          Exec.inScope globals bindings
            (declaration.body.forM (execute fuel { context with callsLeft := callsLeft }))
          pure Cell.nil
    | .native _ _ .clock => Exec.newCell (.number context.now)
    | .native _ _ (.hosted key) => (context.hostFunction key).run (call fuel context line) arguments
    | other => Exec.failDefect (.noCall other.kind)

end

/-- Runs a program statement by statement. The trace says how many there are and how the run
ended. -/
def Program.run (fuel : Nat) (context : Context) (program : Program) : Exec Unit := do
  context.trace 1 (("run " : Text) ++ Text.ofNat program.length ++ " statement(s)")
  Exec.onFault (program.forM (execute fuel context)) fun fault =>
    context.trace 1 (("runtime error: " : Text) ++ fault.message)
  context.trace 1 "run finished"

end Lox
