import Lox.Proofs.Execution.Likeness
import Lox.Proofs.Execution.Operations

/-!
# Runs of trees that match

Two runs of trees that match, from states that are alike, end alike: both normally in states that are
alike, or both with faults that only differ in tokens that stand for each other. All that a run can
fail with and all that it can trace between its first and its last line is listed here, each with
the tokens it is about.

Two different trees are run side by side to see what their lines have to do with their runs, and one
tree beside itself to see what its tokens make possible.
-/

namespace Lox

/-- The causes of errors that are reported at a token, by what the token is kept for. -/
inductive Blamed : Role → Token → Cause → Prop
  | read (name : Token) : Blamed .read name (.undefinedVariable name.text)
  | assigned (name : Token) : Blamed .assigned name (.undefinedVariable name.text)
  | operand (operator : Token) : Blamed .operator operator .operandNotNumber
  | operands (operator : Token) : Blamed .operator operator .operandsNotNumbers
  | addition (operator : Token) : Blamed .operator operator .operandsNotAddable
  | notCallable (paren : Token) : Blamed .closing paren .notCallable
  | arityMismatch (paren : Token) (asked : Int) (given : Nat) :
      Blamed .closing paren (.arityMismatch asked given)
  | stackOverflow (paren : Token) : Blamed .closing paren .stackOverflow

/-- Two runs side by side: what their states are compared by, and their contexts. -/
structure Runs extends Likeness where
  first : Context
  second : Context

/-- Two runs in one context. -/
def Likeness.runsIn (like : Likeness) (context : Context) : Runs :=
  ⟨like, context, context⟩

namespace Runs

open Likeness

variable {runs : Runs} {α β γ δ : Type}

/-- The lines that a run adds to its trace between the first and the last one, with the level that
they are traced from. -/
inductive Traced (runs : Runs) : (level : Nat) → (line : Text) → Prop
  | declare {name name' : Token} {value value' : Value} :
      runs.tokens .declared name name' → runs.Values value value' →
      Traced runs 2 (("declare " : Text) ++ name.text ++ " = " ++ value.described)
  | define {name name' : Token} :
      runs.tokens .declared name name' → Traced runs 2 (("define function " : Text) ++ name.text)
  | call {callee callee' : Value} {asked : Int} (given : Nat) :
      runs.Values callee callee' → callee.arity? = some asked →
      Traced runs 2
        (("call " : Text) ++ callee.shown ++ " with " ++ Text.ofNat given ++ " argument(s)")
  | ifCondition (holds : Bool) :
      Traced runs 3 (("if condition -> " : Text) ++ shownCondition holds)
  | whileCondition (holds : Bool) :
      Traced runs 3 (("while condition -> " : Text) ++ shownCondition holds)

/-- The faults that two runs fail with side by side. -/
inductive Raised (runs : Runs) : Fault → Fault → Prop
  | blamed {role : Role} {token token' : Token} {cause : Cause} :
      runs.tokens role token token' → Blamed role token cause →
      Raised runs (.runtime ⟨cause, token.line⟩) (.runtime ⟨cause, token'.line⟩)
  | unsupportedUnary {operator operator' : Token} :
      runs.strays → runs.tokens .operator operator operator' →
      Raised runs (.defect (.unsupportedUnary operator)) (.defect (.unsupportedUnary operator'))
  | unknownOperator {operator operator' : Token} :
      runs.strays → runs.tokens .operator operator operator' →
      Raised runs (.defect (.unknownOperator operator)) (.defect (.unknownOperator operator'))
  | notStatement (form : Form) :
      runs.strays → Raised runs (.defect (.notStatement form)) (.defect (.notStatement form))
  | notExpression (form : Form) :
      runs.strays → Raised runs (.defect (.notExpression form)) (.defect (.notExpression form))
  | host (error : HostError) : runs.hosted → Raised runs error.fault error.fault
  | untraced {level : Nat} {line : Text} {error : StorageError} :
      runs.Traced level line → level ≤ runs.first.debugLevel →
      runs.first.traceError? line = some error →
      Raised runs (.defect (.storage error)) (.defect (.storage error))

/-- Two runs fail with one fault if tokens are the same. -/
theorem Raised.eq (onlySame : runs.OnlySame) {fault fault' : Fault}
    (raised : runs.Raised fault fault') : fault' = fault := by
  cases raised with
  | blamed isToken _ => rw [onlySame _ _ _ isToken]
  | unsupportedUnary _ isToken | unknownOperator _ isToken => rw [onlySame _ _ _ isToken]
  | _ => rfl

/-- Two runs end alike. -/
inductive Ends (runs : Runs) (results : α → β → Prop) : Outcome α → Outcome β → Prop
  | done {result : α} {result' : β} {left right : State} :
      runs.States left right → results result result' →
      Ends runs results (.done result left) (.done result' right)
  | failed {fault fault' : Fault} {left right : State} :
      runs.States left right → runs.Raised fault fault' →
      Ends runs results (.failed fault left) (.failed fault' right)
  | unfinished : Ends runs results .unfinished .unfinished

/-- Two steps end alike from all states that are alike. -/
def Steps (runs : Runs) (results : α → β → Prop) (step : Exec α) (step' : Exec β) : Prop :=
  ∀ left right, runs.States left right → runs.Ends results (step left) (step' right)

/-- Nothing is asked of the results. -/
def anything : α → β → Prop :=
  fun _ _ => True

namespace Steps

variable {results : α → β → Prop} {finals : γ → δ → Prop} {step : Exec α} {step' : Exec β}

/-- Values that are there already. -/
theorem pure {result : α} {result' : β} (isResult : results result result') :
    runs.Steps results (Pure.pure result) (Pure.pure result') :=
  fun _ _ alike => .done alike isResult

/-- Faults side by side. -/
theorem fail {fault fault' : Fault} (raised : runs.Raised fault fault') :
    runs.Steps results (Exec.fail fault) (Exec.fail fault') :=
  fun _ _ alike => .failed alike raised

/-- No fuel in both runs. -/
theorem unfinished : runs.Steps results Exec.unfinished Exec.unfinished :=
  fun _ _ _ => .unfinished

/-- Steps in sequence end alike when each of them does. -/
theorem bind {next : α → Exec γ} {next' : β → Exec δ} (alike : runs.Steps results step step')
    (follow : ∀ result result', results result result' →
      runs.Steps finals (next result) (next' result')) :
    runs.Steps finals (step >>= next) (step' >>= next') := by
  intro left right states
  have ends := alike left right states
  change runs.Ends finals (Exec.andThen step next left) (Exec.andThen step' next' right)
  unfold Exec.andThen
  generalize step left = outcome at ends ⊢
  generalize step' right = outcome' at ends ⊢
  cases ends with
  | done states' result => exact follow _ _ result _ _ states'
  | failed states' raised => exact .failed states' raised
  | unfinished => exact .unfinished

/-- Statements that match, one after another. -/
theorem forM {relation : γ → δ → Prop} {items : List γ} {items' : List δ} {run : γ → Exec Unit}
    {run' : δ → Exec Unit}
    (each : ∀ item item', relation item item' → runs.Steps anything (run item) (run' item'))
    (areAlike : List.Forall₂ relation items items') :
    runs.Steps anything (items.forM run) (items'.forM run') := by
  induction areAlike with
  | nil => exact .pure trivial
  | cons isAlike _ ih => exact (each _ _ isAlike).bind fun _ _ _ => ih

/-- Expressions that match, one after another. -/
theorem mapM {relation : γ → δ → Prop} {items : List γ} {items' : List δ} {run : γ → Exec Cell}
    {run' : δ → Exec Cell}
    (each : ∀ item item', relation item item' → runs.Steps runs.Cells (run item) (run' item'))
    (areAlike : List.Forall₂ relation items items') :
    runs.Steps (List.Forall₂ runs.Cells) (items.mapM run) (items'.mapM run') := by
  induction areAlike with
  | nil => exact .pure .nil
  | cons isAlike _ ih =>
    rw [List.mapM_cons, List.mapM_cons]
    apply (each _ _ isAlike).bind
    intro cell cell' isCell
    apply ih.bind
    intro cells cells' areCells
    exact .pure (.cons isCell areCells)

/-- Steps inside new scopes with bindings that are alike. -/
theorem inScope {bindings bindings' : Bindings} {body body' : Exec Unit} (enclosing : ScopeId)
    (areAlike : runs.Scopes bindings bindings') (alike : runs.Steps anything body body') :
    runs.Steps anything (Exec.inScope enclosing bindings body)
      (Exec.inScope enclosing bindings' body') := by
  intro left right states
  have ends := alike _ _ (states.enter enclosing areAlike)
  unfold Exec.inScope
  dsimp only
  rw [← states.current_eq, ← states.store.size_eq]
  generalize body (Exec.enter enclosing bindings left) = outcome at ends ⊢
  generalize body' (Exec.enter enclosing bindings' right) = outcome' at ends ⊢
  cases ends with
  | done inside _ => exact .done (inside.leave _ _) trivial
  | failed inside raised => exact .failed (inside.leave _ _) raised
  | unfinished => exact .unfinished

/-- The current scope is the same. -/
theorem current : runs.Steps Eq Exec.current Exec.current :=
  fun _ _ states => .done states states.current_eq

/-- The same line is printed. -/
theorem write (line : Text) : runs.Steps anything (Exec.write line) (Exec.write line) :=
  fun _ _ states =>
    .done { states with output_eq := congrArg (Array.push · line) states.output_eq } trivial

/-- New cells of values that are alike. -/
theorem newCell {value value' : Value} (alike : runs.Values value value') :
    runs.Steps runs.Cells (Exec.newCell value) (Exec.newCell value') := by
  have fresh : runs.Steps runs.Cells
      (fun state => .done ⟨state.nextCell, value⟩ { state with nextCell := state.nextCell + 1 })
      (fun state => .done ⟨state.nextCell, value'⟩ { state with nextCell := state.nextCell + 1 }) :=
    fun _ _ states =>
      .done { states with nextCell_eq := congrArg (· + 1) states.nextCell_eq }
        ⟨states.nextCell_eq, alike⟩
  cases alike with
  | nil => exact .pure cells_nil
  | bool value => cases value <;> exact .pure ⟨rfl, .bool _⟩
  | _ => exact fresh

/-- A name that is not bound. -/
theorem undefined {role : Role} {name name' : Token} (isName : runs.tokens role name name')
    (blamed : Blamed role name (.undefinedVariable name.text)) :
    runs.Steps results (Exec.failAt name.line (.undefinedVariable name.text))
      (Exec.failAt name'.line (.undefinedVariable name'.text)) := by
  rw [← runs.text_eq isName]
  exact .fail (.blamed isName blamed)

/-- The cells that a name stands for. -/
theorem lookup {name name' : Token} (isName : runs.tokens .read name name') :
    runs.Steps runs.Cells (Exec.lookup name) (Exec.lookup name') := by
  intro left right states
  have missing : runs.Ends runs.Cells _ _ := undefined isName (.read name) left right states
  have found : Option.Rel runs.Cells (left.store.get? left.current name.text)
      (right.store.get? right.current name'.text) := by
    rw [← states.current_eq, ← runs.text_eq isName]
    exact states.store.get? left.current name.text
  unfold Exec.lookup
  generalize left.store.get? left.current name.text = cell at found ⊢
  generalize right.store.get? right.current name'.text = cell' at found ⊢
  cases found with
  | none => exact missing
  | some isCell => exact .done states isCell

/-- Names bound anew where they are bound. -/
theorem assign {name name' : Token} {cell cell' : Cell} (isName : runs.tokens .assigned name name')
    (isCell : runs.Cells cell cell') :
    runs.Steps anything (Exec.assign name cell) (Exec.assign name' cell') := by
  intro left right states
  have missing : runs.Ends (α := Unit) (β := Unit) anything _ _ :=
    undefined isName (.assigned name) left right states
  have found : Option.Rel runs.Stores (left.store.assign? left.current name.text cell)
      (right.store.assign? right.current name'.text cell') := by
    rw [← states.current_eq, ← runs.text_eq isName]
    exact states.store.assign? left.current name.text isCell
  unfold Exec.assign
  generalize left.store.assign? left.current name.text cell = store at found ⊢
  generalize right.store.assign? right.current name'.text cell' = store' at found ⊢
  cases found with
  | none => exact missing
  | some stores => exact .done { states with store := stores } trivial

/-- A line that may be traced in one context, whatever the traces are. -/
theorem trace_self (allTraces : ∀ trace trace', runs.traces trace trace')
    (sameContext : runs.first = runs.second) {level : Nat} {line : Text}
    (traced : runs.Traced level line) :
    runs.Steps anything (runs.first.trace level line) (runs.second.trace level line) := by
  intro left right states
  rw [← sameContext]
  unfold Context.trace
  split
  · next enough =>
    cases isError : runs.first.traceError? line with
    | some error => exact .failed states (.untraced traced enough isError)
    | none => exact .done { states with traces := allTraces _ _ } trivial
  · exact .done states trivial

/-- Names bound in the current scope. -/
theorem define {cell cell' : Cell} (name : Text) (isCell : runs.Cells cell cell') :
    runs.Steps anything (Exec.define name cell) (Exec.define name cell') := by
  intro left right states
  have stores := states.store.define left.current name isCell
  refine .done { states with store := ?_ } trivial
  rw [← states.current_eq]
  exact stores

end Steps

section

variable {operator operator' : Token} {value value' other other' : Value}
  {arguments arguments' : List Cell}

/-- Prefix operators applied to values that are alike. -/
theorem applyUnary (isOperator : runs.tokens .operator operator operator')
    (allowed : runs.strays ∨ operator.kind = .bang ∨ operator.kind = .minus)
    (alike : runs.Values value value') :
    runs.Steps runs.Cells (Lox.applyUnary operator value) (Lox.applyUnary operator' value') := by
  unfold Lox.applyUnary
  rw [← runs.kind_eq isOperator, alike.truthy_eq]
  split
  · exact .newCell (.bool _)
  · cases alike with
    | number value => exact .newCell (.number _)
    | _ => exact .fail (.blamed isOperator (.operand operator))
  · next noBang noMinus =>
    have strays := allowed.resolve_right fun isKind => isKind.elim noBang noMinus
    exact .fail (.unsupportedUnary strays isOperator)

/-- Operators between values that are alike. -/
theorem applyBinary (isOperator : runs.tokens .operator operator operator')
    (allowed : runs.strays ∨ operator.kind ∈ Node.binaryKinds)
    (alike : runs.Values value value') (alike' : runs.Values other other') :
    runs.Steps runs.Cells (Lox.applyBinary operator value other)
      (Lox.applyBinary operator' value' other') := by
  unfold Lox.applyBinary
  rw [← runs.kind_eq isOperator, alike.equals_eq alike']
  split
  · exact .newCell (.bool _)
  · exact .newCell (.bool _)
  · have sum := alike.addition? alike'
    generalize Lox.addition? value other = result at sum ⊢
    generalize Lox.addition? value' other' = result' at sum ⊢
    cases sum with
    | none => exact .fail (.blamed isOperator (.addition operator))
    | some isSum => exact .newCell isSum
  · next noEqual noOther noPlus =>
    have noNumbers : runs.Steps runs.Cells (Exec.failAt operator.line .operandsNotNumbers)
        (Exec.failAt operator'.line .operandsNotNumbers) :=
      .fail (.blamed isOperator (.operands operator))
    cases alike with
    | number left =>
      cases alike' with
      | number right =>
        obtain ⟨result, isResult, isValue⟩ | ⟨isNone, kinds⟩ :=
          arithmetic?_eq runs.toLikeness operator.kind left right
        · dsimp only
          rw [isResult]
          exact .newCell isValue
        · dsimp only
          rw [isNone]
          have strays := allowed.resolve_right fun isKind => by
            obtain isKind | isKind | isKind := kinds isKind
            · exact noEqual isKind
            · exact noOther isKind
            · exact noPlus isKind
          exact .fail (.unknownOperator strays isOperator)
      | _ => exact noNumbers
    | _ => exact noNumbers

/-- Host functions know the same of cells that are alike. -/
theorem hostView_eq (areCells : List.Forall₂ runs.Cells arguments arguments') :
    HostView.of arguments = HostView.of arguments' :=
  HostView.of_eq areCells (fun isCell => isCell.value.appearance_eq)
    (fun isCell isOther => by rw [isCell.id_eq, isOther.id_eq])
    fun isCell isOther => isCell.value.equals_eq isOther.value

/-- What a host function does with cells that are alike, if the functions that it calls end alike. -/
theorem hostAction (hosted : runs.hosted) (action : HostAction)
    {invoke invoke' : Cell → List Cell → Exec Cell}
    (invoked : ∀ {callee callee' arguments arguments'}, runs.Cells callee callee' →
      List.Forall₂ runs.Cells arguments arguments' →
      runs.Steps runs.Cells (invoke callee arguments) (invoke' callee' arguments'))
    (areCells : List.Forall₂ runs.Cells arguments arguments') :
    runs.Steps runs.Cells (action.run invoke arguments) (action.run invoke' arguments') := by
  have missing : runs.Steps runs.Cells (Exec.failDefect .missingArgument)
      (Exec.failDefect .missingArgument) :=
    .fail (.host .missingArgument hosted)
  induction action generalizing arguments arguments' with
  | answer place =>
    have isThere := getElem?_rel areCells place
    unfold HostAction.run Lox.argument
    generalize arguments[place]? = cell at isThere ⊢
    generalize arguments'[place]? = cell' at isThere ⊢
    cases isThere with
    | none => exact missing
    | some isCell => exact .pure isCell
  | fail error => exact .fail (.host error hosted)
  | create literal next ih =>
    apply (Steps.newCell (values_ofLiteral literal)).bind
    intro cell cell' isCell
    exact ih (forall₂_concat areCells isCell)
  | print line next ih => exact (Steps.write line).bind fun _ _ _ => ih areCells
  | call callee given next ih =>
    have areNamed := cellsAt?_rel areCells (callee :: given)
    unfold HostAction.run
    generalize cellsAt? arguments (callee :: given) = cells at areNamed ⊢
    generalize cellsAt? arguments' (callee :: given) = cells' at areNamed ⊢
    cases areNamed with
    | none => exact missing
    | some areNamed =>
      cases areNamed with
      | nil => exact missing
      | cons isCallee areGiven =>
        apply (invoked isCallee areGiven).bind
        intro cell cell' isCell
        have known := forall₂_concat areCells isCell
        rw [hostView_eq known]
        exact ih _ known

end

end Runs

/-- Two contexts with one time and one host whose traces stay beside each other. -/
structure Comparison extends Runs where
  now_eq : first.now = second.now
  host_eq : first.host = second.host
  trace : ∀ {level line}, toRuns.Traced level line →
    toRuns.Steps Runs.anything (first.trace level line) (second.trace level line)

/-- Two runs in one context, in which traces stay beside each other. -/
def Likeness.comparisonIn (like : Likeness) (context : Context)
    (trace : ∀ {level line}, (like.runsIn context).Traced level line →
      (like.runsIn context).Steps Runs.anything (context.trace level line) (context.trace level line)) :
    Comparison where
  toRuns := like.runsIn context
  now_eq := rfl
  host_eq := rfl
  trace := trace

namespace Comparison

open Likeness Runs

variable {comparison : Comparison} {fuel : Nat}

/-- Two trees that match, the first of which has a form. -/
structure Trees (comparison : Comparison) (form : Node → Prop) (node node' : Node) : Prop where
  matched : node.Matched comparison.toMatching node'
  isForm : comparison.strays ∨ form node

/-- A part of a tree stands where it means something. -/
theorem Trees.part {form other : Node → Prop} {node node' inner inner' : Node}
    (trees : comparison.Trees form node node') (matched : inner.Matched comparison.toMatching inner')
    (inside : form node → other inner) :
    comparison.Trees other inner inner' :=
  ⟨matched, trees.isForm.imp id inside⟩

/-- Parts of a list match one by one. -/
theorem forall₂_trees {form : Node → Prop} {forms : List Node → Prop}
    (cons : ∀ {first rest}, forms (first :: rest) → form first ∧ forms rest) {nodes nodes' : List Node}
    (matched : List.Forall₂ (Node.Matched comparison.toMatching) nodes nodes')
    (areForms : comparison.strays ∨ forms nodes) :
    List.Forall₂ (comparison.Trees form) nodes nodes' := by
  induction matched with
  | nil => exact .nil
  | cons isMatched _ ih =>
    exact .cons ⟨isMatched, areForms.imp id fun both => (cons both).1⟩
      (ih (areForms.imp id fun both => (cons both).2))

/-- Everything that runs with some fuel ends alike on trees that match. -/
structure Alike (comparison : Comparison) (fuel : Nat) : Prop where
  execute : ∀ calls {node node'}, comparison.Trees Node.IsStatement node node' →
    comparison.Steps anything (execute fuel (comparison.first.allowing calls) node)
      (execute fuel (comparison.second.allowing calls) node')
  evaluate : ∀ calls {node node'}, comparison.Trees Node.IsExpression node node' →
    comparison.Steps comparison.Cells (evaluate fuel (comparison.first.allowing calls) node)
      (evaluate fuel (comparison.second.allowing calls) node')
  callChecked : ∀ calls {paren paren' callee callee' arguments arguments'},
    comparison.tokens .closing paren paren' → comparison.Cells callee callee' →
    List.Forall₂ comparison.Cells arguments arguments' →
    comparison.Steps comparison.Cells
      (callChecked fuel (comparison.first.allowing calls) paren.line callee arguments)
      (callChecked fuel (comparison.second.allowing calls) paren'.line callee' arguments')
  call : ∀ calls {paren paren' callee callee' arguments arguments'},
    comparison.tokens .closing paren paren' → comparison.Cells callee callee' →
    List.Forall₂ comparison.Cells arguments arguments' →
    callee.value.arity? = some (arguments.length : Int) ∨ comparison.hosted →
    comparison.Steps comparison.Cells
      (call fuel (comparison.first.allowing calls) paren.line callee arguments)
      (call fuel (comparison.second.allowing calls) paren'.line callee' arguments')

namespace Alike

/-- Statements that match end alike one after another. -/
theorem statements (alike : comparison.Alike fuel) (calls : Nat) {nodes nodes' : List Node}
    (matched : List.Forall₂ (Node.Matched comparison.toMatching) nodes nodes')
    (areStatements : comparison.strays ∨ Node.AreStatements nodes) :
    comparison.Steps anything (nodes.forM (Lox.execute fuel (comparison.first.allowing calls)))
      (nodes'.forM (Lox.execute fuel (comparison.second.allowing calls))) :=
  .forM (fun _ _ trees => alike.execute calls trees) (forall₂_trees (fun both => both) matched areStatements)

/-- The initial values of variables are alike. -/
theorem initializer (alike : comparison.Alike fuel) (calls : Nat) (initializer initializer' : Node) :
    initializer.Matched comparison.toMatching initializer' →
    comparison.strays ∨ initializer = .null ∨ initializer.IsExpression →
    comparison.Steps comparison.Cells
      (match initializer with
        | .null => pure Cell.nil
        | value => Lox.evaluate fuel (comparison.first.allowing calls) value)
      (match initializer' with
        | .null => pure Cell.nil
        | value => Lox.evaluate fuel (comparison.second.allowing calls) value) := by
  intro matched isForm
  have whole := matched
  cases matched with
  | null => exact .pure cells_nil
  | _ => exact alike.evaluate calls ⟨whole, by simpa using isForm⟩

/-- Statements that match end alike with more fuel. -/
theorem execute_succ (alike : comparison.Alike fuel) (calls : Nat) {node node' : Node}
    (trees : comparison.Trees Node.IsStatement node node') :
    comparison.Steps anything (Lox.execute (fuel + 1) (comparison.first.allowing calls) node)
      (Lox.execute (fuel + 1) (comparison.second.allowing calls) node') := by
  have stray (form : Form) (strays : comparison.strays) :
      comparison.Steps anything (Exec.failDefect (α := Unit) (.notStatement form))
        (Exec.failDefect (α := Unit) (.notStatement form)) :=
    .fail (.notStatement form strays)
  have matched := trees.matched
  cases matched with
  | expression value =>
    exact (alike.evaluate calls (trees.part value id)).bind fun _ _ _ => .pure trivial
  | print value =>
    apply (alike.evaluate calls (trees.part value id)).bind
    intro cell cell' isCell
    rw [isCell.value.shown_eq]
    exact .write _
  | var name initializer =>
    apply (alike.initializer calls _ _ initializer trees.isForm).bind
    intro cell cell' isCell
    rw [← comparison.text_eq name, ← isCell.value.described_eq]
    exact (Steps.define _ isCell).bind fun _ _ _ => comparison.trace (.declare name isCell.value)
  | block statements =>
    apply Steps.current.bind
    rintro scope _ rfl
    exact .inScope scope .nil (alike.statements calls statements trees.isForm)
  | conditional condition thenBranch elseBranch =>
    apply (alike.evaluate calls (trees.part condition And.left)).bind
    intro cell cell' isCell
    rw [isCell.value.truthy_eq]
    apply (comparison.trace (.ifCondition _)).bind
    intro _ _ _
    split
    · exact alike.execute calls (trees.part thenBranch fun parts => parts.2.1)
    · have isForm := trees.isForm.imp id fun parts => parts.2.2
      have whole := elseBranch
      cases elseBranch with
      | null => exact .pure trivial
      | _ => exact alike.execute calls ⟨whole, by simpa using isForm⟩
  | loop condition body =>
    apply (alike.evaluate calls (trees.part condition And.left)).bind
    intro cell cell' isCell
    rw [isCell.value.truthy_eq]
    apply (comparison.trace (.whileCondition _)).bind
    intro _ _ _
    split
    · exact (alike.execute calls (trees.part body And.right)).bind fun _ _ _ =>
        alike.execute calls trees
    · exact .pure trivial
  | function name parameters body =>
    apply (Steps.newCell (.function name parameters body trees.isForm)).bind
    intro cell cell' isCell
    rw [← comparison.text_eq name]
    exact (Steps.define _ isCell).bind fun _ _ _ => comparison.trace (.define name)
  | _ => exact stray _ (trees.isForm.resolve_right id)

/-- Expressions that match end alike with more fuel. -/
theorem evaluate_succ (alike : comparison.Alike fuel) (calls : Nat) {node node' : Node}
    (trees : comparison.Trees Node.IsExpression node node') :
    comparison.Steps comparison.Cells
      (Lox.evaluate (fuel + 1) (comparison.first.allowing calls) node)
      (Lox.evaluate (fuel + 1) (comparison.second.allowing calls) node') := by
  have stray (form : Form) (strays : comparison.strays) :
      comparison.Steps comparison.Cells (Exec.failDefect (.notExpression form))
        (Exec.failDefect (.notExpression form)) :=
    .fail (.notExpression form strays)
  have matched := trees.matched
  cases matched with
  | literal value => exact .newCell (values_ofLiteral value)
  | grouping inner => exact alike.evaluate calls (trees.part inner id)
  | «variable» name => exact .lookup name
  | assign name value =>
    apply (alike.evaluate calls (trees.part value id)).bind
    intro cell cell' isCell
    exact (Steps.assign name isCell).bind fun _ _ _ => .pure isCell
  | unary operator operand =>
    apply (alike.evaluate calls (trees.part operand And.right)).bind
    intro cell cell' isCell
    exact Runs.applyUnary operator (trees.isForm.imp id And.left) isCell.value
  | logical left operator right =>
    apply (alike.evaluate calls (trees.part left And.left)).bind
    intro cell cell' isCell
    rw [isCell.value.truthy_eq, comparison.kind_eq operator]
    split
    · exact .pure isCell
    · exact alike.evaluate calls (trees.part right And.right)
  | binary left operator right =>
    apply (alike.evaluate calls (trees.part left And.left)).bind
    intro cell cell' isCell
    apply (alike.evaluate calls (trees.part right fun parts => parts.2.2)).bind
    intro other other' isOther
    exact Runs.applyBinary operator (trees.isForm.imp id fun parts => parts.2.1) isCell.value
      isOther.value
  | call callee paren arguments =>
    apply (alike.evaluate calls (trees.part callee And.left)).bind
    intro cell cell' isCell
    have areTrees : List.Forall₂ (comparison.Trees Node.IsExpression) _ _ :=
      forall₂_trees (fun both => both) arguments (trees.isForm.imp id And.right)
    apply (Steps.mapM (fun _ _ trees => alike.evaluate calls trees) areTrees).bind
    intro cells cells' areCells
    exact alike.callChecked calls paren isCell areCells
  | _ => exact stray _ (trees.isForm.resolve_right id)

/-- Checked calls end alike with more fuel. -/
theorem callChecked_succ (alike : comparison.Alike fuel) (calls : Nat) {paren paren' : Token}
    {callee callee' : Cell} {arguments arguments' : List Cell}
    (isParen : comparison.tokens .closing paren paren') (isCell : comparison.Cells callee callee')
    (areCells : List.Forall₂ comparison.Cells arguments arguments') :
    comparison.Steps comparison.Cells
      (Lox.callChecked (fuel + 1) (comparison.first.allowing calls) paren.line callee arguments)
      (Lox.callChecked (fuel + 1) (comparison.second.allowing calls) paren'.line callee'
        arguments') := by
  unfold Lox.callChecked
  rw [← isCell.value.arity?_eq, ← isCell.value.shown_eq, ← areCells.length_eq]
  split
  · exact .fail (.blamed isParen (.notCallable paren))
  · next asked isAsked =>
    split
    · next enough =>
      apply (comparison.trace (.call _ isCell.value isAsked)).bind
      intro _ _ _
      refine alike.call calls isParen isCell areCells (.inl ?_)
      rw [isAsked, enough]
    · exact .fail (.blamed isParen (.arityMismatch paren _ _))

/-- Calls end alike with more fuel. -/
theorem call_succ (alike : comparison.Alike fuel) (calls : Nat) {paren paren' : Token}
    {callee callee' : Cell} {arguments arguments' : List Cell}
    (isParen : comparison.tokens .closing paren paren') (isCell : comparison.Cells callee callee')
    (areCells : List.Forall₂ comparison.Cells arguments arguments')
    (enough : callee.value.arity? = some (arguments.length : Int) ∨ comparison.hosted) :
    comparison.Steps comparison.Cells
      (Lox.call (fuel + 1) (comparison.first.allowing calls) paren.line callee arguments)
      (Lox.call (fuel + 1) (comparison.second.allowing calls) paren'.line callee' arguments') := by
  have noCall (kind : ValueKind) (noFunction : callee.value.arity? = none) :
      comparison.Steps comparison.Cells (Exec.failDefect (.noCall kind))
        (Exec.failDefect (.noCall kind)) :=
    .fail (.host (.noCall kind) (enough.resolve_left (by rw [noFunction]; exact nofun)))
  obtain ⟨id, value⟩ := callee
  obtain ⟨id', value'⟩ := callee'
  obtain ⟨-, isValue⟩ := isCell
  unfold Lox.call
  dsimp only at isValue enough noCall ⊢
  cases isValue with
  | @function name name' parameters parameters' body body' _ areParameters matched areStatements =>
    cases calls with
    | zero => exact .fail (.blamed isParen (.stackOverflow paren))
    | succ calls =>
      have bound := Likeness.bindParameters areParameters areCells .nil
      have isBound := enough.imp_left fun same =>
        bindParameters_ne_none [] (Int.ofNat_inj.mp (Option.some.inj same)).symm
      dsimp only [Context.allowing]
      generalize Lox.bindParameters parameters arguments [] = bindings at bound isBound ⊢
      generalize Lox.bindParameters parameters' arguments' [] = bindings' at bound ⊢
      cases bound with
      | none =>
        exact .fail (.host .missingArgument (isBound.resolve_left fun same => same rfl))
      | some areBound =>
        exact (Steps.inScope globals areBound (alike.statements calls matched areStatements)).bind
          fun _ _ _ => .pure cells_nil
  | clock name arity =>
    have sameTime : (comparison.first.allowing calls).now = (comparison.second.allowing calls).now :=
      comparison.now_eq
    dsimp only
    rw [sameTime]
    exact .newCell (.number _)
  | hosted name arity key hosted =>
    have sameFunction : (comparison.first.allowing calls).hostFunction key =
        (comparison.second.allowing calls).hostFunction key :=
      congrArg (fun host : List HostFunction => host[key]?.getD .absent) comparison.host_eq
    unfold HostFunction.run
    dsimp only
    rw [sameFunction, hostView_eq areCells]
    -- A host function may call with any arguments, so no arity is known inside.
    exact hostAction hosted _ (fun isCell areCells => alike.call calls isParen isCell areCells (.inr hosted))
      areCells
  | _ => exact noCall _ rfl

end Alike

/-- Everything ends alike on trees that match, with whatever fuel. -/
theorem alike (comparison : Comparison) (fuel : Nat) : comparison.Alike fuel := by
  induction fuel with
  | zero =>
    exact ⟨fun _ _ _ _ => .unfinished, fun _ _ _ _ => .unfinished,
      fun _ _ _ _ _ _ _ _ _ _ => .unfinished, fun _ _ _ _ _ _ _ _ _ _ _ => .unfinished⟩
  | succ fuel ih =>
    exact ⟨fun calls _ _ => ih.execute_succ calls, fun calls _ _ => ih.evaluate_succ calls,
      fun calls _ _ _ _ _ _ => ih.callChecked_succ calls, fun calls _ _ _ _ _ _ => ih.call_succ calls⟩

end Comparison

/-- The line that the trace of a run begins with. -/
def Program.firstLine (program : Program) : Text :=
  ("run " : Text) ++ Text.ofNat program.length ++ " statement(s)"

/-- What a run does behind its first line: its statements, and the last line. -/
theorem Program.run_of_begun {program : Program} {context : Context} {state begun : State}
    (fuel : Nat) (isBegun : context.trace 1 program.firstLine state = .done () begun) :
    program.run fuel context state =
      match program.forM (execute fuel context) begun with
      | .done _ after => context.trace 1 "run finished" after
      | .failed fault after =>
        match context.trace 1 (("runtime error: " : Text) ++ fault.message) after with
        | .done _ last => .failed fault last
        | .failed other last => .failed other last
        | .unfinished => .unfinished
      | .unfinished => .unfinished := by
  change Exec.andThen (context.trace 1 program.firstLine) (fun _ => Exec.andThen (Exec.onFault
    (program.forM (execute fuel context)) fun fault =>
      context.trace 1 (("runtime error: " : Text) ++ fault.message))
    fun _ => context.trace 1 "run finished") state = _
  unfold Exec.andThen
  rw [isBegun]
  dsimp only
  unfold Exec.onFault
  cases program.forM (execute fuel context) begun with
  | done _ after => rfl
  | failed fault after =>
    dsimp only
    cases context.trace 1 (("runtime error: " : Text) ++ fault.message) after <;> rfl
  | unfinished => rfl

end Lox
