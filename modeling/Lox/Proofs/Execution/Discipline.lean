import Lox.Proofs.Execution.Chains
import Lox.Proofs.Execution.Moments
import Lox.Proofs.Execution.Upkeep

/-!
# The discipline of scopes

Whatever runs, the scopes from the current one outwards stay a finite chain that ends in the global
scope, at every moment of the run. No scope that is there ever gets another enclosing one. When the
run ends, normally or in any fault, the scope is current again that was so at its start.

Nothing is asked of the tree that runs and of the functions of the host, and of the state only that it has
such a chain.
-/

namespace Lox

open Pairing State

variable {α β γ : Type}

namespace Watched

/-- What was watched from a state kept the discipline: there were chains and links at every moment,
the moments led to the end, and the end has kept what runs keep. -/
structure Discipline (start : State) (run : List State × Outcome α) : Prop where
  moments : ∀ moment ∈ run.1, During start moment
  passage : ∃ last, Passage start run.1 last ∧ ∀ after ∈ run.2.last, after = last
  kept : ∀ after ∈ run.2.last, Kept start after

/-- A watched step keeps the discipline wherever there is a chain. -/
def Disciplined (step : Watched α) : Prop :=
  ∀ start : State, start.Chained → Discipline start (step start)

/-- A value that is there already. -/
theorem disciplined_pure (value : α) : Disciplined (pure value) :=
  fun start _ =>
    { moments := fun _ isMoment => absurd isMoment List.not_mem_nil
      passage := ⟨start, .nil start, fun _ isAfter => List.mem_singleton.mp isAfter⟩
      kept := fun _ isAfter => List.mem_singleton.mp isAfter ▸ Kept.refl start }

/-- No fuel. -/
theorem disciplined_unfinished : Disciplined (unfinished : Watched α) :=
  fun start _ =>
    { moments := fun _ isMoment => absurd isMoment List.not_mem_nil
      passage := ⟨start, .nil start, fun _ isAfter => absurd isAfter List.not_mem_nil⟩
      kept := fun _ isAfter => absurd isAfter List.not_mem_nil }

/-- The end of a step is at most one moment after its start. -/
theorem passage_last {start : State} {outcome : Outcome α}
    (linksKept : ∀ after ∈ outcome.last, start.LinksKept after) :
    ∃ last, Passage start outcome.last last ∧ ∀ after ∈ outcome.last, after = last := by
  cases outcome with
  | done _ after | failed _ after =>
    exact ⟨after, .cons (linksKept after List.mem_cons_self) (.nil after),
      fun _ isAfter => List.mem_singleton.mp isAfter⟩
  | unfinished => exact ⟨start, .nil start, fun _ isAfter => absurd isAfter List.not_mem_nil⟩

/-- A single operation that keeps what runs keep. -/
theorem disciplined_single {step : Exec α} (keeps : keptUpkeep.Keeps step) :
    Disciplined (single step) := by
  intro start chained
  have isDuring : During start start := (Kept.refl start).during chained
  have kept (after : State) (isAfter : after ∈ (step start).last) : Kept start after :=
    (keeps start trivial after isAfter).2
  refine ⟨?_, ?_, kept⟩
  · exact List.forall_mem_cons.mpr
      ⟨isDuring, fun after isAfter => (kept after isAfter).during chained⟩
  · obtain ⟨last, passage, isLast⟩ := passage_last fun after isAfter => (kept after isAfter).linksKept
    exact ⟨last, .cons isDuring.links passage, isLast⟩

/-- A discipline that is kept from a later state is kept from an earlier one, with what was passed
through in between. -/
theorem Discipline.earlier {start middle : State} {passed : List State}
    {run : List State × Outcome α} (discipline : Discipline middle run)
    (moments : ∀ moment ∈ passed, During start moment) (passage : Passage start passed middle)
    (isDuring : During start middle) (kept : ∀ after, Kept middle after → Kept start after) :
    Discipline start (passed ++ run.1, run.2) where
  moments := List.forall_mem_append.mpr
    ⟨moments, fun moment isMoment => (discipline.moments moment isMoment).earlier isDuring⟩
  passage := by
    obtain ⟨last, further, isLast⟩ := discipline.passage
    exact ⟨last, passage.append further, isLast⟩
  kept after isAfter := kept after (discipline.kept after isAfter)

/-- Steps in sequence keep the discipline if each of them does. -/
theorem Disciplined.bind {first : Watched α} {second : α → Watched β}
    (disciplined : Disciplined first) (follow : ∀ value, Disciplined (second value)) :
    Disciplined (first >>= second) := by
  intro start chained
  have discipline := disciplined start chained
  change Discipline start (andThen first second start)
  unfold andThen
  generalize first start = run at discipline ⊢
  obtain ⟨moments, ⟨last, passage, isLast⟩, keeps⟩ := discipline
  obtain ⟨passed, ending⟩ := run
  cases ending with
  | done value after =>
    obtain rfl := isLast after List.mem_cons_self
    have kept : Kept start after := keeps after List.mem_cons_self
    exact (follow value after (kept.chained chained)).earlier moments passage (kept.during chained)
      fun _ => kept.trans
  | failed fault after => exact ⟨moments, ⟨last, passage, isLast⟩, keeps⟩
  | unfinished => exact ⟨moments, ⟨last, passage, isLast⟩, keeps⟩

/-- Statements one after another keep the discipline. -/
theorem Disciplined.forM {items : List γ} {run : γ → Watched Unit}
    (each : ∀ item, Disciplined (run item)) : Disciplined (items.forM run) := by
  induction items with
  | nil => exact disciplined_pure ()
  | cons item items ih => exact (each item).bind fun _ => ih

/-- Expressions one after another keep the discipline. -/
theorem Disciplined.mapM {items : List γ} {run : γ → Watched Cell}
    (each : ∀ item, Disciplined (run item)) : Disciplined (items.mapM run) := by
  induction items with
  | nil => exact disciplined_pure []
  | cons item items ih =>
    rw [List.mapM_cons]
    exact (each item).bind fun _ => ih.bind fun _ => disciplined_pure _

/-- What is run from a moment on keeps the discipline also when the state is put in order at the end. -/
theorem Discipline.changed {start entered : State} {run : List State × Outcome α}
    (discipline : Discipline entered run) (chained : start.Chained) (isDuring : During start entered)
    {change : State → State} (links : ∀ after, LinksKept after (change after))
    (kept : ∀ after, Kept entered after → Kept start (change after)) :
    Discipline start (entered :: run.1 ++ (run.2.changed change).last, run.2.changed change) := by
  obtain ⟨moments, ⟨last, passage, isLast⟩, keeps⟩ := discipline
  obtain ⟨passed, ending⟩ := run
  have inside : ∀ moment ∈ entered :: passed, During start moment :=
    List.forall_mem_cons.mpr
      ⟨isDuring, fun moment isMoment => (moments moment isMoment).earlier isDuring⟩
  have through : Passage start (entered :: passed) last := .cons isDuring.links passage
  have atEnd : ∀ after ∈ (ending.changed change).last,
      Kept start after ∧ after = change last := by
    cases ending with
    | done _ after | failed _ after =>
      obtain rfl := isLast after List.mem_cons_self
      exact List.forall_mem_singleton.mpr ⟨kept after (keeps after List.mem_cons_self), rfl⟩
    | unfinished => exact fun _ isAfter => absurd isAfter List.not_mem_nil
  have atLast : ∀ after ∈ (ending.changed change).last, last.LinksKept after :=
    fun after isAfter => (atEnd after isAfter).2 ▸ links last
  obtain ⟨last', further, isLast'⟩ := passage_last atLast
  exact
    { moments := List.forall_mem_append.mpr
        ⟨inside, fun after isAfter => (atEnd after isAfter).1.during chained⟩
      passage := ⟨last', through.append further, isLast'⟩
      kept := fun after isAfter => (atEnd after isAfter).1 }

/-- A step in a new scope keeps the discipline, if there is a chain from where it is opened. -/
theorem Disciplined.inScope {body : Watched α} (disciplined : Disciplined body) {start : State}
    (chained : start.Chained) {enclosing : ScopeId} (anchored : start.store.Anchored enclosing)
    (bindings : Bindings) : Discipline start (Watched.inScope enclosing bindings body start) := by
  have isDuring := during_enter anchored bindings
  have discipline := disciplined _ isDuring.chained
  change Discipline start (_ :: _ ++ (Exec.inScope enclosing bindings (outcome body) start).last,
    Exec.inScope enclosing bindings (outcome body) start)
  rw [Exec.inScope_eq]
  exact discipline.changed chained isDuring (fun after => linksKept_leave after _ _)
    fun _ kept => kept.leave

/-- A step in a scope that is there already keeps the discipline, if there is a chain from that scope. -/
theorem Disciplined.within {body : Watched α} (disciplined : Disciplined body) {start : State}
    (chained : start.Chained) {scope : ScopeId} (anchored : start.store.Anchored scope) :
    Discipline start (Watched.within scope body start) :=
  have isDuring := during_turn anchored
  (disciplined _ isDuring.chained).changed chained isDuring (fun _ _ _ _ => rfl)
    fun _ kept => kept.turn

/-- Something more before a fault goes on keeps the discipline. -/
theorem Disciplined.onFault {body : Watched α} {more : Fault → Watched Unit}
    (disciplined : Disciplined body) (follow : ∀ fault, Disciplined (more fault)) :
    Disciplined (onFault body more) := by
  intro start chained
  have discipline := disciplined start chained
  unfold Watched.onFault Exec.onFault
  dsimp only
  generalize body start = run at discipline ⊢
  obtain ⟨moments, ⟨last, passage, isLast⟩, keeps⟩ := discipline
  obtain ⟨passed, ending⟩ := run
  cases ending with
  | failed fault after =>
    obtain rfl := isLast after List.mem_cons_self
    have kept : Kept start after := keeps after List.mem_cons_self
    have further := (follow fault after (kept.chained chained)).earlier moments passage
      (kept.during chained) fun _ => kept.trans
    dsimp only
    generalize more fault after = run' at further ⊢
    obtain ⟨passed', ending'⟩ := run'
    obtain ⟨moments', passage', keeps'⟩ := further
    cases ending' with
    | done _ _ => exact ⟨moments', passage', keeps'⟩
    | failed _ _ => exact ⟨moments', passage', keeps'⟩
    | unfinished => exact ⟨moments', passage', keeps'⟩
  | done _ _ | unfinished =>
    rw [List.append_nil]
    exact ⟨moments, ⟨last, passage, isLast⟩, keeps⟩

/-- A step in a block of the current scope keeps the discipline. -/
theorem Disciplined.inBlock {body : Watched Unit} (disciplined : Disciplined body) :
    Disciplined (single Exec.current >>= fun scope => Watched.inScope scope [] body) := by
  intro start chained
  have isDuring : During start start := (Kept.refl start).during chained
  exact (disciplined.inScope chained chained []).earlier
    (List.forall_mem_cons.mpr ⟨isDuring, List.forall_mem_singleton.mpr isDuring⟩)
    (.cons isDuring.links (.cons isDuring.links (.nil start))) isDuring fun _ kept => kept

/-- A step in a scope that only the global one encloses keeps the discipline. -/
theorem Disciplined.inCall {body : Watched Unit} (disciplined : Disciplined body)
    (bindings : Bindings) : Disciplined (Watched.inScope globals bindings body) :=
  fun _ chained => disciplined.inScope chained chained.toGlobals bindings

/-- Lines of a trace keep the discipline. -/
theorem disciplined_trace (context : Context) (level : Nat) (line : Text) :
    Disciplined (single (context.trace level line)) :=
  disciplined_single (Upkeep.keeps_of_inStep fun state =>
    (keptSimulation context).trace state state level line)

/-- New cells keep the discipline. -/
theorem disciplined_newCell (value : Value) : Disciplined (single (Exec.newCell value)) :=
  disciplined_single (Upkeep.keeps_newCell value)

/-- Faults keep the discipline. -/
theorem disciplined_fail (fault : Fault) : Disciplined (single (Exec.fail fault : Exec α)) :=
  disciplined_single fun state _ _ isAfter =>
    ⟨trivial, List.mem_singleton.mp isAfter ▸ Kept.refl state⟩

/-- What a host function does keeps the discipline if the functions that it calls do. -/
theorem disciplined_hostAction {invoke : Cell → List Cell → Watched Cell}
    (each : ∀ callee arguments, Disciplined (invoke callee arguments)) (action : HostAction)
    (known : List Cell) : Disciplined (hostAction invoke action known) := by
  induction action generalizing known with
  | answer place =>
    unfold hostAction argument
    split
    · exact disciplined_single (Upkeep.keeps_pure _)
    · exact disciplined_fail _
  | fail error => exact disciplined_fail _
  | create literal next ih => exact (disciplined_newCell _).bind fun cell => ih (known ++ [cell])
  | print line next ih => exact (disciplined_single (Upkeep.keeps_write line)).bind fun _ => ih known
  | call callee arguments next ih =>
    unfold hostAction
    split
    · exact (each _ _).bind fun cell => ih _ (known ++ [cell])
    · exact disciplined_fail _

/-- Everything that runs with some fuel keeps the discipline. -/
structure AllDisciplined (fuel : Nat) : Prop where
  execute : ∀ context node, Disciplined (execute fuel context node)
  evaluate : ∀ context node, Disciplined (evaluate fuel context node)
  callChecked : ∀ context line callee arguments,
    Disciplined (callChecked fuel context line callee arguments)
  call : ∀ context line callee arguments, Disciplined (call fuel context line callee arguments)

variable {fuel : Nat}

/-- Statements keep the discipline with more fuel. -/
theorem AllDisciplined.execute_succ (all : AllDisciplined fuel) (context : Context) (node : Node) :
    Disciplined (Watched.execute (fuel + 1) context node) := by
  cases node with
  | expression value => exact (all.evaluate context value).bind fun _ => disciplined_pure ()
  | print value =>
    exact (all.evaluate context value).bind fun _ => disciplined_single (Upkeep.keeps_write _)
  | var name initializer =>
    refine Disciplined.bind ?_ fun cell => (disciplined_single (keeps_define _ cell)).bind fun _ =>
      disciplined_trace context 2 _
    cases initializer with
    | null => exact disciplined_pure Cell.nil
    | _ => exact all.evaluate context _
  | block statements => exact (Disciplined.forM (all.execute context)).inBlock
  | conditional condition thenBranch elseBranch =>
    refine (all.evaluate context condition).bind fun cell =>
      (disciplined_trace context 3 _).bind fun _ => ?_
    split
    · exact all.execute context thenBranch
    · cases elseBranch with
      | null => exact disciplined_pure ()
      | _ => exact all.execute context _
  | loop condition body =>
    refine (all.evaluate context condition).bind fun cell =>
      (disciplined_trace context 3 _).bind fun _ => ?_
    split
    · exact (all.execute context body).bind fun _ => all.execute context _
    · exact disciplined_pure ()
  | function name parameters body =>
    exact (disciplined_newCell _).bind fun cell =>
      (disciplined_single (keeps_define _ cell)).bind fun _ => disciplined_trace context 2 _
  | _ => exact disciplined_fail _

/-- Expressions keep the discipline with more fuel. -/
theorem AllDisciplined.evaluate_succ (all : AllDisciplined fuel) (context : Context)
    (node : Node) : Disciplined (Watched.evaluate (fuel + 1) context node) := by
  cases node with
  | literal value => exact disciplined_newCell _
  | grouping inner => exact all.evaluate context inner
  | «variable» name => exact disciplined_single (Upkeep.keeps_lookup name)
  | assign name value =>
    exact (all.evaluate context value).bind fun cell =>
      (disciplined_single (Upkeep.keeps_assign name cell)).bind fun _ => disciplined_pure cell
  | unary operator operand =>
    exact (all.evaluate context operand).bind fun cell => disciplined_single
      (Upkeep.keeps_of_inStep fun _ => (keptSimulation context).applyUnary operator cell.value)
  | logical left operator right =>
    refine (all.evaluate context left).bind fun cell => ?_
    split
    · exact disciplined_pure cell
    · exact all.evaluate context right
  | binary left operator right =>
    exact (all.evaluate context left).bind fun first => (all.evaluate context right).bind
      fun second => disciplined_single (Upkeep.keeps_of_inStep fun _ =>
        (keptSimulation context).applyBinary operator first.value second.value)
  | call callee paren arguments =>
    exact (all.evaluate context callee).bind fun cell =>
      (Disciplined.mapM (all.evaluate context)).bind fun cells =>
        all.callChecked context paren.line cell cells
  | _ => exact disciplined_fail _

/-- Calls keep the discipline with more fuel. -/
theorem AllDisciplined.callChecked_succ (all : AllDisciplined fuel) (context : Context) (line : Int)
    (callee : Cell) (arguments : List Cell) :
    Disciplined (Watched.callChecked (fuel + 1) context line callee arguments) := by
  unfold Watched.callChecked
  split
  · exact disciplined_fail _
  · split
    · exact (disciplined_trace context 2 _).bind fun _ => all.call context line callee arguments
    · exact disciplined_fail _

/-- Calls of functions keep the discipline with more fuel. -/
theorem AllDisciplined.call_succ (all : AllDisciplined fuel) (context : Context) (line : Int)
    (callee : Cell) (arguments : List Cell) :
    Disciplined (Watched.call (fuel + 1) context line callee arguments) := by
  unfold Watched.call
  split
  · split
    · exact disciplined_fail _
    · split
      · exact disciplined_fail _
      · exact ((Disciplined.forM (all.execute _)).inCall _).bind fun _ => disciplined_pure Cell.nil
  · exact disciplined_newCell _
  · exact disciplined_hostAction (all.call context line) _ arguments
  · exact disciplined_fail _

/-- Everything keeps the discipline, with whatever fuel. -/
theorem allDisciplined (fuel : Nat) : AllDisciplined fuel := by
  induction fuel with
  | zero =>
    exact ⟨fun _ _ => disciplined_unfinished, fun _ _ => disciplined_unfinished,
      fun _ _ _ _ => disciplined_unfinished, fun _ _ _ _ => disciplined_unfinished⟩
  | succ fuel ih => exact ⟨ih.execute_succ, ih.evaluate_succ, ih.callChecked_succ, ih.call_succ⟩

/-- Programs keep the discipline. -/
theorem disciplined_program (fuel : Nat) (context : Context) (program : Program) :
    Disciplined (Watched.program fuel context program) :=
  (disciplined_trace context 1 _).bind fun _ =>
    ((Disciplined.forM ((allDisciplined fuel).execute context)).onFault
      fun _ => disciplined_trace context 1 _).bind fun _ => disciplined_trace context 1 _

end Watched

/-- What may be asked of an interpreter: to execute a statement, to evaluate an expression, to
execute statements in a new scope or in one that is there already, to call a value with or without a
check before, and to run a program. -/
inductive Activity : Type → Type where
  | execute (statement : Node) : Activity Unit
  | evaluate (expression : Node) : Activity Cell
  | executeBlock (enclosing : ScopeId) (bindings : Bindings) (statements : Program) : Activity Unit
  | executeWithin (scope : ScopeId) (statements : Program) : Activity Unit
  | callChecked (line : Int) (callee : Cell) (arguments : List Cell) : Activity Cell
  | call (line : Int) (callee : Cell) (arguments : List Cell) : Activity Cell
  | run (program : Program) : Activity Unit

namespace Activity

/-- Does what was asked. -/
def perform (fuel : Nat) (context : Context) : Activity α → Exec α
  | execute statement => Lox.execute fuel context statement
  | evaluate expression => Lox.evaluate fuel context expression
  | executeBlock enclosing bindings statements =>
    Exec.inScope enclosing bindings (statements.forM (Lox.execute fuel context))
  | executeWithin scope statements => Exec.within scope (statements.forM (Lox.execute fuel context))
  | callChecked line callee arguments => Lox.callChecked fuel context line callee arguments
  | call line callee arguments => Lox.call fuel context line callee arguments
  | run program => program.run fuel context

/-- Does what was asked and tells the moments. -/
def watch (fuel : Nat) (context : Context) : Activity α → Watched α
  | execute statement => Watched.execute fuel context statement
  | evaluate expression => Watched.evaluate fuel context expression
  | executeBlock enclosing bindings statements =>
    Watched.inScope enclosing bindings (statements.forM (Watched.execute fuel context))
  | executeWithin scope statements =>
    Watched.within scope (statements.forM (Watched.execute fuel context))
  | callChecked line callee arguments => Watched.callChecked fuel context line callee arguments
  | call line callee arguments => Watched.call fuel context line callee arguments
  | run program => Watched.program fuel context program

/-- A new scope is opened, and another one made the current one, only where there is a chain. -/
def Fits (store : Store) : Activity α → Prop
  | executeBlock enclosing _ _ => store.Anchored enclosing
  | executeWithin scope _ => store.Anchored scope
  | _ => True

/-- Watching changes nothing. -/
theorem outcome_watch (activity : Activity α) (fuel : Nat) (context : Context) :
    Watched.outcome (activity.watch fuel context) = activity.perform fuel context := by
  have statements (block : Program) : Watched.outcome (block.forM (Watched.execute fuel context)) =
      block.forM (Lox.execute fuel context) :=
    Watched.outcome_forM ((Watched.faithful fuel).execute context)
  cases activity with
  | execute statement => exact (Watched.faithful fuel).execute context statement
  | evaluate expression => exact (Watched.faithful fuel).evaluate context expression
  | executeBlock enclosing bindings block => exact Watched.outcome_inScope (statements block)
  | executeWithin scope block => exact Watched.outcome_within (statements block)
  | callChecked line callee arguments =>
    exact (Watched.faithful fuel).callChecked context line callee arguments
  | call line callee arguments => exact (Watched.faithful fuel).call context line callee arguments
  | run program => exact Watched.outcome_program fuel context program

/-- Whatever is asked keeps the discipline. -/
theorem discipline_watch (activity : Activity α) (fuel : Nat) (context : Context) {state : State}
    (chained : state.Chained) (fits : activity.Fits state.store) :
    Watched.Discipline state (activity.watch fuel context state) := by
  have all := Watched.allDisciplined fuel
  cases activity with
  | execute statement => exact all.execute context statement state chained
  | evaluate expression => exact all.evaluate context expression state chained
  | executeBlock enclosing bindings statements =>
    exact (Watched.Disciplined.forM (all.execute context)).inScope chained fits bindings
  | executeWithin scope statements =>
    exact (Watched.Disciplined.forM (all.execute context)).within chained fits
  | callChecked line callee arguments =>
    exact all.callChecked context line callee arguments state chained
  | call line callee arguments => exact all.call context line callee arguments state chained
  | run program => exact Watched.disciplined_program fuel context program state chained

end Activity

/-- Whatever is asked of an interpreter with a chain of scopes, there is such a chain at every moment,
and no scope that is there gets another enclosing one: not from one moment to the next, nor is one
lost that was there at the start. At the end, normal or not, the same scope is current as at the
start, with the same chain, and the same scopes are there. -/
theorem scopes_disciplined (activity : Activity α) (fuel : Nat) (context : Context) {state : State}
    (chained : state.Chained) (fits : activity.Fits state.store) :
    let moments := (activity.watch fuel context state).1
    let ending := (activity.watch fuel context state).2
    ending = activity.perform fuel context state ∧
      (∀ moment ∈ moments, During state moment) ∧
      (∃ last, Passage state moments last ∧ ∀ after ∈ ending.last, after = last) ∧
      ∀ after ∈ ending.last, after.current = state.current ∧ after.Chained ∧
        after.store.size = state.store.size ∧
        ∀ scope, after.store.enclosing? scope = state.store.enclosing? scope := by
  obtain ⟨moments, passage, keeps⟩ := activity.discipline_watch fuel context chained fits
  refine ⟨congrFun (activity.outcome_watch fuel context) state, moments, passage, ?_⟩
  intro after isAfter
  have kept := keeps after isAfter
  exact ⟨kept.current, kept.chained chained, kept.size, kept.enclosing⟩

/-- A state with a scope that knows a function and one of the host, and with another scope in it that is
the current one. -/
def State.twoWithin : State :=
  let failing : Value := .function ⟨⟨.identifier, [102], 1⟩, [],
    [.block [.print (.variable ⟨.identifier, [121], 1⟩)]]⟩
  Exec.enter 1 [] (Exec.enter globals
    [("f", ⟨3, failing⟩), ("g", ⟨4, .native "g" 1 (.hosted 0)⟩)] State.blank)

/-- The scopes lead from the inner one through the other to the global one. -/
theorem State.chained_twoWithin : State.twoWithin.Chained where
  hasGlobals := by decide
  chain := ⟨[1, 0], .enclosed rfl (.enclosed rfl (.outermost rfl)), by decide⟩

/-- In the middle scope a function of the host calls back one that fails in a block, and the inner scope
is current again. -/
theorem failed_callback_left :
    let callback : HostFunction := fun _ => .call 0 [] fun _ => .answer 1
    let context : Context := ⟨0, false, 1, Number.zero false, [callback]⟩
    let calling : Activity Unit := .executeWithin 1 [.expression
      (.call (.variable ⟨.identifier, [103], 1⟩) ⟨.rightParen, [41], 1⟩
        [.variable ⟨.identifier, [102], 1⟩])]
    ∃ after, calling.perform 9 context State.twoWithin =
        .failed (.runtime ⟨.undefinedVariable "y", 1⟩) after ∧
      after.current = 2 ∧ after.Chained := by
  intro callback context calling
  have anchored : State.twoWithin.store.Anchored 1 :=
    ⟨by decide, [0], .enclosed rfl (.outermost rfl), by decide⟩
  have disciplined := scopes_disciplined calling 9 context State.chained_twoWithin anchored
  obtain ⟨after, ended⟩ : ∃ after, calling.perform 9 context State.twoWithin =
      .failed (.runtime ⟨.undefinedVariable "y", 1⟩) after := ⟨_, rfl⟩
  obtain ⟨same, -, -, atEnd⟩ := disciplined
  have isAfter : after ∈ (calling.watch 9 context State.twoWithin).2.last := by
    rw [same, ended]
    exact List.mem_singleton_self after
  obtain ⟨isCurrent, chained, -⟩ := atEnd after isAfter
  exact ⟨after, ended, isCurrent, chained⟩

end Lox
