import Lox.Proofs.Execution.Fuel
import Lox.Proofs.Execution.Names
import Lox.Proofs.Execution.Padding
import Lox.Proofs.Reading.Expressions
import Lox.Source.Desugar

/-!
# Loops with clauses run as they read

A loop with clauses is executed as a plain loop in blocks. It does what one reads: one scope is opened for
the loop, the first clause runs in it once, and while the condition holds the body and then the last
clause run in that same scope, which is closed in the end.

The blocks differ from this by a scope around every round and by the absence of the outer scope where there
is no first clause. Both are scopes in which nothing is declared, for a body is never a declaration.
-/

namespace Lox

open Exec Pairing Source State

/-- Whether a loop goes on: its condition holds, or it has none. -/
def goesOn (fuel : Nat) (context : Context) : Option Expr → Exec Bool
  | none => pure true
  | some condition => do
    let cell ← evaluate fuel context condition.node
    pure cell.value.truthy

/-- Runs the last clause of a loop, if it has one. -/
def runIncrement (fuel : Nat) (context : Context) : Option Expr → Exec Unit
  | none => pure ()
  | some increment => do
    let _ ← evaluate fuel context increment.node

/-- Traces whether a loop goes on. -/
def traceCondition (context : Context) (holds : Bool) : Exec Unit :=
  context.trace 3 (("while condition -> " : Text) ++ shownCondition holds)

/-- Runs the rounds of a loop in the current scope. -/
def runRounds : (fuel : Nat) → Context → (condition increment : Option Expr) → Stmt → Exec Unit
  | 0, _, _, _, _ => Exec.unfinished
  | fuel + 1, context, condition, increment, body => do
    let holds ← goesOn fuel context condition
    traceCondition context holds
    if holds then do
      execute fuel context body.node
      runIncrement fuel context increment
      runRounds fuel context condition increment body
    else pure ()

/-- Runs the first clause of a loop, if it has one. -/
def runStart (fuel : Nat) (context : Context) : Option LoopStart → Exec Unit
  | none => pure ()
  | some first => execute fuel context first.node

/-- Runs a loop with clauses in a scope of its own. -/
def runLoop (fuel : Nat) (context : Context) (start : Option LoopStart)
    (condition increment : Option Expr) (body : Stmt) : Exec Unit := do
  Exec.inScope (← Exec.current) [] do
    runStart fuel context start
    runRounds fuel context condition increment body

/-- A statement that is not a declaration declares nothing of its own. -/
theorem undeclaring_of_statement {position : Position} {tokens : List Token} {tree : Stmt}
    (statement : Grammar.Statement position tokens tree) (isBody : position = .body) :
    tree.node.Undeclaring := by
  induction statement with
  | function => cases isBody
  | var => cases isBody
  | plain => cases isBody
  | expression => trivial
  | @forLoop _ _ _ _ _ _ _ _ start condition increment body _ _ _ _ _ _ _ _ ih =>
    cases start with
    | some _ => trivial
    | none =>
      cases increment with
      | some _ => trivial
      | none => exact ih rfl
  | ifThen _ _ _ _ _ ih => exact ⟨ih rfl, trivial⟩
  | ifElse _ _ _ _ _ _ _ ih ih' => exact ⟨ih rfl, ih' rfl⟩
  | print => trivial
  | whileLoop _ _ _ _ _ ih => exact ih rfl
  | block => trivial

/-- The condition of the plain loop that a loop with clauses is executed as. -/
def conditionNode (condition : Option Expr) : Node :=
  (condition.map Expr.node).getD (.literal (.bool true))

/-- The body of the plain loop that a loop with clauses is executed as. -/
def roundNode (increment : Option Expr) (body : Node) : Node :=
  match increment with
  | none => body
  | some value => .block [body, .expression value.node]

variable {fuel : Nat} {context : Context} {condition increment : Option Expr} {body : Stmt}
  {state : State}

/-- A condition is evaluated to decide whether the loop goes on. -/
theorem condition_approximates {next next' : Bool → Exec Unit}
    (follow : ∀ holds after, Kept state after → Approximates (next holds) (next' holds) after) :
    Approximates
      (evaluate fuel context (conditionNode condition) >>= fun cell => next cell.value.truthy)
      (goesOn fuel context condition >>= next') state := by
  cases condition with
  | none =>
    cases fuel with
    | zero => exact .inl rfl
    | succ fuel => exact follow true state (Kept.refl state)
  | some condition =>
    unfold goesOn
    rw [bind_assoc]
    simp only [pure_bind]
    exact (Approximates.refl _ state).bind fun cell after ended =>
      follow cell.value.truthy after (kept_evaluate (Outcome.mem_last ended))

/-- Whether the loop goes on is what its condition is evaluated to. -/
theorem goesOn_approximates {more : Nat} (enough : fuel < more) {next next' : Bool → Exec Unit}
    (follow : ∀ holds after, Kept state after → Approximates (next holds) (next' holds) after) :
    Approximates (goesOn fuel context condition >>= next)
      (evaluate more context (conditionNode condition) >>= fun cell => next' cell.value.truthy)
      state := by
  cases condition with
  | none =>
    obtain ⟨more, rfl⟩ := Nat.exists_eq_succ_of_ne_zero (Nat.ne_zero_of_lt enough)
    exact follow true state (Kept.refl state)
  | some condition =>
    unfold goesOn
    rw [bind_assoc]
    simp only [pure_bind]
    exact ((approximated (Nat.le_of_lt enough)).evaluate context condition.node state).bind
      fun cell after ended =>
        follow cell.value.truthy after (kept_evaluate (Outcome.mem_last ended))

/-- The body and the last clause in a block may as well run in the current scope. -/
theorem execute_block_round (undeclaring : body.node.Undeclaring) (nested : state.Nested)
    (value : Expr) :
    execute (fuel + 1) context (.block [body.node, .expression value.node]) state =
      (execute fuel context body.node >>= fun _ =>
        execute fuel context (.expression value.node) >>= fun _ => pure ()) state :=
  execute_block_eq (List.forall_mem_cons.mpr ⟨undeclaring, List.forall_mem_singleton.mpr trivial⟩)
    nested

/-- A round of the plain loop is the body and the last clause. -/
theorem round_approximates (undeclaring : body.node.Undeclaring) (nested : state.Nested) :
    Approximates (execute fuel context (roundNode increment body.node))
      (execute fuel context body.node >>= fun _ => runIncrement fuel context increment) state := by
  cases increment with
  | none =>
    unfold runIncrement
    rw [bind_pure_unit]
    exact .refl _ state
  | some value =>
    cases fuel with
    | zero => exact .unfinished _ state
    | succ fuel =>
      refine .of_eq_left (execute_block_round undeclaring nested value) ?_
      refine ((approximated (Nat.le_succ fuel)).execute context body.node state).bind
        fun _ after _ => ?_
      rw [bind_pure_unit]
      cases fuel with
      | zero => exact .unfinished _ after
      | succ fuel =>
        exact ((approximated (Nat.le_add_right fuel 2)).evaluate context value.node after).bind
          fun _ last _ => .refl _ last

/-- The body and the last clause are a round of the plain loop. -/
theorem approximates_round (undeclaring : body.node.Undeclaring) (nested : state.Nested) :
    Approximates
      (execute fuel context body.node >>= fun _ => runIncrement fuel context increment)
      (execute (fuel + 2) context (roundNode increment body.node)) state := by
  cases increment with
  | none =>
    unfold runIncrement
    rw [bind_pure_unit]
    exact (approximated (Nat.le_add_right fuel 2)).execute context body.node state
  | some value =>
    refine .of_eq_right ?_ (execute_block_round undeclaring nested value).symm
    refine ((approximated (Nat.le_succ fuel)).execute context body.node state).bind
      fun _ after _ => ?_
    rw [bind_pure_unit]
    exact .refl _ after

/-- The plain loop does what the rounds do. -/
theorem loop_approximates (undeclaring : body.node.Undeclaring) (nested : state.Nested) :
    Approximates
      (execute fuel context (.loop (conditionNode condition) (roundNode increment body.node)))
      (runRounds fuel context condition increment body) state := by
  induction fuel generalizing state with
  | zero => exact .unfinished _ state
  | succ fuel ih =>
    have follow (holds : Bool) (after : State) (kept : Kept state after) :
        Approximates
          (do
            traceCondition context holds
            if holds then do
              execute fuel context (roundNode increment body.node)
              execute fuel context (.loop (conditionNode condition) (roundNode increment body.node))
            else pure ())
          (do
            traceCondition context holds
            if holds then do
              execute fuel context body.node
              runIncrement fuel context increment
              runRounds fuel context condition increment body
            else pure ()) after := by
      refine (Approximates.refl _ after).bind fun _ last traced => ?_
      have nested' : last.Nested :=
        (nested.of_kept kept).of_kept (kept_trace (Outcome.mem_last traced))
      split
      · rw [← bind_assoc]
        exact (round_approximates undeclaring nested').bind fun _ next ended =>
          ih (nested'.of_kept (kept_execute (Outcome.mem_last ended)))
      · exact .refl _ last
    exact condition_approximates follow

/-- The rounds do what the plain loop does. -/
theorem approximates_loop (undeclaring : body.node.Undeclaring) (nested : state.Nested) :
    Approximates (runRounds fuel context condition increment body)
      (execute (fuel + 2) context (.loop (conditionNode condition) (roundNode increment body.node)))
      state := by
  induction fuel generalizing state with
  | zero => exact .unfinished _ state
  | succ fuel ih =>
    have follow (holds : Bool) (after : State) (kept : Kept state after) :
        Approximates
          (do
            traceCondition context holds
            if holds then do
              execute fuel context body.node
              runIncrement fuel context increment
              runRounds fuel context condition increment body
            else pure ())
          (do
            traceCondition context holds
            if holds then do
              execute (fuel + 2) context (roundNode increment body.node)
              execute (fuel + 2) context
                (.loop (conditionNode condition) (roundNode increment body.node))
            else pure ()) after := by
      refine (Approximates.refl _ after).bind fun _ last traced => ?_
      have nested' : last.Nested :=
        (nested.of_kept kept).of_kept (kept_trace (Outcome.mem_last traced))
      split
      · rw [← bind_assoc]
        have round : Approximates
            (execute fuel context body.node >>= fun _ => runIncrement fuel context increment)
            (execute (fuel + 2) context (roundNode increment body.node)) last :=
          approximates_round undeclaring nested'
        exact round.bind fun _ next ended =>
          ih (nested'.of_kept (kept_execute (Outcome.mem_last (round.eq_of_over ended nofun))))
      · exact .refl _ last
    exact goesOn_approximates (Nat.lt_add_of_pos_right Nat.two_pos) follow

/-- Empty scopes make no difference to the rounds of a loop. -/
theorem transparent_runRounds (undeclaring : body.node.Undeclaring) :
    Transparent (runRounds fuel context condition increment body) := by
  induction fuel with
  | zero => exact .unfinished
  | succ fuel ih =>
    refine Transparent.bind ?_ fun holds => (Transparent.trace context 3 _).bind fun _ => ?_
    · cases condition with
      | none => exact .pure true
      | some condition => exact Transparent.evaluate.bind fun _ => .pure _
    · split
      · refine (Transparent.execute undeclaring).bind fun _ => Transparent.bind ?_ fun _ => ih
        cases increment with
        | none => exact .pure ()
        | some increment => exact Transparent.evaluate.bind fun _ => .pure ()
      · exact .pure ()

/-- A loop without a first clause may as well run in the current scope. -/
theorem runLoop_none (undeclaring : body.node.Undeclaring) (nested : state.Nested) :
    runLoop fuel context none condition increment body state =
      runRounds fuel context condition increment body state :=
  (transparent_runRounds undeclaring).inScope_eq nested

/-- A loop with clauses is executed as it reads. -/
theorem forLoop_approximates {start : Option LoopStart} (undeclaring : body.node.Undeclaring)
    (nested : state.Nested) :
    Approximates (execute fuel context (Stmt.forLoop start condition increment body).node)
      (runLoop fuel context start condition increment body) state := by
  cases start with
  | none =>
    exact .of_eq_right (loop_approximates undeclaring nested) (runLoop_none undeclaring nested).symm
  | some first =>
    cases fuel with
    | zero => exact .unfinished _ state
    | succ fuel =>
      refine Approximates.inScope ?_
      refine ((approximated (Nat.le_succ fuel)).execute context first.node _).bind fun _ after ended => ?_
      have nested' : after.Nested := nested.enter.of_kept (kept_execute (Outcome.mem_last ended))
      change Approximates (execute fuel context
        (.loop (conditionNode condition) (roundNode increment body.node)) >>= fun _ => pure ()) _ after
      rw [bind_pure_unit]
      exact ((approximated (Nat.le_succ fuel)).execute context _ after).trans
        (loop_approximates undeclaring nested')

/-- What a loop with clauses reads as is what is executed. -/
theorem approximates_forLoop {start : Option LoopStart} (undeclaring : body.node.Undeclaring)
    (nested : state.Nested) :
    Approximates (runLoop fuel context start condition increment body)
      (execute (fuel + 3) context (Stmt.forLoop start condition increment body).node) state := by
  cases start with
  | none =>
    exact .of_eq_left (runLoop_none undeclaring nested) ((approximates_loop undeclaring nested).trans
      ((approximated (Nat.le_succ _)).execute context _ state))
  | some first =>
    refine Approximates.inScope ?_
    refine ((approximated (Nat.le_add_right fuel 2)).execute context first.node _).bind
      fun _ after ended => ?_
    have nested' : after.Nested := nested.enter.of_kept (kept_execute (Outcome.mem_last ended))
    change Approximates _ (execute (fuel + 2) context
      (.loop (conditionNode condition) (roundNode increment body.node)) >>= fun _ => pure ()) after
    rw [bind_pure_unit]
    exact approximates_loop undeclaring nested'

/-- A loop with clauses ends as it reads: as its first clause and its rounds do in one scope, with the
same output, the same fault if there is one, and the same bindings in every scope. It keeps the scopes that
there were and adds no name to any of them, and nothing that its body declares is there after the body. -/
theorem forLoop_runs_directly {tokens : List Token} {start : Option LoopStart}
    {condition increment : Option Expr} {body : Stmt}
    (statement : Grammar.Statement .body tokens (.forLoop start condition increment body))
    (context : Context) {state : State} (nested : state.Nested) :
    let loop := (Stmt.forLoop start condition increment body).node
    (∀ outcome, outcome ≠ .unfinished →
      ((∃ fuel, execute fuel context loop state = outcome) ↔
        ∃ fuel, runLoop fuel context start condition increment body state = outcome)) ∧
    (∀ fuel, ∀ after ∈ (execute fuel context loop state).last,
      Kept state after ∧ SameNames state after) ∧
    ∀ fuel inside, ∀ after ∈ (execute fuel context body.node inside).last,
      Kept inside after ∧ SameNames inside after := by
  have undeclaring : body.node.Undeclaring := by
    cases statement with
    | forLoop _ _ _ _ _ _ _ isBody => exact undeclaring_of_statement isBody rfl
  refine ⟨fun outcome isOver => ⟨?_, ?_⟩, ?_, ?_⟩
  · rintro ⟨fuel, ended⟩
    exact ⟨fuel, (forLoop_approximates undeclaring nested).eq_of_over ended isOver⟩
  · rintro ⟨fuel, ended⟩
    exact ⟨fuel + 3, (approximates_forLoop undeclaring nested).eq_of_over ended isOver⟩
  · exact fun fuel after isAfter =>
      ⟨kept_execute isAfter, sameNames_execute (undeclaring_of_statement statement rfl) isAfter⟩
  · exact fun fuel inside after isAfter =>
      ⟨kept_execute isAfter, sameNames_execute undeclaring isAfter⟩

/-- The name of a loop variable. -/
def loopVariable : Token :=
  ⟨.identifier, [105], 1⟩

/-- The loop that prints its variable, which is true at first and false after one round. -/
def printsOnce : Stmt :=
  .forLoop (some (.var loopVariable (some (.literal (.bool true))))) (some (.variable loopVariable))
    (some (.assign loopVariable (.literal (.bool false)))) (.print (.variable loopVariable))

/-- The grammar allows the loop. -/
theorem statement_printsOnce : ∃ tokens, Grammar.Statement .body tokens printsOnce := by
  let word (kind : Kind) : Token := ⟨kind, [], 1⟩
  have value : Grammar.Expression .assignment [loopVariable] (.variable loopVariable) :=
    .ofPrimary (.named rfl)
  have isTrue : Grammar.Expression .assignment [word .trueWord] (.literal (.bool true)) :=
    .ofPrimary (.literal (.true rfl))
  have isFalse : Grammar.Expression .assignment [word .falseWord] (.literal (.bool false)) :=
    .ofPrimary (.literal (.false rfl))
  have keyword : (word .varWord).kind = .varWord := rfl
  have equal : (word .equal).kind = .equal := rfl
  have semicolon : (word .semicolon).kind = .semicolon := rfl
  have printWord : (word .printWord).kind = .printWord := rfl
  have forWord : (word .forWord).kind = .forWord := rfl
  have opening : (word .leftParen).kind = .leftParen := rfl
  have closing : (word .rightParen).kind = .rightParen := rfl
  exact ⟨_, .forLoop forWord opening (.var (.initialized keyword rfl equal isTrue semicolon))
    (.present value) semicolon (.present (.assign rfl equal isFalse)) closing
    (.print printWord value semicolon)⟩

/-- The loop prints once and leaves no name behind. -/
theorem printsOnce_runs_directly :
    let context : Context := ⟨0, false, 1, Number.zero false, []⟩
    ∃ fuel after, execute fuel context printsOnce.node State.blank = .done () after ∧
      after.output = #[Text.ofString "true"] ∧ SameNames State.blank after := by
  intro context
  obtain ⟨tokens, statement⟩ := statement_printsOnce
  obtain ⟨direct, names, -⟩ := forLoop_runs_directly statement context State.nested_blank
  obtain ⟨after, ended, printed⟩ : ∃ after, runLoop 9 context
      (some (.var loopVariable (some (.literal (.bool true))))) (some (.variable loopVariable))
      (some (.assign loopVariable (.literal (.bool false)))) (.print (.variable loopVariable))
      State.blank = .done () after ∧ after.output = #[Text.ofString "true"] := ⟨_, rfl, rfl⟩
  obtain ⟨fuel, executed⟩ := (direct (.done () after) nofun).mpr ⟨9, ended⟩
  exact ⟨fuel, after, executed, printed, (names fuel after (Outcome.mem_last executed)).2⟩

end Lox
