import Lox.CommandLine.Run
import Lox.Proofs.Execution.Frame

/-!
# What a prompt answers

Lines typed at a prompt are answered one after another. As long as no line crashes, the prompt shows
its answers in order and then goes on with the rest. Whenever it waits for a line the global scope is
current, whatever the lines before have done.
-/

namespace Lox

/-- A session that waits for a line. -/
structure Session.AtPrompt (session : Session) : Prop extends State.Ready session.state where
  current : session.state.current = globals

/-- The global bindings of an earlier moment may be put back. -/
theorem State.Ready.restore {before after : State} (ready : after.Ready)
    (numbered : before.Numbered) (cells : before.nextCell ≤ after.nextCell) :
    ({ after with store := after.store.restore globals (before.store.snapshot globals) } :
      State).Ready where
  shared := ready.shared
  bound scope name cell isBound := by
    change ((after.store.modify globals fun _ => before.store.bindings globals).bindings scope).get?
      name = some cell at isBound
    rw [Store.bindings_modify] at isBound
    split at isBound
    · exact Nat.lt_of_lt_of_le (numbered.bound globals name cell isBound) cells
    · exact ready.bound scope name cell isBound
  hasGlobals := Nat.lt_of_lt_of_eq ready.hasGlobals (Store.size_modify _).symm
  outermost := (Store.enclosing?_modify _).trans ready.outermost

namespace CommandLine

/-- The answers to lines, one after another. -/
def answers (fuel : Nat) (session : Session) : List Text → List Answer
  | [] => []
  | line :: rest =>
    let answer := answerLine fuel session line
    answer :: answers fuel answer.session rest

/-- The session after some lines. -/
def sessionAfter (fuel : Nat) (session : Session) : List Text → Session
  | [] => session
  | line :: rest => sessionAfter fuel (answerLine fuel session line).session rest

/-- The line has ended, normally or with a runtime error or a diagnostic. -/
def Answer.GoesOn (answer : Answer) : Prop :=
  answer.ending = .finished ∨ ∃ error, answer.ending = .failed (.runtime error)

/-- What the prompt shows for a line, itself included. -/
def Answer.shown (answer : Answer) : Text :=
  promptText ++ Text.ofLines answer.stdout

/-- What the prompt reports for a line. -/
def Answer.reported (answer : Answer) : Text :=
  Text.ofLines answer.stderr

/-- A report that begins with something more. -/
def Report.behind (report : Report) (shown reported : Text) : Report :=
  { report with stdout := shown ++ report.stdout, stderr := reported ++ report.stderr }

/-- The answer to a line whose program has run. -/
def answerTo (session : Session) (outcome : Outcome Unit) : Answer :=
  match outcome with
  | .done _ after =>
    { session := { session with state := after }
      stdout := ({ session with state := after }.since session).output
      stderr := []
      ending := .finished }
  | .failed (.runtime error) after =>
    { session := Session.restore { session with state := after } session.snapshot
      stdout := ({ session with state := after }.since session).output
      stderr := [runtimeReport error]
      ending := .failed (.runtime error) }
  | .failed (.defect found) after =>
    { session := { session with state := after }
      stdout := ({ session with state := after }.since session).output
      stderr := []
      ending := .failed (.defect found) }
  | .unfinished =>
    { session := session, stdout := (session.since session).output, stderr := []
      ending := .unfinished }

variable {fuel : Nat} {session : Session} {line : Text}

/-- A line that cannot be read is answered with its diagnostic. -/
theorem answerLine_of_error {diagnostic : Diagnostic}
    (refused : Program.ofSource line.encode = .error diagnostic) :
    answerLine fuel session line =
      { session := session, stdout := [], stderr := [diagnostic.message], ending := .finished } := by
  unfold answerLine
  rw [refused]

/-- A line that can be read is answered as its program runs. -/
theorem answerLine_of_ok {program : Program} (isRead : Program.ofSource line.encode = .ok program) :
    answerLine fuel session line =
      answerTo session (program.run fuel session.context session.state) := by
  unfold answerLine Session.runUnit Session.run
  rw [isRead]
  dsimp only
  cases program.run fuel session.context session.state with
  | failed fault after => cases fault <;> rfl
  | _ => rfl

/-- What comes before comes first. -/
theorem Report.behind_behind (report : Report) (shown shown' reported reported' : Text) :
    (report.behind shown' reported').behind shown reported =
      report.behind (shown ++ shown') (reported ++ reported') := by
  unfold behind
  rw [List.append_assoc, List.append_assoc]

/-- The prompt goes on with the session that a line has left. -/
theorem runPrompt_cons (goesOn : (answerLine fuel session line).GoesOn) (rest : List Text) :
    runPrompt fuel session (line :: rest) =
      (runPrompt fuel (answerLine fuel session line).session rest).behind
        (answerLine fuel session line).shown (answerLine fuel session line).reported := by
  rw [runPrompt]
  obtain ended | ⟨error, ended⟩ := goesOn <;> simp only [ended] <;> rfl

/-- The prompt answers lines in order and goes on with the rest. -/
theorem runPrompt_append {before : List Text}
    (goesOn : ∀ answer ∈ answers fuel session before, answer.GoesOn) (rest : List Text) :
    runPrompt fuel session (before ++ rest) =
      (runPrompt fuel (sessionAfter fuel session before) rest).behind
        ((answers fuel session before).flatMap Answer.shown)
        ((answers fuel session before).flatMap Answer.reported) := by
  induction before generalizing session with
  | nil => rfl
  | cons line before ih =>
    have first : (answerLine fuel session line).GoesOn := goesOn _ List.mem_cons_self
    have others := ih fun answer member => goesOn answer (List.mem_cons_of_mem _ member)
    rw [List.cons_append, runPrompt_cons first, others, Report.behind_behind]
    rfl

/-- A session starts at the prompt. -/
theorem atPrompt_start (debugLevel : Nat) (now : Number) :
    (Session.start debugLevel now).AtPrompt :=
  ⟨Session.ready_start debugLevel now, rfl⟩

/-- After every line the session waits for another one. -/
theorem atPrompt_answerLine (atPrompt : session.AtPrompt) (fuel : Nat) (line : Text) :
    (answerLine fuel session line).session.AtPrompt := by
  cases isRead : Program.ofSource line.encode with
  | error diagnostic =>
    rw [answerLine_of_error isRead]
    exact atPrompt
  | ok program =>
    have kept := program.keepsFrame_run fuel session.context atPrompt.toReady
    rw [answerLine_of_ok isRead]
    generalize program.run fuel session.context session.state = outcome at kept ⊢
    cases outcome with
    | done result after => exact ⟨kept.1, kept.2.current.trans atPrompt.current⟩
    | failed fault after =>
      obtain ⟨ready, kept⟩ := kept
      cases fault with
      | runtime error =>
        exact ⟨ready.restore atPrompt.toNumbered kept.cells, kept.current.trans atPrompt.current⟩
      | defect found => exact ⟨ready, kept.current.trans atPrompt.current⟩
    | unfinished => exact atPrompt

/-- The session waits for another line after any number of them. -/
theorem atPrompt_sessionAfter (atPrompt : session.AtPrompt) (fuel : Nat) (lines : List Text) :
    (sessionAfter fuel session lines).AtPrompt := by
  induction lines generalizing session with
  | nil => exact atPrompt
  | cons line lines ih => exact ih (atPrompt_answerLine atPrompt fuel line)

/-- What a run is given does not depend on the lines before. -/
theorem context_answerLine (fuel : Nat) (session : Session) (line : Text) :
    (answerLine fuel session line).session.context = session.context := by
  cases isRead : Program.ofSource line.encode with
  | error diagnostic => rw [answerLine_of_error isRead]
  | ok program =>
    rw [answerLine_of_ok isRead]
    cases program.run fuel session.context session.state with
    | failed fault after => cases fault <;> rfl
    | _ => rfl

/-- What a run is given is the same after any number of lines. -/
theorem context_sessionAfter (fuel : Nat) (session : Session) (lines : List Text) :
    (sessionAfter fuel session lines).context = session.context := by
  induction lines generalizing session with
  | nil => rfl
  | cons line lines ih => exact (ih _).trans (context_answerLine fuel session line)

end CommandLine

end Lox
