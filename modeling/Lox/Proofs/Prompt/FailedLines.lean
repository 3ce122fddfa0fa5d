import Lox.Proofs.Execution.TwinRuns
import Lox.Proofs.Prompt.Answers

/-!
# Failed lines leave no trace

A line that cannot be read or ends in a runtime error puts the global bindings back. It may have
assigned and declared global names and opened any scopes before, so more than these bindings could
have changed. But nothing else matters to the lines behind it: the session without the failed line is
a twin, and they are answered alike in both.
-/

namespace Lox.CommandLine

open Pairing State

/-- A line that cannot be read or ends in a runtime error. -/
def Fails (fuel : Nat) (session : Session) (line : Text) : Prop :=
  (∃ diagnostic, Program.ofSource line.encode = .error diagnostic) ∨
    ∃ error, (answerLine fuel session line).ending = .failed (.runtime error)

section

variable {fuel : Nat} {session : Session} {line : Text}

/-- A line that fails is one that cannot be read or whose program ends in a runtime error. -/
theorem Fails.cases (fails : Fails fuel session line) :
    (∃ diagnostic, Program.ofSource line.encode = .error diagnostic) ∨
      ∃ program error after, Program.ofSource line.encode = .ok program ∧
        program.run fuel session.context session.state = .failed (.runtime error) after := by
  obtain refused | ⟨error, ended⟩ := fails
  · exact .inl refused
  · cases isRead : Program.ofSource line.encode with
    | error diagnostic => exact .inl ⟨diagnostic, rfl⟩
    | ok program =>
      rw [answerLine_of_ok isRead] at ended
      cases isOutcome : program.run fuel session.context session.state with
      | done result after =>
        rw [isOutcome] at ended
        cases ended
      | failed fault after =>
        rw [isOutcome] at ended
        cases fault with
        | runtime other => exact .inr ⟨program, other, after, rfl, isOutcome⟩
        | defect found => cases ended
      | unfinished =>
        rw [isOutcome] at ended
        cases ended

/-- The prompt goes on after a failed line. -/
theorem Fails.goesOn (fails : Fails fuel session line) : (answerLine fuel session line).GoesOn := by
  obtain ⟨diagnostic, refused⟩ | ended := fails
  · rw [answerLine_of_error refused]
    exact .inl rfl
  · exact .inr ended

/-- A failed line is reported in one line. -/
theorem Fails.stderr_eq (fails : Fails fuel session line) :
    ∃ message, (answerLine fuel session line).stderr = [message] := by
  obtain ⟨diagnostic, refused⟩ | ⟨program, error, after, isRead, ended⟩ := fails.cases
  · exact ⟨diagnostic.message, by rw [answerLine_of_error refused]⟩
  · exact ⟨runtimeReport error, by rw [answerLine_of_ok isRead, ended]; rfl⟩

/-- The global bindings after a failed line are those before it. -/
theorem Fails.snapshot_eq (fails : Fails fuel session line) (ready : session.state.Ready) :
    (answerLine fuel session line).session.snapshot = session.snapshot := by
  obtain ⟨diagnostic, refused⟩ | ⟨program, error, after, isRead, ended⟩ := fails.cases
  · rw [answerLine_of_error refused]
  · have kept := program.keepsFrame_run fuel session.context ready
    rw [ended] at kept
    rw [answerLine_of_ok isRead, ended]
    change (after.store.modify globals fun _ => session.snapshot).bindings globals = _
    rw [Store.bindings_modify, if_pos ⟨rfl, kept.1.hasGlobals⟩]

end

/-- Two lines are answered alike: the same is printed and reported, they end alike, and the same names
are global afterwards, with the same values in cells that were there at the start of both or are
equally new. -/
structure Answer.Alike (start start' : State) (answer answer' : Answer) : Prop where
  stdout : answer.stdout = answer'.stdout
  stderr : answer.stderr = answer'.stderr
  ending : answer.ending = answer'.ending
  globals : ∀ name, Option.Rel (SameCell start.nextCell start'.nextCell)
    (answer.session.snapshot.get? name) (answer'.session.snapshot.get? name)

/-- Two lines are answered alike and leave twins at the prompt. -/
structure Answer.Twin (start start' : State) (answer answer' : Answer) : Prop where
  stdout : answer.stdout = answer'.stdout
  stderr : answer.stderr = answer'.stderr
  ending : answer.ending = answer'.ending
  states : Alongside start start' answer.session.state answer'.session.state

variable {fuel : Nat} {session session' : Session} {start start' : State}

/-- Answers that leave twins are alike. -/
theorem Answer.Twin.alike {answer answer' : Answer} (twin : Twin start start' answer answer') :
    Alike start start' answer answer' where
  stdout := twin.stdout
  stderr := twin.stderr
  ending := twin.ending
  globals := (twin.states.alike _ _ (sameScope_globals _ _)).bound

/-- Twins have printed the same since any moment at which they were twins. -/
theorem printed_eq {left right after after' : State} (twins : Twins start start' left right)
    (twins' : Twins start start' after after') :
    after.output.toList.drop left.output.size = after'.output.toList.drop right.output.size := by
  obtain ⟨lines, printed, printed'⟩ := twins.output
  obtain ⟨more, output, output'⟩ := twins'.output
  have added (before : Array Text) : (before ++ more).toList.drop (before ++ lines).size =
      more.toList.drop lines.size := by
    rw [Array.toList_append, Array.size_append, ← Array.length_toList]
    exact List.drop_length_add_append _
  rw [printed, printed', output, output', added, added]

/-- Runs in step are answered alike. -/
theorem answerTo_twin (ready : start.Ready) (ready' : start'.Ready)
    (states : Alongside start start' session.state session'.state)
    {outcome outcome' : Outcome Unit}
    (ends : (twinPairing start start').Ends session.state session'.state anyResults outcome
      outcome') :
    Answer.Twin start start' (answerTo session outcome) (answerTo session' outcome') := by
  cases ends with
  | done after _ _ => exact ⟨printed_eq states.toTwins after.toTwins, rfl, rfl, after⟩
  | @failed fault _ _ after _ =>
    have printed := printed_eq states.toTwins after.toTwins
    cases fault with
    | runtime error =>
      refine ⟨printed, rfl, rfl, ?_⟩
      exact after.modify ready ready' (sameScope_globals _ _)
        (states.alike _ _ (sameScope_globals _ _)).bound
    | defect found => exact ⟨printed, rfl, rfl, after⟩
  | unfinished => exact ⟨printed_eq states.toTwins states.toTwins, rfl, rfl, states⟩

/-- A line is answered alike by twins. -/
theorem answerLine_twin (ready : start.Ready) (ready' : start'.Ready)
    (same : session.context = session'.context)
    (states : Alongside start start' session.state session'.state) (fuel : Nat) (line : Text) :
    Answer.Twin start start' (answerLine fuel session line) (answerLine fuel session' line) := by
  cases isRead : Program.ofSource line.encode with
  | error diagnostic =>
    rw [answerLine_of_error isRead, answerLine_of_error isRead]
    exact ⟨rfl, rfl, rfl, states⟩
  | ok program =>
    have ends := (twinSimulation ready ready' session.context).run fuel session.context.callsLeft
      program session.state session'.state states
    rw [answerLine_of_ok isRead, answerLine_of_ok isRead, ← same]
    exact answerTo_twin ready ready' states ends

/-- Lines are answered alike by twins, one after another. -/
theorem answers_alike (ready : start.Ready) (ready' : start'.Ready)
    (same : session.context = session'.context)
    (states : Alongside start start' session.state session'.state) (lines : List Text) :
    List.Forall₂ (Answer.Alike start start') (answers fuel session lines)
      (answers fuel session' lines) := by
  induction lines generalizing session session' with
  | nil => exact .nil
  | cons line lines ih =>
    have twin := answerLine_twin ready ready' same states fuel line
    have sameNext : (answerLine fuel session line).session.context =
        (answerLine fuel session' line).session.context := by
      rw [context_answerLine, context_answerLine, same]
    exact .cons twin.alike (ih sameNext twin.states)

/-- Without a trace there is no file. -/
theorem debugOutput_eq_nil (silent : session.context.debugLevel = 0) : debugOutput session = [] :=
  if_neg (Nat.not_lt_of_le (Nat.le_of_eq silent))

/-- The prompt shows the same for twins. -/
theorem runPrompt_eq (ready : start.Ready) (ready' : start'.Ready)
    (same : session.context = session'.context) (silent : session.context.debugLevel = 0)
    (states : Alongside start start' session.state session'.state) (lines : List Text) :
    runPrompt fuel session lines = runPrompt fuel session' lines := by
  induction lines generalizing session session' with
  | nil => rw [runPrompt, runPrompt, debugOutput_eq_nil silent, debugOutput_eq_nil (same ▸ silent)]
  | cons line lines ih =>
    have twin := answerLine_twin ready ready' same states fuel line
    have next := context_answerLine fuel session line
    have next' := context_answerLine fuel session' line
    have goOn := ih (next.trans (same.trans next'.symm)) (next ▸ silent) twin.states
    have silently := debugOutput_eq_nil (next ▸ silent)
    have silently' := debugOutput_eq_nil (next' ▸ same ▸ silent)
    rw [runPrompt, runPrompt, twin.stdout, twin.stderr, twin.ending, goOn, silently, silently']

/-- A failed line leaves no trace. The global bindings are as before, and the global scope is current.
The lines behind it are answered alike with and without it, one by one. The prompt shows and reports
the same but for what it shows and reports for the failed line, and goes on. -/
theorem failed_line_leaves_no_trace {now : Number} {before : List Text} {line : Text}
    (goesOn : ∀ answer ∈ answers fuel (Session.start 0 now) before, answer.GoesOn)
    (fails : Fails fuel (sessionAfter fuel (Session.start 0 now) before) line)
    (rest : List Text) :
    let session := sessionAfter fuel (Session.start 0 now) before
    let failed := answerLine fuel session line
    let shown := (answers fuel (Session.start 0 now) before).flatMap Answer.shown
    let reported := (answers fuel (Session.start 0 now) before).flatMap Answer.reported
    failed.session.snapshot = session.snapshot ∧
      session.state.current = globals ∧ failed.session.state.current = globals ∧
      (∃ message, failed.stderr = [message]) ∧
      List.Forall₂ (Answer.Alike failed.session.state session.state)
        (answers fuel failed.session rest) (answers fuel session rest) ∧
      runPrompt fuel (Session.start 0 now) (before ++ rest) =
        (runPrompt fuel session rest).behind shown reported ∧
      runPrompt fuel (Session.start 0 now) (before ++ line :: rest) =
        ((runPrompt fuel session rest).behind failed.shown failed.reported).behind shown reported := by
  intro session failed shown reported
  have waits : session.AtPrompt := atPrompt_sessionAfter (atPrompt_start 0 now) fuel before
  have waitsAgain : failed.session.AtPrompt := atPrompt_answerLine waits fuel line
  have sameGlobals : failed.session.snapshot = session.snapshot := fails.snapshot_eq waits.toReady
  have sameContext : failed.session.context = session.context := context_answerLine fuel session line
  have silent : session.context.debugLevel = 0 :=
    congrArg Context.debugLevel (context_sessionAfter fuel (Session.start 0 now) before)
  have states : Alongside failed.session.state session.state failed.session.state session.state := by
    refine ⟨twins_of_agree waitsAgain.toReady waits.toReady fun name => ?_, ?_, ?_⟩
    · exact congrArg (Bindings.get? · name) sameGlobals
    · rw [waitsAgain.current, waits.current]
      exact sameScope_globals _ _
    · rw [waitsAgain.current]
      exact waitsAgain.hasGlobals
  have sameRest : runPrompt fuel failed.session rest = runPrompt fuel session rest :=
    runPrompt_eq waitsAgain.toReady waits.toReady sameContext (sameContext ▸ silent) states rest
  refine ⟨sameGlobals, waits.current, waitsAgain.current, fails.stderr_eq, ?_, ?_, ?_⟩
  · exact answers_alike waitsAgain.toReady waits.toReady sameContext states rest
  · exact runPrompt_append goesOn rest
  · rw [runPrompt_append goesOn, runPrompt_cons fails.goesOn, sameRest]

/-- A line that assigns a variable before it fails is taken back, and printing the variable behind it
shows what the session without the line shows. -/
theorem failed_assignment_taken_back :
    let start := Session.start 0 (Number.zero false)
    let session := sessionAfter 9 start ["var a;"]
    (answerLine 9 session "a = true; b;").session.snapshot = session.snapshot ∧
      runPrompt 9 start ["var a;", "a = true; b;", "print a;"] =
        ((runPrompt 9 session ["print a;"]).behind "> "
          "Runtime error: line 1: Undefined variable 'b'.\n").behind "> " "" := by
  intro start session
  have goesOn : ∀ answer ∈ answers 9 start ["var a;"], answer.GoesOn := by
    intro answer member
    obtain rfl := List.mem_singleton.mp member
    exact .inl rfl
  have fails : Fails 9 session "a = true; b;" := .inr ⟨⟨.undefinedVariable "b", 1⟩, rfl⟩
  have noTrace := failed_line_leaves_no_trace goesOn fails ["print a;"]
  exact ⟨noTrace.1, noTrace.2.2.2.2.2.2⟩

end Lox.CommandLine
