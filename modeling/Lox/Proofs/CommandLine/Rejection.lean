import Lox.CommandLine.Host
import Lox.Proofs.CommandLine.Emission
import Lox.Proofs.Prompt.Answers

/-!
# Rejected input has no effect

A run reads its source or its tree as a whole before it opens a file, prints anything or executes a
statement. So whatever is wrong with the input, a run that is refused for it prints nothing and leaves all
files as they were, those of traces and trees among them. A session at the prompt is left as it was, and
the next line is answered.

A refused script ends with its diagnostic, which a host gets back instead of a session. A refused tree
ends in a crash.
-/

namespace Lox.CommandLine

/-- Nothing is printed to standard output, and no file is written. -/
structure Report.HasNoEffect (report : Report) : Prop where
  stdout : report.stdout = []
  written : report.written = []

/-- The report of a script with an error that its diagnostic names. -/
def Report.ofDiagnostic (diagnostic : Diagnostic) : Report :=
  { exit := .status 1, stdout := [], stderr := diagnostic.message ++ [.char '\n'], written := [] }

/-- What is around is the same after a run without effect. -/
theorem Surroundings.after_of_hasNoEffect (around : Surroundings) {report : Report}
    (noEffect : report.HasNoEffect) : around.after report = around := by
  rw [Surroundings.after, noEffect.written]
  rfl

section

variable {fuel : Nat} {around : Surroundings} {path : Path} {report : Report}
  {arguments : List Text} {verbosity : Nat}

/-- A file that cannot be read is reported without effect. -/
theorem hasNoEffect_of_contentOf (unread : contentOf around path = .error report) :
    report.HasNoEffect := by
  unfold contentOf at unread
  split at unread <;> cases unread <;> exact ⟨rfl, rfl⟩

/-- A script that cannot be read as a program is reported without effect, whatever is wrong with it. -/
theorem hasNoEffect_of_readSource (refused : readSource around path = .error report) :
    report.HasNoEffect := by
  unfold readSource at refused
  cases content : contentOf around path with
  | error report' =>
    rw [content] at refused
    cases refused
    exact hasNoEffect_of_contentOf content
  | ok source =>
    rw [content] at refused
    dsimp only [bind, Except.bind] at refused
    split at refused <;> cases refused
    exact ⟨rfl, rfl⟩

/-- A tree that cannot be read as a program is reported without effect, whatever is wrong with it. -/
theorem hasNoEffect_of_readTree (refused : readTree around path = .error report) :
    report.HasNoEffect := by
  unfold readTree at refused
  cases content : contentOf around path with
  | error report' =>
    rw [content] at refused
    cases refused
    exact hasNoEffect_of_contentOf content
  | ok bytes =>
    rw [content] at refused
    dsimp only [bind, Except.bind] at refused
    split at refused
    · cases refused
      exact ⟨rfl, rfl⟩
    · split at refused
      · cases refused
        exact ⟨rfl, rfl⟩
      · next object _ =>
        cases loaded : Program.load object with
        | ok program =>
          rw [loaded] at refused
          cases refused
        | error failure =>
          rw [loaded] at refused
          cases refused
          exact ⟨rfl, rfl⟩

/-- A run that is asked to run a script, or to emit its tree, ends with the report that refuses it. -/
theorem run_of_readSource_error (refused : readSource around path = .error report)
    (asked : Invocation.ofArguments? arguments = some ⟨verbosity, .script path⟩ ∨
      Invocation.ofArguments? arguments = some ⟨verbosity, .emit path⟩) :
    run fuel around arguments = report := by
  obtain asked | asked := asked <;>
    simp only [run, asked, runInvocation, refused, bind, Except.bind, reportOf]

/-- A run that is asked to run a tree ends with the report that refuses it. -/
theorem run_of_readTree_error (refused : readTree around path = .error report)
    (asked : Invocation.ofArguments? arguments = some ⟨verbosity, .load path⟩) :
    run fuel around arguments = report := by
  simp only [run, asked, runInvocation, refused, bind, Except.bind, reportOf]

/-- A refused source in a file is refused with its diagnostic. -/
theorem readSource_of_error {source : List UInt8} {diagnostic : Diagnostic}
    (refused : Program.ofSource source = .error diagnostic)
    (isFile : around.entry path = .file source) :
    readSource around path = .error (.ofDiagnostic diagnostic) := by
  simp [readSource, contentOf, isFile, refused, bind, Except.bind, Report.refused,
    Report.ofDiagnostic, Text.ofLines]

/-- A refused tree in a file is refused with what is wrong with it. -/
theorem readTree_of_error {content : List UInt8} {text : Text} {tree : Json} {failure : LoadError}
    (refused : Program.load tree = .error failure) (isText : Text.read content = .ok text)
    (isTree : Json.read text = .ok tree) (isFile : around.entry path = .file content) :
    readTree around path = .error (.crashed (.load failure)) := by
  simp [readTree, contentOf, isFile, isText, isTree, refused, bind, Except.bind, Except.mapError]

/-- The prompt answers a refused line with its diagnostic and goes on with the session as it was. -/
theorem runPrompt_of_error {line : Text} {diagnostic : Diagnostic}
    (refused : Program.ofSource line.encode = .error diagnostic) (session : Session)
    (rest : List Text) :
    runPrompt fuel session (line :: rest) =
      (runPrompt fuel session rest).behind promptText (diagnostic.message ++ [.char '\n']) := by
  have answered := @answerLine_of_error fuel session line diagnostic refused
  have goesOn : (answerLine fuel session line).GoesOn := .inl (by rw [answered])
  rw [runPrompt_cons goesOn, answered]
  simp [Answer.shown, Answer.reported, Text.ofLines]

end

/-- Rejected input has no effect. For a source that is refused, running it as a script at any verbosity and
emitting its tree end with status 1, print the diagnostic and a line break to standard error alone, and
write no file; a host gets the diagnostic back; and at the prompt the session stays as it was, and the next
line is answered. A run of a refused tree crashes and leaves no trace, either. -/
theorem rejected_input_has_no_effect (fuel : Nat) (around : Surroundings) :
    (∀ source diagnostic, Program.ofSource source = .error diagnostic →
      (∀ arguments verbosity path, around.entry path = .file source →
        (Invocation.ofArguments? arguments = some ⟨verbosity, .script path⟩ ∨
          Invocation.ofArguments? arguments = some ⟨verbosity, .emit path⟩) →
        run fuel around arguments =
            { exit := .status 1, stdout := [], stderr := diagnostic.message ++ [.char '\n'],
              written := [] } ∧
          around.after (run fuel around arguments) = around) ∧
      (∀ verbosity, runSource fuel around verbosity source =
        { handback := .refused diagnostic, output := [], written := [] }) ∧
      (∀ verbosity path, around.entry path = .file source →
        runFile fuel around verbosity path =
          { handback := .refused diagnostic, output := [], written := [] }) ∧
      ∀ session line rest, line.encode = source →
        answerLine fuel session line =
            { session := session, stdout := [], stderr := [diagnostic.message],
              ending := .finished } ∧
          runPrompt fuel session (line :: rest) =
            (runPrompt fuel session rest).behind promptText (diagnostic.message ++ [.char '\n'])) ∧
    ∀ tree failure, Program.load tree = .error failure →
      ∀ arguments verbosity path content text, around.entry path = .file content →
        Text.read content = .ok text → Json.read text = .ok tree →
        Invocation.ofArguments? arguments = some ⟨verbosity, .load path⟩ →
        run fuel around arguments =
            { exit := .crash (.load failure), stdout := [], stderr := [], written := [] } ∧
          around.after (run fuel around arguments) = around := by
  constructor
  · intro source diagnostic refused
    have hosted (verbosity : Nat) : runSource fuel around verbosity source =
        { handback := .refused diagnostic, output := [], written := [] } := by
      rw [runSource, refused]
    refine ⟨?commandLine, hosted, ?file, ?prompt⟩
    case commandLine =>
      intro arguments verbosity path isFile asked
      have unread := readSource_of_error refused isFile
      rw [run_of_readSource_error unread asked]
      exact ⟨rfl, around.after_of_hasNoEffect (hasNoEffect_of_readSource unread)⟩
    case file =>
      intro verbosity path isFile
      rw [runFile, isFile]
      exact hosted verbosity
    case prompt =>
      rintro session line rest rfl
      exact ⟨answerLine_of_error refused, runPrompt_of_error refused session rest⟩
  · intro tree failure refused arguments verbosity path content text isFile isText isTree asked
    have unread := readTree_of_error refused isText isTree isFile
    rw [run_of_readTree_error unread asked]
    exact ⟨rfl, around.after_of_hasNoEffect (hasNoEffect_of_readTree unread)⟩

/-- An assignment to nil is refused wherever it comes from, and so is a tree that is a number. -/
theorem assignment_to_nil_refused :
    (let source := Text.encode "nil = a;"
      let message := Text.ofString "[line 1] Error at '=': Invalid assignment target.\n"
      let report : Report := { exit := .status 1, stdout := [], stderr := message, written := [] }
      run 9 (besideScript source) ["-vv", "a.lox"] = report ∧
      run 9 (besideScript source) ["--emit-ast", "a.lox"] = report ∧
      (runSource 9 (besideScript source) 3 source).output = [] ∧
      (runPrompt 9 (Session.start 1 (Number.zero false)) ["nil = a;"]).stderr = message) ∧
    ∃ failure, run 9 (besideScript (Text.encode "1")) ["-v", "--ast", "a.lox"] =
      { exit := .crash (.load failure), stdout := [], stderr := [], written := [] } := by
  constructor
  · intro source message report
    have refused : Program.ofSource source = .error (.invalidTarget ⟨.equal, Text.encode "=", 1⟩) := rfl
    have isFile : (besideScript source).entry (Path.ofText "a.lox") = .file source := rfl
    obtain ⟨commandLine, host, -, prompt⟩ :=
      (rejected_input_has_no_effect 9 (besideScript source)).1 source _ refused
    have script := commandLine ["-vv", "a.lox"] 2 _ isFile (.inl rfl)
    have emitted := commandLine ["--emit-ast", "a.lox"] 0 _ isFile (.inr rfl)
    have answered := prompt (Session.start 1 (Number.zero false)) "nil = a;" [] rfl
    exact ⟨script.1, emitted.1, congrArg HostReport.output (host 3), congrArg Report.stderr answered.2⟩
  · have isFile : (besideScript (Text.encode "1")).entry (Path.ofText "a.lox") =
        .file (Text.encode "1") := rfl
    obtain ⟨crashed, -⟩ := (rejected_input_has_no_effect 9 _).2 (.integer 1) _ rfl
      ["-v", "--ast", "a.lox"] 1 _ _ "1" isFile rfl rfl rfl
    exact ⟨_, crashed⟩

end Lox.CommandLine
