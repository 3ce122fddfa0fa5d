import Lox.CommandLine.Run
import Lox.Proofs.Grammar.Origins
import Lox.Proofs.Node.RoundTrip
import Lox.Proofs.Reading.Exactness
import Lox.Proofs.Token.Ascii
import Lox.Proofs.Token.Lines

/-!
# Emitting a tree and running it

The tree that is emitted for a script runs as the script does: with one exit status, the same
output and errors, and the same trace. It can be emitted exactly if no string literal of the script
holds a stray byte, because tree files hold characters only; otherwise emitting ends in a crash.

The way goes over the text of a file. The tree is written with characters alone, its text is read
back as the value that it was written from, and this loads as the program of the source.
-/

namespace Lox

/-- The tokens that a program keeps are tokens of its source. -/
theorem Program.tokens_subset {source : List UInt8} {program : Program}
    (accepted : Program.ofSource source = .ok program) :
    Node.tokensOfList program ⊆ Grammar.kept (tokens source) := by
  obtain ⟨tree, isRead, rfl⟩ := (Source.ofSource_eq_ok_iff source program).mp accepted
  obtain ⟨⟨isProgram, -⟩, -⟩ := (Source.read_eq_ok_iff source tree).mp isRead
  obtain ⟨last, whole, -, -⟩ := tokens_eq source
  intro token isToken
  have isKept := isProgram.tokens_subset isToken
  rw [Grammar.mem_kept] at isKept ⊢
  exact ⟨whole ▸ List.mem_append_left _ isKept.1, isKept.2⟩

/-- The lines of a source that is not immensely long have few digits. -/
theorem Program.areShort_toJson {source : List UInt8} {program : Program}
    (accepted : Program.ofSource source = .ok program)
    (isShort : source.length + 1 < 10 ^ Json.maxDigits) :
    Json.AreShort program.toJson.integers := by
  intro line isLine
  rw [Program.integers_toJson] at isLine
  obtain ⟨token, isToken, rfl⟩ := List.mem_map.mp isLine
  have isKept := Program.tokens_subset accepted isToken
  exact (line_of_mem_tokens (Grammar.mem_kept.mp isKept).1).trans_lt isShort

/-- The stored program of a source holds only characters where its string literals do. -/
theorem Program.allOnlyChars_of_ofSource {source : List UInt8} {program : Program}
    (accepted : Program.ofSource source = .ok program) :
    AllOnlyChars program.toJson.texts ↔ AllOnlyChars (Node.stringsOfList program) := by
  rw [Program.allOnlyChars_toJson]
  refine and_iff_right fun text isText => ?_
  obtain ⟨token, isToken, rfl⟩ := List.mem_map.mp isText
  have isKept := Grammar.mem_kept.mp (Program.tokens_subset accepted isToken)
  exact onlyChars_of_mem_tokens isKept.1 isKept.2

/-- The text of a stored program is read and loaded as the program. -/
theorem Program.load_read_render {source : List UInt8} {program : Program}
    (accepted : Program.ofSource source = .ok program)
    (isShort : source.length + 1 < 10 ^ Json.maxDigits) (layout : Json.Layout) :
    Json.read (program.toJson.render layout 0) = .ok program.toJson ∧
      Program.load program.toJson = .ok program :=
  ⟨Json.read_render layout _ (Program.areShort_toJson accepted isShort), Program.load_toJson program⟩

namespace CommandLine

/-- What is around after a run: the files that it has written, and what was there. -/
def Surroundings.after (around : Surroundings) (report : Report) : Surroundings :=
  { around with
    entry := fun path =>
      match report.written.reverse.lookup path with
      | some text => .file text.encode
      | none => around.entry path }

/-- The file of a tree is not the file of a trace. -/
theorem treeFile_ne_debugFile (path : Path) : treeFile path ≠ debugFile := by
  intro same
  have parts : (treeFile path).parts = [Text.ofString "debug.txt"] := by
    rw [same]
    rfl
  unfold treeFile Path.extend at parts
  split at parts
  · next noLast =>
    rw [parts] at noLast
    cases noLast
  · next last _ =>
    have ending := congrArg (fun parts => parts.getLast?.bind List.getLast?) parts
    rw [List.getLast?_append] at ending
    simp [Text.ofString, Text.ofChars] at ending

section

variable {fuel : Nat} {around : Surroundings} {path : Path} {source : List UInt8}
  {program : Program} {arguments : List Text} {verbosity : Nat}

variable (around) in
/-- After a run that wrote one file that file holds the text, and nothing else has changed. -/
theorem entry_after {report : Report} {target : Path} {text : Text}
    (written : report.written = [(target, text)]) (other : Path) :
    (around.after report).entry other =
      if other = target then .file text.encode else around.entry other := by
  unfold Surroundings.after
  dsimp only
  rw [written]
  by_cases isTarget : other = target
  · simp [isTarget]
  · simp [List.lookup_cons, isTarget, beq_eq_false_iff_ne.mpr isTarget]

/-- A script that is accepted is read as its program. -/
theorem readSource_eq_ok (isFile : around.entry path = .file source)
    (accepted : Program.ofSource source = .ok program) : readSource around path = .ok program := by
  simp [readSource, contentOf, isFile, accepted, bind, Except.bind]

/-- A tree of characters is read from its file as its program. -/
theorem readTree_eq_ok (accepted : Program.ofSource source = .ok program)
    (isShort : source.length + 1 < 10 ^ Json.maxDigits)
    (onlyChars : AllOnlyChars (Node.stringsOfList program))
    (isFile : around.entry path = .file (program.toJson.render .indented 0).encode) :
    readTree around path = .ok program := by
  have written : (program.toJson.render .indented 0).OnlyChars :=
    Json.onlyChars_render .indented 0 _ ((Program.allOnlyChars_of_ofSource accepted).mpr onlyChars)
  obtain ⟨isRead, isLoaded⟩ := Program.load_read_render accepted isShort .indented
  simp [readTree, contentOf, isFile, bind, Except.bind, Text.read_encode written, isRead, isLoaded,
    Except.mapError]

/-- A run that is asked for a tree emits the tree of the script. -/
theorem run_emit (isFile : around.entry path = .file source)
    (accepted : Program.ofSource source = .ok program)
    (writable : allowWriting around (treeFile path) = .ok ())
    (asked : Invocation.ofArguments? arguments = some ⟨verbosity, .emit path⟩) :
    run fuel around arguments = emitTree (treeFile path) program := by
  simp [run, asked, runInvocation, readSource_eq_ok isFile accepted, writable, bind, Except.bind,
    reportOf]

/-- Runs of a script and of a tree that stand for one program are alike, wherever a trace can be
written for both or for none. -/
theorem run_load_eq_run_script {other : Surroundings} {target : Path} {arguments' : List Text}
    (isTree : readTree other target = .ok program)
    (isScript : readSource around path = .ok program)
    (sameTrace : other.entry debugFile = around.entry debugFile) (sameTime : other.now = around.now)
    (asked : Invocation.ofArguments? arguments = some ⟨verbosity, .load target⟩)
    (asked' : Invocation.ofArguments? arguments' = some ⟨verbosity, .script path⟩) :
    run fuel other arguments = run fuel around arguments' := by
  have sameStart : startSession other verbosity = startSession around verbosity := by
    simp only [startSession, allowWriting, sameTrace, sameTime]
  simp only [run, asked, asked', runInvocation, isTree, isScript, sameStart]

variable (fuel) in
/-- For a script that is accepted and whose tree file can be written, emitting the tree succeeds
if no string literal holds a stray byte, and running the emitted tree is running the script, with
the same status, output, errors and trace. If a string literal holds one, emitting crashes. -/
theorem emitted_tree_runs_as_script {emitArguments loadArguments scriptArguments : List Text}
    {level : Nat} (isFile : around.entry path = .file source)
    (accepted : Program.ofSource source = .ok program)
    (isShort : source.length + 1 < 10 ^ Json.maxDigits)
    (writable : allowWriting around (treeFile path) = .ok ())
    (emits : Invocation.ofArguments? emitArguments = some ⟨level, .emit path⟩)
    (loads : Invocation.ofArguments? loadArguments = some ⟨verbosity, .load (treeFile path)⟩)
    (runs : Invocation.ofArguments? scriptArguments = some ⟨verbosity, .script path⟩) :
    let emitted := run fuel around emitArguments
    (AllOnlyChars (Node.stringsOfList program) →
      emitted =
          { exit := .status 0, stdout := Text.ofLines [(treeFile path).text], stderr := [],
            written := [(treeFile path, program.toJson.render .indented 0)] } ∧
        run fuel (around.after emitted) loadArguments = run fuel around scriptArguments) ∧
    (¬AllOnlyChars (Node.stringsOfList program) →
      ∃ error, emitted.exit = .crash (.storage error) ∧ emitted.stdout = []) := by
  intro emitted
  have isEmitted : emitted = emitTree (treeFile path) program :=
    run_emit isFile accepted writable emits
  have writableStrings := Json.findSome?_storageError? program.toJson.texts
  rw [Program.allOnlyChars_of_ofSource accepted] at writableStrings
  constructor
  · intro onlyChars
    have report : emitted =
        { exit := .status 0, stdout := Text.ofLines [(treeFile path).text], stderr := [],
          written := [(treeFile path, program.toJson.render .indented 0)] } := by
      rw [isEmitted, emitTree, writableStrings.mpr onlyChars]
    refine ⟨report, ?_⟩
    have entries := entry_after around (congrArg Report.written report)
    refine run_load_eq_run_script (readTree_eq_ok accepted isShort onlyChars ?_)
      (readSource_eq_ok isFile accepted) ?_ rfl loads runs
    · rw [entries, if_pos rfl]
    · rw [entries, if_neg (treeFile_ne_debugFile path).symm]
  · intro hasStray
    cases found : program.toJson.texts.findSome? fun value => (Json.quoted value).storageError? with
    | none => exact absurd (writableStrings.mp found) hasStray
    | some error =>
      rw [isEmitted, emitTree, found]
      exact ⟨error, rfl, rfl⟩

end

/-- A directory with one script and nothing else. -/
def besideScript (source : List UInt8) : Surroundings where
  entry path := if path = Path.ofText "a.lox" then .file source else .missing
  input := []
  now := Number.zero false

/-- The source that prints a string of one byte. -/
def printsByte (byte : UInt8) : List UInt8 :=
  Text.encode "print \"" ++ byte :: Text.encode "\";"

/-- A printed letter is emitted, and running the tree prints it. A printed byte that belongs to no
character makes emitting crash. -/
theorem only_printed_letter_emitted :
    (let around := besideScript (printsByte 97)
      let emitted := run 9 around ["--emit-ast", "a.lox"]
      emitted.exit = .status 0 ∧
        (run 9 (around.after emitted) ["--ast", "a.lox.ast.json"]).stdout = "a\n") ∧
      ∃ error,
        (run 9 (besideScript (printsByte 255)) ["--emit-ast", "a.lox"]).exit =
          .crash (.storage error) := by
  have emits : Invocation.ofArguments? ["--emit-ast", "a.lox"] =
      some ⟨0, .emit (Path.ofText "a.lox")⟩ := rfl
  have loads : Invocation.ofArguments? ["--ast", "a.lox.ast.json"] =
      some ⟨0, .load (treeFile (Path.ofText "a.lox"))⟩ := rfl
  have runs : Invocation.ofArguments? ["a.lox"] = some ⟨0, .script (Path.ofText "a.lox")⟩ := rfl
  constructor
  · intro around emitted
    have isFile : around.entry (Path.ofText "a.lox") = .file (printsByte 97) := rfl
    have accepted : Program.ofSource (printsByte 97) = .ok [.print (.literal (.text "a"))] := rfl
    have onlyChars : AllOnlyChars [Text.ofString "a"] := by simp
    obtain ⟨report, same⟩ := (emitted_tree_runs_as_script 9 isFile accepted (by decide +kernel) rfl
      emits loads runs).1 onlyChars
    exact ⟨congrArg Report.exit report, (congrArg Report.stdout same).trans rfl⟩
  · have isFile : (besideScript (printsByte 255)).entry (Path.ofText "a.lox") =
        .file (printsByte 255) := rfl
    have accepted : Program.ofSource (printsByte 255) =
        .ok [.print (.literal (.text [.stray 255]))] := rfl
    have hasStray : ¬AllOnlyChars [[Symbol.stray 255]] := by simp [Symbol.isChar]
    obtain ⟨error, crashed, -⟩ := (emitted_tree_runs_as_script 9 isFile accepted
      (by decide +kernel) rfl emits loads runs).2 hasStray
    exact ⟨error, crashed⟩

end CommandLine

end Lox
