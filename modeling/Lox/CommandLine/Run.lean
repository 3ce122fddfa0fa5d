import Lox.CommandLine.Arguments
import Lox.Execution.Session
import Lox.Json.Reader
import Lox.Node.Load
import Lox.Source.Program
import Lox.Text.Strict

/-!
# Running the command line

A run takes arguments, the files it may read and the lines typed at the prompt, and gives an exit
status, what it writes to the two standard streams, and the files it writes. Nothing runs before
the whole script or tree has been read, so a refused one leaves no trace. Runtime errors and
diagnostics are reported; a fault that no source can cause ends the program without a status.
-/

namespace Lox.CommandLine

/-- Why the program ends without a status. -/
inductive Crash where
  | fault (fault : Fault)
  | load (error : LoadError)
  | json (error : Json.ReadError)
  | storage (error : StorageError)
  | directory (path : Path)
  | tooLong (path : Path)
  deriving DecidableEq, Repr

/-- The text of a crash. -/
def Crash.message : Crash → Text
  | fault found => found.message
  | load error => error.message
  | json error => error.message
  | storage error => error.message
  | directory path => path.text ++ (" is a directory" : Text)
  | tooLong path => path.text ++ (" is too long" : Text)

/-- How the program ends. -/
inductive Exit where
  | status (code : Nat)
  | crash (crash : Crash)
  | unfinished
  deriving DecidableEq, Repr

/-- Everything that a run shows. -/
structure Report where
  exit : Exit
  stdout : Text
  stderr : Text
  written : List (Path × Text)
  deriving Repr

/-- What a path names. One that is too long cannot even be missing. -/
inductive Entry where
  | missing
  | directory
  | tooLong
  | file (content : List UInt8)
  deriving DecidableEq, Inhabited, Repr

/-- What a run is given besides its arguments. -/
structure Surroundings where
  entry : Path → Entry
  input : List Text
  now : Number

namespace Report

/-- A report of an error that names its cause in one line. -/
def refused (message : Text) : Report :=
  { exit := .status 1, stdout := [], stderr := Text.ofLines [message], written := [] }

/-- A report of wrong arguments. -/
def usage : Report :=
  { exit := .status 2, stdout := []
    stderr := Text.ofLines ["usage: lox [-v] [--emit-ast FILE | --ast FILE] [SCRIPT]"]
    written := [] }

/-- A report of a crash before anything was run. -/
def crashed (crash : Crash) : Report :=
  { exit := .crash crash, stdout := [], stderr := [], written := [] }

end Report

/-- The file that traces are written to. -/
def debugFile : Path := Path.ofText "debug.txt"

/-- The lines of a text; a line break at its end begins no further line. -/
def linesOf : Text → List Text
  | [] => []
  | symbol :: rest =>
    if symbol = .char '\n' then [] :: linesOf rest
    else
      match linesOf rest with
      | [] => [[symbol]]
      | first :: others => (symbol :: first) :: others

/-- The files that a session has written. -/
def debugOutput (session : Session) : List (Path × Text) :=
  if 0 < session.debugLevel then [(debugFile, Text.ofLines session.state.trace.toList)] else []

/-- The line that reports a runtime error. -/
def runtimeReport (error : RuntimeError) : Text :=
  ("Runtime error: " : Text) ++ error.message

/-- What a file holds, or the report that there is none. -/
def contentOf (around : Surroundings) (path : Path) : Except Report (List UInt8) :=
  match around.entry path with
  | .file content => .ok content
  | .directory => .error (.crashed (.directory path))
  | .tooLong => .error (.crashed (.tooLong path))
  | .missing => .error (.refused (("Error: file " : Text) ++ path.text ++ " not found"))

/-- Refuses to write a file where there can be none. -/
def allowWriting (around : Surroundings) (path : Path) : Except Report Unit :=
  match around.entry path with
  | .missing | .file _ => .ok ()
  | .directory => .error (.crashed (.directory path))
  | .tooLong => .error (.crashed (.tooLong path))

/-- The session of a run at its start, whose debug file has to be writable if it is traced. -/
def startSession (around : Surroundings) (verbosity : Nat) : Except Report Session := do
  if 0 < verbosity then allowWriting around debugFile
  .ok (Session.start verbosity around.now)

/-- The program of a source file. -/
def readSource (around : Surroundings) (path : Path) : Except Report Program := do
  match Program.ofSource (← contentOf around path) with
  | .ok program => .ok program
  | .error diagnostic => .error (.refused diagnostic.message)

/-- The program of a tree file. -/
def readTree (around : Surroundings) (path : Path) : Except Report Program := do
  match Text.read (← contentOf around path) with
  | .error error => .error (.crashed (.storage error))
  | .ok content =>
    match Json.read content with
    | .error error => .error (.crashed (.json error))
    | .ok object => (Program.load object).mapError fun error => .crashed (.load error)

/-- Runs a program in a new session and reports how it ends. -/
def runProgram (fuel : Nat) (session : Session) (program : Program) : Report :=
  let (ending, session) := session.run fuel program
  let report (exit : Exit) (stderr : List Text) : Report :=
    { exit := exit
      stdout := Text.ofLines session.state.output.toList
      stderr := Text.ofLines stderr
      written := debugOutput session }
  match ending with
  | .finished => report (.status 0) []
  | .failed (.runtime error) => report (.status 1) [runtimeReport error]
  | .failed fault => report (.crash (.fault fault)) []
  | .unfinished => report .unfinished []

/-- The file that the tree of a script is written to, which stands beside it. -/
def treeFile (script : Path) : Path :=
  script.extend ".ast.json"

/-- Writes a tree to a file and prints where. The file of a tree with stray bytes ends before the
first string that holds one. -/
def emitTree (target : Path) (program : Program) : Report :=
  let tree := program.toJson.render .indented 0
  match program.toJson.texts.findSome? fun value => (Json.quoted value).storageError? with
  | none =>
    { exit := .status 0, stdout := Text.ofLines [target.text], stderr := [],
      written := [(target, tree)] }
  | some error =>
    let storable := tree.takeWhile Symbol.isChar
    { exit := .crash (.storage error), stdout := [], stderr := []
      written := [(target, storable.take (storable.length - error.position))] }

/-- What stands before each line typed at the prompt. -/
def promptText : Text := "> "

/-- What the prompt answers to a line. -/
structure Answer where
  session : Session
  stdout : List Text
  stderr : List Text
  ending : Ending
  deriving Inhabited, Repr

/-- Runs a line as a unit. -/
def answerLine (fuel : Nat) (session : Session) (line : Text) : Answer :=
  match Program.ofSource line.encode with
  | .error diagnostic =>
    { session := session, stdout := [], stderr := [diagnostic.message], ending := .finished }
  | .ok program =>
    let (ending, after) := session.runUnit fuel program
    { session := after
      stdout := (after.since session).output
      stderr :=
        match ending with
        | .failed (.runtime error) => [runtimeReport error]
        | _ => []
      ending := ending }

/-- Answers lines until they end or one of them crashes. -/
def runPrompt (fuel : Nat) (session : Session) : List Text → Report
  | [] =>
    { exit := .status 0, stdout := promptText ++ Text.ofLines [[]], stderr := [],
      written := debugOutput session }
  | line :: rest =>
    let answer := answerLine fuel session line
    let stopped (exit : Exit) : Report :=
      { exit := exit, stdout := [], stderr := [], written := debugOutput answer.session }
    let after :=
      match answer.ending with
      | .finished | .failed (.runtime _) => runPrompt fuel answer.session rest
      | .failed fault => stopped (.crash (.fault fault))
      | .unfinished => stopped .unfinished
    { after with
      stdout := promptText ++ Text.ofLines answer.stdout ++ after.stdout
      stderr := Text.ofLines answer.stderr ++ after.stderr }

/-- The report of a result, which may be one of its own. -/
def reportOf (result : Except Report Report) : Report :=
  match result with
  | .ok report | .error report => report

/-- Does what an invocation asks for. What it runs has been read as a whole before anything is
written. -/
def runInvocation (fuel : Nat) (around : Surroundings) (invocation : Invocation) : Report :=
  let start := startSession around invocation.verbosity
  reportOf <|
    match invocation.task with
    | .emit path => do
      let program ← readSource around path
      allowWriting around (treeFile path)
      .ok (emitTree (treeFile path) program)
    | .load path => do
      let program ← readTree around path
      .ok (runProgram fuel (← start) program)
    | .script path => do
      let program ← readSource around path
      .ok (runProgram fuel (← start) program)
    | .prompt => do .ok (runPrompt fuel (← start) around.input)

/-- Runs the command line. -/
def run (fuel : Nat) (around : Surroundings) (arguments : List Text) : Report :=
  match Invocation.ofArguments? arguments with
  | none => .usage
  | some invocation => runInvocation fuel around invocation

end Lox.CommandLine
