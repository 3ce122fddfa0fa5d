import Lox.CommandLine.Run

/-!
# The program

This outer layer reads the one file that the arguments name, or lines from the console, and
shows what the run of the command line reports. Everything else is decided there.
-/

namespace Lox.CommandLine

-- A power of natural numbers is the one of the core library, whatever monoids are in scope.
attribute [local instance (high)] instPowNat

/-- More steps than a machine can take. -/
def stepLimit : Nat := 10 ^ (18 : Nat)

/-- The name under which a path is opened. -/
def fileName (path : Path) : String :=
  String.ofList (path.text.filterMap fun symbol =>
    match symbol with
    | .char c => some c
    | .stray _ | .half _ => none)

/-- The bytes of a text. -/
def bytesOf (text : Text) : ByteArray :=
  text.encode.toByteArray

/-- Writes a text to a stream at once. -/
def put (stream : IO.FS.Stream) (text : Text) : IO Unit := do
  stream.write (bytesOf text)
  stream.flush

/-- The seconds on the machine's clock. -/
def clockReading : IO Number := do
  return Number.ofQuotient false (← IO.monoMsNow) 1000

/-- What a path names. A file that cannot be opened counts as missing. -/
def entryOf (path : Path) : IO Entry := do
  match ← (IO.FS.readBinFile (fileName path)).toBaseIO with
  | .ok bytes => return .file bytes.toList
  | .error (.invalidArgument _ _ _) => return .tooLong
  | .error _ =>
    match ← (IO.FS.realPath (fileName path)).toBaseIO with
    | .ok found => return if ← found.isDir then .directory else .missing
    | .error _ => return .missing

/-- The surroundings of a run that asks for some paths only. -/
def surroundingsOf (paths : List Path) : IO Surroundings := do
  let entries ← paths.mapM fun path => return (path, ← entryOf path)
  return { entry := fun path => (entries.lookup path).getD .missing, input := []
           now := ← clockReading }

/-- The status of an exit, after what it still has to say. -/
def leave (exit : Exit) : IO UInt32 := do
  let errors ← IO.getStderr
  match exit with
  | .status code => return code.toUInt32
  | .crash crash =>
    put errors (Text.ofLines [crash.message])
    return 1
  | .unfinished =>
    put errors (Text.ofLines ["The run takes too long."])
    return 1

/-- Writes the files of a report and shows the rest of it. -/
def publish (report : Report) : IO UInt32 := do
  for (path, text) in report.written do
    IO.FS.writeBinFile (fileName path) (bytesOf text)
  put (← IO.getStdout) report.stdout
  put (← IO.getStderr) report.stderr
  leave report.exit

/-- Answers lines from the console until they end or one of them crashes. -/
partial def converse (session : Session) : IO UInt32 := do
  let output ← IO.getStdout
  put output promptText
  let line ← (← IO.getStdin).getLine
  if line.isEmpty then
    publish { runPrompt stepLimit session [] with stdout := Text.ofLines [[]] }
  else
    let typed := Text.ofString line
    let answer := answerLine stepLimit { session with now := ← clockReading }
      (typed.filter (· ≠ .char '\n'))
    put output (Text.ofLines answer.stdout)
    put (← IO.getStderr) (Text.ofLines answer.stderr)
    let stopped (exit : Exit) : IO UInt32 :=
      publish { exit := exit, stdout := [], stderr := [], written := debugOutput answer.session }
    match answer.ending with
    | .finished | .failed (.runtime _) => converse answer.session
    | .failed fault => stopped (.crash (.fault fault))
    | .unfinished => stopped .unfinished

/-- Does what the arguments ask for. -/
def runArguments (arguments : List Text) : IO UInt32 := do
  match Invocation.ofArguments? arguments with
  | none => publish .usage
  | some invocation =>
    match invocation.task.file? with
    | none =>
      match startSession (← surroundingsOf [debugFile]) invocation.verbosity with
      | .ok session => converse session
      | .error report => publish report
    | some path =>
      let around ← surroundingsOf [path, treeFile path, debugFile]
      publish (runInvocation stepLimit around invocation)

end Lox.CommandLine

/-- Runs the command line on the arguments of the process. -/
def main (arguments : List String) : IO UInt32 :=
  Lox.CommandLine.runArguments (arguments.map Lox.Text.ofString)
