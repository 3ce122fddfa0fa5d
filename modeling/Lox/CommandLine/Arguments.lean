import Lox.CommandLine.Path
import Lox.Text.Ranges

/-!
# Arguments

The command line takes a script, or a file to emit the tree of, or a file that holds a tree, or
none of them for a prompt; each `-v` makes the trace more detailed. Long options may be cut short
and may have their value after an equals sign, and after two dashes nothing is an option.
-/

namespace Lox.CommandLine

/-- What the program is asked to do. -/
inductive Task where
  | emit (path : Path)
  | load (path : Path)
  | script (path : Path)
  | prompt
  deriving DecidableEq, Inhabited, Repr

/-- The file that a task reads. -/
def Task.file? : Task → Option Path
  | emit path | load path | script path => some path
  | prompt => none

/-- A task and how much of it to trace. -/
structure Invocation where
  verbosity : Nat
  task : Task
  deriving DecidableEq, Inhabited, Repr

/-- The options with a file, and the one that only asks for help. -/
inductive LongOption where
  | emit
  | load
  | help
  deriving DecidableEq, Inhabited, Repr

/-- The full names of the long options. -/
def longOptions : List (Text × LongOption) :=
  [("--emit-ast", .emit), ("--ast", .load), ("--help", .help)]

/-- What an argument means by itself. -/
inductive Word where
  | plain (value : Text)
  | verbose (count : Nat)
  | option (option : LongOption) (value : Option Text)
  | unknown
  deriving DecidableEq, Inhabited, Repr

/-- The argument that ends the options. -/
def endOfOptions : Text := "--"

/-- The text before the first equals sign, and the text after it if there is one. -/
def splitEquals (text : Text) : Text × Option Text :=
  let name := text.takeWhile (· ≠ .char '=')
  (name, if name.length < text.length then some (text.drop (name.length + 1)) else none)

/-- Whether a symbol is a decimal digit of some script. -/
def isDigitSymbol : Symbol → Bool
  | .char c => isDecimalDigit c
  | .stray _ | .half _ => false

/-- Whether symbols are digits, at least one of them, before a line break or the end. -/
def areDigits (text : Text) : Bool :=
  let after := text.dropWhile isDigitSymbol
  after.length < text.length && (after.isEmpty || after = [.char '\n'])

/-- Whether what follows a dash makes a negative number. -/
def isMagnitude (text : Text) : Bool :=
  areDigits text ||
    match text.dropWhile isDigitSymbol with
    | .char '.' :: fraction => areDigits fraction
    | _ => false

/-- An argument that begins with a dash and names no option. A text with a blank and a negative
number are not taken for misspelt options. -/
def Word.ofOther (text : Text) : Word :=
  if text.contains (.char ' ') || isMagnitude (text.drop 1) then .plain text else .unknown

/-- An argument that begins with two dashes: the option whose name it begins, if that is one. -/
def Word.ofLong (text : Text) : Word :=
  let (name, value) := splitEquals text
  match longOptions.filter fun (full, _) => name.isPrefixOf full with
  | [(_, found)] => .option found value
  | [] => Word.ofOther text
  | _ => .unknown

/-- The meaning of what follows a dash and the letter for more detail: the letter may be repeated,
and an equals sign may stand before the repetitions if there are any. -/
def Word.ofVerbose (rest : Text) : Word :=
  let repeated :=
    match rest with
    | .char '=' :: more => if more.isEmpty then rest else more
    | _ => rest
  if repeated.all (· = .char 'v') then .verbose (repeated.length + 1) else .unknown

/-- The meaning of an argument. -/
def Word.ofText (text : Text) : Word :=
  match text with
  | .char '-' :: .char '-' :: _ => Word.ofLong text
  | .char '-' :: .char 'v' :: rest => Word.ofVerbose rest
  | .char '-' :: .char 'h' :: _ => .unknown
  | .char '-' :: _ :: _ => Word.ofOther text
  | _ => .plain text

/-- What the arguments read so far have given. -/
structure Given where
  verbosity : Nat
  emit : Option Text
  load : Option Text
  script : Option Text
  deriving DecidableEq, Inhabited, Repr

namespace Given

/-- Takes a script, of which there may be one. -/
def takeScript (given : Given) (value : Text) : Option Given :=
  if given.script.isSome then none else some { given with script := some value }

/-- Takes the file of an option; the last one given counts. The mark that ends the options is
no name of a file and leaves the option without one. -/
def takeOption (given : Given) (value : Text) (option : LongOption) : Option Given :=
  let name := if value = endOfOptions then [] else value
  match option with
  | .emit => some { given with emit := some name }
  | .load => some { given with load := some name }
  | .help => none

/-- Takes what follows the end of the options, where only a script may stand. An end with nothing
behind it is refused once a script was given before another option. -/
def takeRest (given : Given) (rest : List Text) : Option Given :=
  if rest.isEmpty && given.script.isSome then none else rest.foldlM takeScript given

/-- Takes the arguments in their order. -/
def takeAll : List Text → Given → Option Given
  | [], given => some given
  | text :: rest, given =>
    if text = endOfOptions then given.takeRest rest
    else
      match Word.ofText text with
      | .plain value => do
        let given ← given.takeScript value
        if rest = [endOfOptions] then some given else takeAll rest given
      | .verbose count => takeAll rest { given with verbosity := given.verbosity + count }
      | .option option (some value) => do takeAll rest (← given.takeOption value option)
      | .option option none =>
        match rest with
        | [] => none
        | next :: rest =>
          if next = endOfOptions then none
          else
            match Word.ofText next with
            | .plain value => do takeAll rest (← given.takeOption value option)
            | _ => none
      | .unknown => none

/-- The path of an option or script, unless its name is empty. -/
def path? (value : Option Text) : Option Path :=
  value.bind fun text => if text.isEmpty then none else some (Path.ofText text)

/-- The task that was asked for: only one of the two options may be given, and a script does not
count beside one. -/
def task? (given : Given) : Option Task :=
  if given.emit.isSome && given.load.isSome then none
  else
    match path? given.emit, path? given.load, path? given.script with
    | some path, _, _ => some (.emit path)
    | none, some path, _ => some (.load path)
    | none, none, some path => some (.script path)
    | none, none, none => some .prompt

end Given

/-- The invocation that the arguments write, if they are well formed. -/
def Invocation.ofArguments? (arguments : List Text) : Option Invocation := do
  let given ← Given.takeAll arguments ⟨0, none, none, none⟩
  some ⟨given.verbosity, ← given.task?⟩

end Lox.CommandLine
