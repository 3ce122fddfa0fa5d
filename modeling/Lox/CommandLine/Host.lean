import Lox.CommandLine.Run

/-!
# Running for a host

A host hands over a source, or the path of a file that holds one, and a verbosity. It gets back the session
that has run the source, or what went wrong. Nobody is told on the streams why a source is refused or why
a run fails; that is left to the host.

A source is read as a whole before the file for the trace is opened and anything runs.
-/

namespace Lox.CommandLine

/-- What a host gets back. -/
inductive Handback where
  | session (session : Session)
  | refused (diagnostic : Diagnostic)
  | failed (fault : Fault)
  | unopened (path : Path) (entry : Entry)
  | unfinished
  deriving Repr

/-- What a host gets back, what is printed and which files are written meanwhile. -/
structure HostReport where
  handback : Handback
  output : Text
  written : List (Path × Text)
  deriving Repr

/-- Runs a source for a host. -/
def runSource (fuel : Nat) (around : Surroundings) (verbosity : Nat) (source : List UInt8) :
    HostReport :=
  match Program.ofSource source with
  | .error diagnostic => { handback := .refused diagnostic, output := [], written := [] }
  | .ok program =>
    match startSession around verbosity with
    | .error _ =>
      { handback := .unopened debugFile (around.entry debugFile), output := [], written := [] }
    | .ok session =>
      let (ending, session) := session.run fuel program
      { handback :=
          match ending with
          | .finished => .session session
          | .failed fault => .failed fault
          | .unfinished => .unfinished
        output := Text.ofLines session.state.output.toList
        written := debugOutput session }

/-- Runs the source in a file for a host. -/
def runFile (fuel : Nat) (around : Surroundings) (verbosity : Nat) (path : Path) : HostReport :=
  match around.entry path with
  | .file source => runSource fuel around verbosity source
  | entry => { handback := .unopened path entry, output := [], written := [] }

end Lox.CommandLine
