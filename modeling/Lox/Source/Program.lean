import Lox.Source.Desugar
import Lox.Source.Limits
import Lox.Source.Statement
import Lox.Token.Cursor

/-!
# Programs of sources

A source is a program when its tokens are one by the grammar and keep the limits. The limits are
looked at last, so any other trouble anywhere in the source comes before them.
-/

namespace Lox

/-- The tokens of a source up to its end. -/
def Source.tokens (source : List UInt8) : List Token :=
  (Lox.tokens source).dropLast

/-- The source tree of a source that keeps the limits. -/
def Source.read (source : List UInt8) : Except Diagnostic (List Source.Stmt) := do
  let tree ← Source.ofTokens (Source.tokens source)
  match Source.Stmt.excessOfList? tree with
  | some excess => .error excess
  | none => .ok tree

/-- The program of a source. -/
def Program.ofSource (source : List UInt8) : Except Diagnostic Program :=
  (Source.read source).map Source.Stmt.nodes

end Lox
