import Lox.Text.Basic

/-!
# Paths

Paths are shown as their parts with slashes between them. Empty parts and single dots mean
nothing and go away; double dots stay, because what they mean depends on the files.
-/

namespace Lox

/-- A path: the slashes it starts with, and its parts. -/
structure Path where
  root : Text
  parts : List Text
  deriving DecidableEq, Inhabited, Repr

namespace Path

/-- The slash between the parts of a path. -/
def slash : Symbol := .char '/'

/-- The pieces of a text between slashes. -/
def pieces : Text → List Text
  | [] => [[]]
  | symbol :: rest =>
    if symbol = slash then [] :: pieces rest
    else
      match pieces rest with
      | [] => [[symbol]]
      | first :: others => (symbol :: first) :: others

/-- The path that a text writes. Two slashes at the front are kept, any other number of them
counts as one. -/
def ofText (text : Text) : Path :=
  let slashes := (text.takeWhile (· = slash)).length
  { root := List.replicate (if slashes = 2 then 2 else min slashes 1) slash
    parts := (pieces text).filter fun part => !part.isEmpty && part ≠ [.char '.'] }

/-- The text of a path. -/
def text (path : Path) : Text :=
  if path.root.isEmpty && path.parts.isEmpty then [.char '.']
  else path.root ++ [slash].intercalate path.parts

/-- The path with more text at the end of its last part. -/
def extend (path : Path) (suffix : Text) : Path :=
  match path.parts.getLast? with
  | none => path
  | some last => { path with parts := path.parts.dropLast ++ [last ++ suffix] }

end Path

end Lox
