import Lox.Source.Diagnostic

/-!
# Reading tokens

A reader takes tokens off the front of a list. It looks at most one token ahead and never goes
back, so when it fails, the first token it has left is the first one that cannot continue what it
has read.

Repetitions and nesting are bounded by a fuel. Each round and each level takes a token, so a fuel
above the number of tokens never runs out.
-/

namespace Lox.Source

/-- The tokens left where reading failed, and whether an assignment to a complete operand was
attempted there. -/
structure Failure where
  invalidTarget : Bool
  rest : List Token
  deriving DecidableEq, Inhabited, Repr

/-- A reader of some part of a program. -/
abbrev Parse := StateT (List Token) (Except Failure)

namespace Parse

/-- Failure at the next token. -/
def fail {α : Type} : Parse α :=
  fun tokens => .error ⟨false, tokens⟩

/-- Failure at an equals sign behind an operand that cannot be assigned to. -/
def failTarget {α : Type} : Parse α :=
  fun tokens => .error ⟨true, tokens⟩

/-- The kind of the next token. -/
def peek : Parse (Option Kind) :=
  fun tokens => .ok (tokens.head?.map Token.kind, tokens)

/-- The next token, if its kind is one of those given. -/
def accept (kinds : List Kind) : Parse (Option Token)
  | [] => .ok (none, [])
  | token :: rest =>
    if token.kind ∈ kinds then .ok (some token, rest) else .ok (none, token :: rest)

/-- The next token, which has to be of a kind. -/
def expect (kind : Kind) : Parse Token
  | [] => .error ⟨false, []⟩
  | token :: rest =>
    if token.kind = kind then .ok (token, rest) else .error ⟨false, token :: rest⟩

/-- The longest run of tokens of the given kinds. -/
def acceptAll (kinds : List Kind) : Parse (List Token) :=
  fun tokens => .ok (tokens.span fun token => decide (token.kind ∈ kinds))

variable {α : Type}

/-- An item, unless the next token is the one that may stand in its place. -/
def optionalBefore (kind : Kind) (item : Parse α) : Parse (Option α) := do
  if (← peek) = some kind then pure none else some <$> item

/-- One or more items with commas between them, for as many as the fuel allows. -/
def separated (item : Parse α) : (fuel : Nat) → Parse (List α)
  | 0 => fail
  | fuel + 1 => do
    let first ← item
    match ← accept [.comma] with
    | none => pure [first]
    | some _ => do
      let others ← separated item fuel
      pure (first :: others)

/-- Items up to the token of a kind, or up to the end, for as many as the fuel allows. -/
def itemsUntil (stop : Option Kind) (item : Parse α) : (fuel : Nat) → Parse (List α)
  | 0 => pure []
  | fuel + 1 => do
    if (← peek) = stop then pure []
    else do
      let first ← item
      let others ← itemsUntil stop item fuel
      pure (first :: others)

end Parse

end Lox.Source
