import Lox.Token.Lexeme

/-!
# Scanning

A cursor is a place in a source: the bytes ahead, how many lie behind, and the line. Scanning
skips what stands between tokens, takes one lexeme and counts the line breaks in both. At the
end of the source it yields the same end token however often it is asked.
-/

namespace Lox

/-- A place in a source. -/
structure Cursor where
  rest : List UInt8
  offset : Nat
  line : Nat
  deriving DecidableEq, Inhabited, Repr

/-- A token with the place where it starts and the cursor after it. -/
structure Scanned where
  token : Token
  start : Nat
  after : Cursor
  deriving DecidableEq, Inhabited, Repr

namespace Cursor

/-- The beginning of a source. -/
def ofSource (source : List UInt8) : Cursor :=
  ⟨source, 0, 1⟩

/-- The place some bytes further on. -/
def advance (cursor : Cursor) (count : Nat) : Cursor :=
  { rest := cursor.rest.drop count
    offset := cursor.offset + count
    line := cursor.line + (cursor.rest.take count).count newline }

/-- The place where the next token starts. -/
def skipTrivia (cursor : Cursor) : Cursor :=
  cursor.advance (triviaLength false cursor.rest)

/-- The next token. -/
def scan (cursor : Cursor) : Scanned :=
  let start := cursor.skipTrivia
  match start.rest with
  | [] => ⟨⟨.endOfFile, [], start.line⟩, start.offset, start⟩
  | first :: rest =>
    let found := Lexeme.ofBytes first rest
    let after := start.advance found.length
    ⟨⟨found.kind, found.lexeme (start.rest.take found.length), after.line⟩, start.offset, after⟩

/-- The tokens from a place up to the end of the source, for as many as the fuel allows. -/
def scanAll : (fuel : Nat) → Cursor → List Scanned
  | 0, _ => []
  | fuel + 1, cursor =>
    let scanned := cursor.scan
    if scanned.token.kind = .endOfFile then [scanned]
    else scanned :: scanAll fuel scanned.after

end Cursor

/-- Every token of a source with its place, the end token last. Each token but that one takes at
least one byte, so the source's length bounds their number. -/
def scanSource (source : List UInt8) : List Scanned :=
  (Cursor.ofSource source).scanAll (source.length + 1)

/-- Every token of a source, the end token last. -/
def tokens (source : List UInt8) : List Token :=
  (scanSource source).map Scanned.token

end Lox
