import Lox.Text.Quoted

/-!
# Files of characters

Tree files and traces hold characters only. Reading such a file refuses the first bytes that
belong to no character, and writing one refuses the first symbols that are none; both say where
these stand. Counting the bytes of a text takes stray bytes and refuses only halves of pairs.
-/

namespace Lox

/-- Why bytes belong to no character. -/
inductive Utf8Flaw where
  | invalidStart
  | invalidContinuation
  | unexpectedEnd
  deriving DecidableEq, Inhabited, Repr

/-- Bytes that cannot be read as characters, and symbols that cannot be written as bytes. -/
inductive StorageError where
  | unreadable (position : Nat) (first : UInt8) (length : Nat) (flaw : Utf8Flaw)
  | unwritable (position : Nat) (first : Symbol) (length : Nat)
  deriving DecidableEq, Inhabited, Repr

/-- The text of a flaw. -/
def Utf8Flaw.message : Utf8Flaw → String
  | invalidStart => "invalid start byte"
  | invalidContinuation => "invalid continuation byte"
  | unexpectedEnd => "unexpected end of data"

/-- A position in messages, or the first and last of several. -/
def shownPositions (position length : Nat) : Text :=
  if length ≤ 1 then Text.ofNat position
  else Text.ofNat position ++ ("-" : Text) ++ Text.ofNat (position + length - 1)

/-- The text of a storage error. -/
def StorageError.message : StorageError → Text
  | unreadable position first length flaw =>
    let bytes : Text :=
      if length ≤ 1 then ("byte 0x" : Text) ++ Text.ofChars (hexDigits 2 first.toNat) else "bytes"
    ("'utf-8' codec can't decode " : Text) ++ bytes ++ " in position " ++
      shownPositions position length ++ ": " ++ flaw.message
  | unwritable position first length =>
    let symbols : Text :=
      if length ≤ 1 then ("character " : Text) ++ Text.quoted [first] else "characters"
    ("'utf-8' codec can't encode " : Text) ++ symbols ++ " in position " ++
      shownPositions position length ++ ": surrogates not allowed"

/-- How much of the bytes or the string stands before those that the error is about. -/
def StorageError.position : StorageError → Nat
  | unreadable position _ _ _ | unwritable position _ _ => position

namespace Text

/-- The ranges in which the bytes after a first byte have to lie. A byte that begins no character
outside ASCII has none. -/
def continuations (first : UInt8) : List (Nat × Nat) :=
  let any := (0x80, 0xbf)
  if first < 0xc2 then []
  else if first < 0xe0 then [any]
  else if first = 0xe0 then [(0xa0, 0xbf), any]
  else if first = 0xed then [(0x80, 0x9f), any]
  else if first < 0xf0 then [any, any]
  else if first = 0xf0 then [(0x90, 0xbf), any, any]
  else if first < 0xf4 then [any, any, any]
  else if first = 0xf4 then [(0x80, 0x8f), any, any]
  else []

/-- How many bytes lie in the ranges, up to the first that does not. -/
def continued : List (Nat × Nat) → List UInt8 → Nat
  | (low, high) :: ranges, byte :: rest =>
    if low ≤ byte.toNat ∧ byte.toNat ≤ high then continued ranges rest + 1 else 0
  | _, _ => 0

/-- The error for a byte that begins no character, where further bytes follow it. -/
def unreadableAt (position : Nat) (first : UInt8) (rest : List UInt8) : StorageError :=
  let ranges := continuations first
  let count := continued ranges rest
  .unreadable position first (count + 1) <|
    if ranges.isEmpty then .invalidStart
    else if count = rest.length then .unexpectedEnd
    else .invalidContinuation

/-- The text of bytes that are characters throughout. -/
def read (bytes : List UInt8) : Except StorageError Text :=
  let text := decode bytes
  let position := byteLength (text.takeWhile Symbol.isChar)
  match bytes.drop position with
  | [] => .ok text
  | first :: rest => .error (unreadableAt position first rest)

/-- The error of writing a text of which only some symbols can be written: from the first that
cannot up to the next character. -/
def unwritable? (writable : Symbol → Bool) (text : Text) : Option StorageError :=
  let position := (text.takeWhile writable).length
  match text.drop position with
  | [] => none
  | first :: rest =>
    let others := rest.takeWhile fun symbol => !symbol.isChar
    some (.unwritable position first (others.length + 1))

/-- The error of writing a text to a file of characters, unless it holds nothing else. -/
def storageError? (text : Text) : Option StorageError :=
  text.unwritable? Symbol.isChar

/-- The error of turning a text into bytes, unless it has some. -/
def byteError? (text : Text) : Option StorageError :=
  text.unwritable? Symbol.hasBytes

end Text

end Lox
