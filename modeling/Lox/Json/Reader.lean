import Lox.Json.Basic

/-!
# Reading JSON

The reader accepts one value with blanks around it. Besides the standard's grammar it knows the
three numbers that a double can hold and the standard cannot write, and it refuses integers of
too many digits where it meets them. Control characters must be escaped inside strings, and an
escaped stray byte is read as that byte.
-/

namespace Lox.Json

/-- The blanks that may stand between the parts of a value. -/
def isBlank (symbol : Symbol) : Bool :=
  symbol = .char ' ' || symbol = .char '\n' || symbol = .char '\t' || symbol = .char '\r'

/-- What follows the blanks. -/
def skipBlanks (source : Text) : Text :=
  source.dropWhile isBlank

/-- The longest run of digits and what follows it. -/
def spanDigits : Text → List Char × Text
  | .char c :: rest =>
    if c.isDigit then
      let (digits, after) := spanDigits rest
      (c :: digits, after)
    else ([], .char c :: rest)
  | source => ([], source)

/-- A fraction, when a point and a digit come next. -/
def readFraction (source : Text) : Option (List Char × Text) :=
  match source with
  | .char '.' :: rest =>
    match spanDigits rest with
    | ([], _) => none
    | found => some found
  | _ => none

/-- An exponent, when its letter, an optional sign and a digit come next. -/
def readExponent (source : Text) : Option (Int × Text) :=
  match source with
  | .char letter :: rest =>
    if letter = 'e' || letter = 'E' then
      let (sign, rest) : Int × Text :=
        match rest with
        | .char '-' :: rest => (-1, rest)
        | .char '+' :: rest => (1, rest)
        | rest => (1, rest)
      match spanDigits rest with
      | ([], _) => none
      | (digits, rest) => some (sign * Nat.ofDigitChars 10 digits 0, rest)
    else none
  | _ => none

/-- The whole part of a number: a zero alone, or digits that do not begin with one. -/
def readWhole (source : Text) : Option (List Char × Text) :=
  match source with
  | .char '0' :: rest => some (['0'], rest)
  | source =>
    match spanDigits source with
    | ([], _) => none
    | found => some found

/-- The largest number of digits of an integer. -/
def maxDigits : Nat := 4300

/-- Why a text is no JSON value. -/
inductive ReadError where
  | malformed
  | tooManyDigits (count : Nat)
  deriving DecidableEq, Inhabited, Repr

/-- The text of a read error. -/
def ReadError.message : ReadError → Text
  | malformed => "The text is not JSON."
  | tooManyDigits count =>
    ("Exceeds the limit (" : Text) ++ Text.ofNat maxDigits ++
      " digits) for integer string conversion: value has " ++ Text.ofNat count ++
      " digits; use sys.set_int_max_str_digits() to increase the limit"

/-- What was read, or why nothing was. -/
abbrev Reading := Except ReadError

/-- What was read, if anything was. -/
def expected {α : Type} (found : Option α) : Reading α :=
  match found with
  | some result => .ok result
  | none => .error .malformed

/-- An integer with a sign. -/
def ofDigits (negative : Bool) (digits : List Char) : Reading Json :=
  let value : Int := Nat.ofDigitChars 10 digits 0
  if maxDigits < digits.length then .error (.tooManyDigits digits.length)
  else .ok (.integer (if negative then -value else value))

/-- A number after its sign: an integer unless a fraction or an exponent follows. -/
def readMagnitude (negative : Bool) (source : Text) : Reading (Json × Text) := do
  let (whole, rest) ← expected (readWhole source)
  let fraction := readFraction rest
  let rest := (fraction.map Prod.snd).getD rest
  let exponent := readExponent rest
  let rest := (exponent.map Prod.snd).getD rest
  if fraction.isNone && exponent.isNone then
    let value ← ofDigits negative whole
    .ok (value, rest)
  else
    let places := (fraction.map Prod.fst).getD []
    let power := (exponent.map Prod.fst).getD 0
    .ok (.number (Number.ofScientific negative whole places power), rest)

/-- The words that stand for values, and those values. -/
def words : List (Text × Json) :=
  [("null", .null), ("true", .bool true), ("false", .bool false), ("NaN", .number .nan),
    ("Infinity", .number (.infinite false)), ("-Infinity", .number (.infinite true))]

/-- The word that comes next. -/
def readWord (source : Text) : Option (Json × Text) :=
  words.findSome? fun (word, value) => (word.isPrefixOf? source).map (value, ·)

/-- A number or a word. -/
def readScalar (source : Text) : Reading (Json × Text) :=
  match readWord source with
  | some found => .ok found
  | none =>
    match source with
    | .char '-' :: rest => readMagnitude true rest
    | source => readMagnitude false source

/-- The value of a hexadecimal digit. -/
def hexValue? (symbol : Symbol) : Option Nat :=
  match symbol with
  | .char c =>
    if c.isDigit then some (c.toNat - '0'.toNat)
    else if 'a' ≤ c && c ≤ 'f' then some (c.toNat - 'a'.toNat + 10)
    else if 'A' ≤ c && c ≤ 'F' then some (c.toNat - 'A'.toNat + 10)
    else none
  | .stray _ | .half _ => none

/-- A part of a string: a symbol that stands for itself, or the code of an escape. -/
inductive Part where
  | symbol (value : Symbol)
  | code (value : Nat)
  deriving DecidableEq, Repr

/-- The character that a one-letter escape stands for. -/
def escapeLetter? (letter : Symbol) : Option Char :=
  [('"', '"'), ('\\', '\\'), ('/', '/'), ('b', '\x08'), ('f', '\x0c'), ('n', '\n'),
    ('r', '\r'), ('t', '\t')].findSome? fun (name, meaning) =>
      if letter = .char name then some meaning else none

/-- The parts of a string up to its closing quote, and what follows that. -/
def readParts : Text → Option (List Part × Text)
  | [] => none
  | .char '"' :: rest => some ([], rest)
  | .char '\\' :: .char 'u' :: a :: b :: c :: d :: rest => do
    let code := (((← hexValue? a) * 16 + (← hexValue? b)) * 16 + (← hexValue? c)) * 16 +
      (← hexValue? d)
    let (parts, rest) ← readParts rest
    some (.code code :: parts, rest)
  | .char '\\' :: letter :: rest => do
    let meaning ← escapeLetter? letter
    let (parts, rest) ← readParts rest
    some (.symbol (.char meaning) :: parts, rest)
  | .char c :: rest =>
    if c.toNat < 0x20 || c = '\\' then none
    else do
      let (parts, rest) ← readParts rest
      some (.symbol (.char c) :: parts, rest)
  | symbol :: rest => do
    let (parts, rest) ← readParts rest
    some (.symbol symbol :: parts, rest)

/-- The symbol of a single code: one of the low surrogates may stand for a stray byte, and any
other surrogate on its own is half a pair. -/
def symbolOfCode (code : Nat) : Symbol :=
  if half : 0xd800 ≤ code ∧ code ≤ 0xdfff ∧ (code < 0xdc80 ∨ 0xdcff < code) then
    .half ⟨code, half⟩
  else if 0xdc80 ≤ code && code ≤ 0xdcff then .stray (UInt8.ofNat (code - 0xdc00))
  else .char (Char.ofNat code)

/-- The text of the parts, where a high and a low surrogate make one character. -/
def joinParts : List Part → Text
  | [] => []
  | .symbol value :: rest => value :: joinParts rest
  | .code high :: .code low :: rest =>
    if 0xd800 ≤ high && high ≤ 0xdbff && 0xdc00 ≤ low && low ≤ 0xdfff then
      .char (Char.ofNat (0x10000 + (high - 0xd800) * 0x400 + (low - 0xdc00))) :: joinParts rest
    else symbolOfCode high :: joinParts (.code low :: rest)
  | .code code :: rest => symbolOfCode code :: joinParts rest

/-- A string after its opening quote. -/
def readText (source : Text) : Reading (Text × Text) := do
  let (parts, rest) ← expected (readParts source)
  .ok (joinParts parts, rest)

mutual

/-- A value and what follows it, for a nesting and a number of items that the fuel allows. -/
def readValue : (fuel : Nat) → Text → Reading (Json × Text)
  | 0, _ => .error .malformed
  | fuel + 1, source =>
    match skipBlanks source with
    | .char '"' :: rest => do
      let (value, rest) ← readText rest
      .ok (.text value, rest)
    | .char '[' :: rest =>
      match skipBlanks rest with
      | .char ']' :: rest => .ok (.array [], rest)
      | rest => do
        let (items, rest) ← readItems fuel rest
        .ok (.array items, rest)
    | .char '\x7b' :: rest =>
      match skipBlanks rest with
      | .char '\x7d' :: rest => .ok (.object [], rest)
      | rest => do
        let (fields, rest) ← readFields fuel rest
        .ok (.object fields, rest)
    | source => readScalar source

/-- The items of an array up to its closing bracket. -/
def readItems : (fuel : Nat) → Text → Reading (List Json × Text)
  | 0, _ => .error .malformed
  | fuel + 1, source => do
    let (item, rest) ← readValue fuel source
    match skipBlanks rest with
    | .char ']' :: rest => .ok ([item], rest)
    | .char ',' :: rest =>
      let (items, rest) ← readItems fuel rest
      .ok (item :: items, rest)
    | _ => .error .malformed

/-- The fields of an object up to its closing brace. -/
def readFields : (fuel : Nat) → Text → Reading (List (Text × Json) × Text)
  | 0, _ => .error .malformed
  | fuel + 1, source =>
    match skipBlanks source with
    | .char '"' :: rest => do
      let (name, rest) ← readText rest
      match skipBlanks rest with
      | .char ':' :: rest =>
        let (value, rest) ← readValue fuel rest
        match skipBlanks rest with
        | .char '\x7d' :: rest => .ok ([(name, value)], rest)
        | .char ',' :: rest =>
          let (fields, rest) ← readFields fuel rest
          .ok ((name, value) :: fields, rest)
        | _ => .error .malformed
      | _ => .error .malformed
    | _ => .error .malformed

end

/-- The value that a whole text writes. Every step of the reader takes a symbol at least every
second time, so the fuel never runs out first. -/
def read (source : Text) : Reading Json := do
  let (value, rest) ← readValue (2 * source.length + 2) source
  if (skipBlanks rest).isEmpty then .ok value else .error .malformed

end Lox.Json
