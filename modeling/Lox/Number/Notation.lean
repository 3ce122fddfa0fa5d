import Lox.Number.Decimal
import Lox.Text.Basic

/-!
# Number text

Programs print a number in plain notation: all digits of an integral value, and otherwise the
fewest digits that read back. Number literals are digits with an optional fraction. Tree files
use a third form, with at least one decimal and an exponent for the very small and very large.
-/

namespace Lox

-- A power of natural numbers is the one of the core library, whatever monoids are in scope.
attribute [local instance (high)] instPowNat

/-- Digits with the point set so that the last digit has the given weight. -/
def positional (digits : List Char) (exponent : Int) : List Char :=
  if 0 ≤ exponent then digits ++ List.replicate exponent.toNat '0'
  else
    let places := (-exponent).toNat
    let padded := List.replicate (places + 1 - digits.length) '0' ++ digits
    padded.take (padded.length - places) ++ '.' :: padded.drop (padded.length - places)

namespace Number

/-- A minus sign for negative numbers. -/
def signed (negative : Bool) (magnitude : List Char) : Text :=
  Text.ofChars (if negative then '-' :: magnitude else magnitude)

/-- Whether the value of a code is a whole number. -/
def isIntegral (code : Nat) : Bool :=
  significand code % 2 ^ (-scale code).toNat = 0

/-- The whole number that an integral code stands for. -/
def wholeValue (code : Nat) : Nat :=
  significand code * 2 ^ (scale code).toNat / 2 ^ (-scale code).toNat

/-- The magnitude of a code in plain notation. -/
def plain (code : Nat) : List Char :=
  if isIntegral code then Nat.toDigits 10 (wholeValue code)
  else
    let (digits, exponent) := (Decimal.shortest code).significant
    positional digits exponent

/-- The text of a number as programs print it. -/
def text : Number → Text
  | .nan => "NaN"
  | .infinite negative => signed negative ['i', 'n', 'f']
  | .finite negative code => signed negative (plain code)

/-- The magnitude of a code in scientific notation, with at least two digits of exponent. -/
def scientific (digits : List Char) (exponent : Int) : List Char :=
  let fraction := digits.drop 1
  let power := Nat.toDigits 10 exponent.natAbs
  digits.take 1 ++ (if fraction.isEmpty then [] else '.' :: fraction) ++
    ['e', if exponent < 0 then '-' else '+'] ++ List.replicate (2 - power.length) '0' ++ power

/-- The magnitude of a code in a tree file: positional from 0.0001 up to below 10^16. -/
def stored (code : Nat) : List Char :=
  if code = 0 then ['0', '.', '0']
  else
    let (digits, exponent) := (Decimal.shortest code).significant
    let leading := exponent + digits.length - 1
    if leading < -4 ∨ 16 ≤ leading then scientific digits leading
    else if 0 ≤ exponent then positional digits exponent ++ ['.', '0']
    else positional digits exponent

/-- The text of a number in a tree file. -/
def storedText : Number → Text
  | .nan => "NaN"
  | .infinite negative => signed negative "Infinity".toList
  | .finite negative code => signed negative (stored code)

/-- The number of a literal: digits, and possibly a fraction. -/
def ofLiteral (digits fraction : List Char) : Number :=
  Decimal.toNumber false ⟨Nat.ofDigitChars 10 (digits ++ fraction) 0, -fraction.length⟩

/-- The number of a literal with an exponent. A magnitude of 10^400 is infinite and one below
10^-400 is zero, so no power of ten beyond those is computed. -/
def ofScientific (negative : Bool) (digits fraction : List Char) (exponent : Int) : Number :=
  let decimal : Decimal := ⟨Nat.ofDigitChars 10 (digits ++ fraction) 0, exponent - fraction.length⟩
  let magnitude := (Nat.toDigits 10 decimal.digits).length + decimal.exponent
  if decimal.digits = 0 || magnitude < -400 then zero negative
  else if 400 < magnitude then .infinite negative
  else decimal.toNumber negative

/-- The double nearest to an integer, unless that is an infinity. -/
def ofInt? (n : Int) : Option Number :=
  match ofQuotient (n < 0) n.natAbs 1 with
  | .infinite _ => none
  | number => some number

end Number

end Lox
