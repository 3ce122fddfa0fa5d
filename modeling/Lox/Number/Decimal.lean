import Lox.Number.Basic

/-!
# Decimals and correct rounding

A decimal is a whole number times a power of ten. Every finite double is one exactly, and every
decimal has one nearest double, of two equally near ones the one with the even code. The shortest
decimal of a double is found by giving up as many of its exact digits as still read back.
-/

namespace Lox

-- A power of natural numbers is the one of the core library, whatever monoids are in scope.
attribute [local instance (high)] instPowNat

/-- The value `digits * 10 ^ exponent`. -/
structure Decimal where
  digits : Nat
  exponent : Int
  deriving DecidableEq, Repr

/-- The whole number nearest to a quotient; a half goes to the even one. -/
def roundQuotient (numerator denominator : Nat) : Nat :=
  let quotient := numerator / denominator
  let remainder := numerator % denominator
  if 2 * remainder < denominator then quotient
  else if denominator < 2 * remainder then quotient + 1
  else quotient + quotient % 2

/-- The code of the double nearest to a positive quotient. Codes past the finite ones stand for
values that round to infinity. -/
def nearestCode (numerator denominator : Nat) : Nat :=
  let estimate : Int := numerator.log2 - denominator.log2
  let reached := denominator * 2 ^ estimate.toNat ≤ numerator * 2 ^ (-estimate).toNat
  let leading : Int := if reached then estimate else estimate - 1
  let scale : Int := max (leading - 52) (-1074)
  let significand :=
    roundQuotient (numerator * 2 ^ (-scale).toNat) (denominator * 2 ^ scale.toNat)
  (scale + 1074).toNat * 2 ^ (52 : Nat) + significand

/-- The double nearest to a quotient with a sign. -/
def Number.ofQuotient (negative : Bool) (numerator denominator : Nat) : Number :=
  if numerator = 0 then Number.zero negative
  else Number.ofCode negative (nearestCode numerator denominator)

namespace Decimal

/-- The double nearest to a decimal with a sign. -/
def toNumber (negative : Bool) (d : Decimal) : Number :=
  Number.ofQuotient negative (d.digits * 10 ^ d.exponent.toNat) (10 ^ (-d.exponent).toNat)

/-- The exact value of a code. -/
def ofCode (code : Nat) : Decimal :=
  let scale := Number.scale code
  ⟨Number.significand code * 2 ^ scale.toNat * 5 ^ (-scale).toNat, min scale 0⟩

/-- The decimal without its last digits. -/
def below (d : Decimal) (dropped : Nat) : Decimal :=
  ⟨d.digits / 10 ^ dropped, d.exponent + dropped⟩

/-- The next decimal of the same grid. -/
def above (d : Decimal) (dropped : Nat) : Decimal :=
  ⟨d.digits / 10 ^ dropped + 1, d.exponent + dropped⟩

/-- The decimal of a grid that is nearest; of two equally near ones the even one. -/
def nearest (d : Decimal) (dropped : Nat) : Decimal :=
  ⟨roundQuotient d.digits (10 ^ dropped), d.exponent + dropped⟩

/-- The nearer of the two neighbours on a grid that are accepted. -/
def neighbour? (accepted : Decimal → Bool) (d : Decimal) (dropped : Nat) : Option Decimal :=
  let below := d.below dropped
  let above := d.above dropped
  match accepted below, accepted above with
  | true, true => some (d.nearest dropped)
  | true, false => some below
  | false, true => some above
  | false, false => none

/-- The accepted decimal with the fewest digits, when at most the given number of digits may be
dropped. -/
def shortened (accepted : Decimal → Bool) (d : Decimal) : (dropped : Nat) → Decimal
  | 0 => d
  | dropped + 1 =>
    match d.neighbour? accepted (dropped + 1) with
    | some found => found
    | none => d.shortened accepted dropped

/-- The shortest decimal that reads back as the double with a code. -/
def shortest (code : Nat) : Decimal :=
  let exact := ofCode code
  exact.shortened (fun d => d.toNumber false = Number.ofCode false code)
    ((Nat.toDigits 10 exact.digits).length - 1)

/-- The digits from the first to the last that is not zero, and the exponent of that last one. -/
def significant (d : Decimal) : List Char × Int :=
  let digits := Nat.toDigits 10 d.digits
  let kept := (digits.reverse.dropWhile (· = '0')).reverse
  (kept, d.exponent + (digits.length - kept.length : Nat))

end Decimal

end Lox
