/-!
# Double-precision numbers

A number is a double with a single NaN. A finite one is a sign and a code, where the codes count
the magnitudes upwards from zero, so that comparing two numbers is comparing two integers and the
exact value is a small product of a whole number and a power of two.

Arithmetic goes through the machine's doubles; nothing else in the library looks at those.
-/

namespace Lox

-- A power of natural numbers is the one of the core library, whatever monoids are in scope.
attribute [local instance (high)] instPowNat

/-- The number of finite magnitudes, which is also the bit pattern of infinity. -/
def finiteCodes : Nat :=
  2047 * 2 ^ (52 : Nat)

/-- A double, with all NaN patterns taken as one. -/
inductive Number where
  | nan
  | infinite (negative : Bool)
  | finite (negative : Bool) (code : Fin finiteCodes)
  deriving DecidableEq, Repr

namespace Number

/-- Zero with a sign. -/
def zero (negative : Bool) : Number :=
  .finite negative ⟨0, by decide⟩

instance : Inhabited Number := ⟨zero false⟩

/-- The number with a sign and a code, where a code that is too large means infinity. -/
def ofCode (negative : Bool) (code : Nat) : Number :=
  if h : code < finiteCodes then .finite negative ⟨code, h⟩ else .infinite negative

/-- The number that a bit pattern of the interchange format stands for. -/
def ofBits (bits : UInt64) : Number :=
  let negative := decide (2 ^ (63 : Nat) ≤ bits.toNat)
  let code := bits.toNat % 2 ^ (63 : Nat)
  if finiteCodes < code then .nan else ofCode negative code

/-- The bit pattern of a number in the interchange format. -/
def toBits : Number → UInt64
  | .nan => 0x7ff8000000000000
  | .infinite negative => signBit negative + UInt64.ofNat finiteCodes
  | .finite negative code => signBit negative + UInt64.ofNat code.val
where
  /-- The sign's place in a bit pattern. -/
  signBit (negative : Bool) : UInt64 :=
    if negative then 0x8000000000000000 else 0

/-- The machine's double of a number. -/
def toFloat (x : Number) : Float :=
  Float.ofBits x.toBits

/-- The number of a machine double. -/
def ofFloat (x : Float) : Number :=
  ofBits x.toBits

instance : Add Number := ⟨fun x y => ofFloat (x.toFloat + y.toFloat)⟩
instance : Sub Number := ⟨fun x y => ofFloat (x.toFloat - y.toFloat)⟩
instance : Mul Number := ⟨fun x y => ofFloat (x.toFloat * y.toFloat)⟩

/-- Division never fails: a zero divisor gives an infinity, or NaN for a zero or NaN dividend. -/
instance : Div Number := ⟨fun x y => ofFloat (x.toFloat / y.toFloat)⟩

/-- The number with the opposite sign. -/
def negate : Number → Number
  | .nan => .nan
  | .infinite negative => .infinite !negative
  | .finite negative code => .finite (!negative) code

instance : Neg Number := ⟨negate⟩

/-- The place of a number in the order of all numbers; both zeros have the same, and NaN none. -/
def rank? : Number → Option Int
  | .nan => none
  | .infinite negative => some (if negative then -finiteCodes else finiteCodes)
  | .finite negative code => some (if negative then -code.val else code.val)

/-- Whether the ranks of two numbers exist and stand in a relation. -/
def compare (relation : Int → Int → Bool) (x y : Number) : Bool :=
  match x.rank?, y.rank? with
  | some a, some b => relation a b
  | _, _ => false

/-- Equality of values: the two zeros are equal, and NaN equals nothing. -/
def equals (x y : Number) : Bool :=
  compare (· = ·) x y

/-- Strict order of values. -/
def less (x y : Number) : Bool :=
  compare (· < ·) x y

/-- Order of values. -/
def lessOrEqual (x y : Number) : Bool :=
  compare (· ≤ ·) x y

/-- The whole number whose product with a power of two is the magnitude of a code. -/
def significand (code : Nat) : Nat :=
  if code < 2 ^ (52 : Nat) then code else 2 ^ (52 : Nat) + code % 2 ^ (52 : Nat)

/-- The exponent of that power of two. -/
def scale (code : Nat) : Int :=
  if code < 2 ^ (52 : Nat) then -1074 else (code / 2 ^ (52 : Nat) : Nat) - 1075

end Number

end Lox
