/-!
# Binary floating-point numbers of 64 bits

A number is its 64-bit word.  A finite word stands for `± significand · 2 ^ exponent`, both read
off the word in exact integer arithmetic; no run-time floating point takes part, so every
operation below is a computation on natural numbers.

Main definitions:

- `Binary64.significand`, `Binary64.exponent`, `Binary64.negative`: the parts of a finite word.
- `Binary64.ofRatio`: the nearest word to a quotient of natural numbers, ties to even.
- `Binary64.mul`, `Binary64.div`: correctly rounded product and quotient of magnitudes.
- `Binary64.ofBinary32`: a 32-bit word, widened without loss.
-/

namespace FieldQuery

/-- A floating-point number, as its 64-bit word. -/
structure Binary64 where
  bits : UInt64
  deriving DecidableEq, Repr, Inhabited

namespace Binary64

/-- The sign bit. -/
def negative (x : Binary64) : Bool :=
  Nat.pow 2 63 ≤ x.bits.toNat

/-- The eleven exponent bits. -/
def exponentField (x : Binary64) : Nat :=
  x.bits.toNat / Nat.pow 2 52 % Nat.pow 2 11

/-- The fifty-two fraction bits. -/
def fractionField (x : Binary64) : Nat :=
  x.bits.toNat % Nat.pow 2 52

/-- Neither an infinity nor a NaN. -/
def isFinite (x : Binary64) : Bool :=
  x.exponentField != 2047

/-- The integer that the power of two scales; the hidden bit is set unless the number is
subnormal. -/
def significand (x : Binary64) : Nat :=
  if x.exponentField = 0 then x.fractionField else Nat.pow 2 52 + x.fractionField

/-- The power of two that scales the significand. -/
def exponent (x : Binary64) : Int :=
  if x.exponentField = 0 then -1074 else (x.exponentField : Int) - 1075

def isZero (x : Binary64) : Bool :=
  x.significand == 0

/-- Equality of numbers: the two zeros are equal, every other number only to itself. -/
def sameNumber (x y : Binary64) : Bool :=
  x == y || (x.isZero && y.isZero)

def negate (x : Binary64) : Binary64 :=
  ⟨x.bits ^^^ (0x8000000000000000 : UInt64)⟩

def zero : Binary64 := ⟨0⟩

/-- The word of `significand · 2 ^ exponent`, for a significand below `2 ^ 53` that is at least
`2 ^ 52` unless the exponent is `-1074`.  A carry out of the fraction moves into the exponent
field by itself; from the largest exponent on the result is the infinity. -/
def pack (significand : Nat) (exponent : Int) : Binary64 :=
  let word := (exponent + 1074).toNat * Nat.pow 2 52 + significand
  ⟨UInt64.ofNat (min word (2047 * Nat.pow 2 52))⟩

/-- `num / den` rounded to the nearest integer, a half to the even neighbour. -/
def divNearest (num den : Nat) : Nat :=
  let q := num / den
  let twice := 2 * (num % den)
  if twice < den then q
  else if den < twice then q + 1
  else q + q % 2

/-- `num / den · 2 ^ (-e)` as a quotient of natural numbers. -/
def scaled (num den : Nat) (e : Int) : Nat × Nat :=
  if 0 ≤ e then (num, den * Nat.pow 2 e.toNat) else (num * Nat.pow 2 (-e).toNat, den)

/-- The nearest number to `num / den`, a half going to the even significand; `den` is positive.
The exponent is the one that leaves the quotient between `2 ^ 52` and `2 ^ 53`, and no less
than `-1074`. -/
def ofRatio (num den : Nat) : Binary64 :=
  if num = 0 then zero
  else
    -- the logarithms leave the quotient between `2 ^ 51` and `2 ^ 53`
    let guess : Int := (Nat.log2 num : Int) - (Nat.log2 den : Int) - 52
    let (n, d) := scaled num den guess
    let e := if n < d * Nat.pow 2 52 then guess - 1 else guess
    -- subnormal numbers have fewer bits instead of a smaller exponent
    let e := max e (-1074)
    let (n, d) := scaled num den e
    pack (divNearest n d) e

/-- The nearest number to a natural number. -/
def ofNat (n : Nat) : Binary64 :=
  ofRatio n 1

/-- The nearest number to an integer. -/
def ofInt (i : Int) : Binary64 :=
  if i < 0 then (ofNat i.natAbs).negate else ofNat i.natAbs

/-- The magnitude as a quotient of natural numbers. -/
def ratio (x : Binary64) : Nat × Nat :=
  if 0 ≤ x.exponent then (x.significand * Nat.pow 2 x.exponent.toNat, 1)
  else (x.significand, Nat.pow 2 (-x.exponent).toNat)

/-- The product of the magnitudes of two finite numbers, rounded once. -/
def mul (x y : Binary64) : Binary64 :=
  let (a, b) := x.ratio
  let (c, d) := y.ratio
  ofRatio (a * c) (b * d)

/-- The quotient of the magnitudes of two finite numbers, rounded once; `y` is not zero. -/
def div (x y : Binary64) : Binary64 :=
  let (a, b) := x.ratio
  let (c, d) := y.ratio
  ofRatio (a * d) (b * c)

/-- The number a 32-bit word stands for.  Every such number is a 64-bit one; infinities and NaNs
keep their exponent of all ones. -/
def ofBinary32 (word : UInt32) : Binary64 :=
  let field := word.toNat / Nat.pow 2 23 % Nat.pow 2 8
  let fraction := word.toNat % Nat.pow 2 23
  let magnitude : Binary64 :=
    if field = 255 then ⟨UInt64.ofNat (2047 * Nat.pow 2 52 + fraction * Nat.pow 2 29)⟩
    else if field = 0 then ofRatio fraction (Nat.pow 2 149)
    else ofRatio ((Nat.pow 2 23 + fraction) * Nat.pow 2 field) (Nat.pow 2 150)
  if Nat.pow 2 31 ≤ word.toNat then magnitude.negate else magnitude

end Binary64

end FieldQuery
