import FieldQuery.Decimal.Shortest

/-!
# JSON numbers

A number is an integer or a float, and `1.0` is not `1`.  A literal without fraction and exponent
is an integer when it fits in 64 bits (signed below zero, unsigned from zero on) and is not `-0`;
every other literal is a float.

A float is read with at most nineteen or twenty digits: those whose integer fits in 64 unsigned
bits.  That integer and a power of ten are each rounded to a float, and the two are multiplied or
divided, which rounds once more.

Main definitions:

- `NumberLiteral`: sign, digits and exponent as written; `NumberLiteral.ofChars?` reads one.
- `Number.ofLiteral?`: the number a literal stands for, unless it is out of range.
- `Number.text`: the shortest literal.
-/

namespace FieldQuery.Json

/-- A number of a JSON document. -/
inductive Number
  | int (value : Int)
  | float (value : Binary64)
  deriving DecidableEq, Repr

/-- A number as written: digits before and behind the point, and the exponent if there is one. -/
structure NumberLiteral where
  negative : Bool
  whole : List Nat
  fraction : List Nat
  hasPoint : Bool
  exponent : Option (Bool × List Nat)
  deriving DecidableEq, Repr

def digitOf? (c : Char) : Option Nat :=
  if c.isDigit then some (c.toNat - '0'.toNat) else none

/-- The digits at the front of a text, and what follows them. -/
def digitsOf : List Char → List Nat × List Char
  | [] => ([], [])
  | c :: rest =>
    match digitOf? c with
    | some d => (d :: (digitsOf rest).1, (digitsOf rest).2)
    | none => ([], c :: rest)

/-- Reads an exponent, which must take up the whole text and have a digit. -/
def exponentOf? : List Char → Option (Bool × List Nat)
  | '-' :: rest =>
    match digitsOf rest with
    | (d :: ds, []) => some (true, d :: ds)
    | _ => none
  | '+' :: rest =>
    match digitsOf rest with
    | (d :: ds, []) => some (false, d :: ds)
    | _ => none
  | text =>
    match digitsOf text with
    | (d :: ds, []) => some (false, d :: ds)
    | _ => none

/-- Reads what follows the digits of a number. -/
def NumberLiteral.close? (literal : NumberLiteral) : List Char → Option NumberLiteral
  | [] => some literal
  | c :: rest =>
    if c = 'e' ∨ c = 'E' then
      (exponentOf? rest).map fun e => { literal with exponent := some e }
    else none

/-- Reads a number without its sign: no leading zero before another digit, and a point stands
between digits. -/
def NumberLiteral.unsigned? (negative : Bool) (text : List Char) : Option NumberLiteral :=
  match digitsOf text with
  | ([], _) => none
  | (0 :: _ :: _, _) => none
  | (whole, '.' :: rest) =>
    match digitsOf rest with
    | ([], _) => none
    | (fraction, rest) => NumberLiteral.close? ⟨negative, whole, fraction, true, none⟩ rest
  | (whole, rest) => NumberLiteral.close? ⟨negative, whole, [], false, none⟩ rest

/-- Reads a whole text as a number. -/
def NumberLiteral.ofChars? : List Char → Option NumberLiteral
  | '-' :: rest => NumberLiteral.unsigned? true rest
  | text => NumberLiteral.unsigned? false text

/-- The largest integer that the digits of a float are collected in. -/
def digitLimit : Nat := Nat.pow 2 64 - 1

/-- Digits collected so far, and the power of ten that the digits left out stand for. -/
structure Significand where
  value : Nat
  power : Int
  deriving DecidableEq, Repr

/-- Collects digits before the point.  From the first that does not fit, each only raises the
power. -/
def Significand.whole (s : Significand) : List Nat → Significand
  | [] => s
  | d :: ds =>
    if s.value * 10 + d ≤ digitLimit then whole ⟨s.value * 10 + d, s.power⟩ ds
    else ⟨s.value, s.power + (ds.length + 1)⟩

/-- Collects digits behind the point.  From the first that does not fit, they are left out. -/
def Significand.fraction (s : Significand) : List Nat → Significand
  | [] => s
  | d :: ds =>
    if s.value * 10 + d ≤ digitLimit then fraction ⟨s.value * 10 + d, s.power - 1⟩ ds
    else s

/-- The largest power of ten among the floats. -/
def greatestPower : Nat := 308

def powerOfTen (n : Nat) : Binary64 :=
  Binary64.ofNat (Nat.pow 10 n)

/-- Divides by powers of ten until `places` of them are spent. -/
def scaleDown (x : Binary64) (places : Nat) : Binary64 :=
  if places ≤ greatestPower then x.div (powerOfTen places)
  else if x.isZero then x
  else scaleDown (x.div (powerOfTen greatestPower)) (places - greatestPower)
termination_by places
decreasing_by simp only [greatestPower]; omega

/-- The magnitude of a float, unless it is out of range. -/
def Significand.toFloat? (s : Significand) : Option Binary64 :=
  let x := Binary64.ofNat s.value
  if s.power < 0 then some (scaleDown x s.power.natAbs)
  else if s.power ≤ greatestPower then
    let y := x.mul (powerOfTen s.power.toNat)
    if y.isFinite then some y else none
  else if x.isZero then some x
  else none

def NumberLiteral.significand (literal : NumberLiteral) : Significand :=
  ((Significand.mk 0 0).whole literal.whole).fraction literal.fraction

/-- The integer that decimal digits stand for. -/
def digitsValue (digits : List Nat) : Nat :=
  digits.foldl (fun n d => n * 10 + d) 0

/-- The largest exponent that is read; larger ones are out of every range. -/
def exponentLimit : Nat := Nat.pow 2 31 - 1

/-- The magnitude of the float that a literal stands for, unless it is out of range. -/
def NumberLiteral.toFloat? (literal : NumberLiteral) : Option Binary64 :=
  let s := literal.significand
  match literal.exponent with
  | none => s.toFloat?
  | some (below, digits) =>
    let e := digitsValue digits
    -- no significand makes up for such an exponent, except zero
    if exponentLimit < e then
      if s.value = 0 ∨ below then some .zero else none
    else
      let power := if below then s.power - e else s.power + e
      Significand.toFloat? ⟨s.value, max (-(exponentLimit : Int) - 1) (min power exponentLimit)⟩

def floatOf? (literal : NumberLiteral) : Option Number :=
  literal.toFloat?.map fun x => .float (if literal.negative then x.negate else x)

/-- The number that a literal stands for, unless it is out of range. -/
def Number.ofLiteral? (literal : NumberLiteral) : Option Number :=
  let s := (Significand.mk 0 0).whole literal.whole
  -- a power other than zero says that not all digits fit
  if literal.hasPoint || literal.exponent.isSome || s.power != 0 then floatOf? literal
  else if literal.negative then
    if s.value = 0 ∨ Nat.pow 2 63 < s.value then
      some (.float (Binary64.ofNat s.value).negate)
    else some (.int (-s.value))
  else some (.int s.value)

/-- Floats are positional from `0.00001` to below `10 ^ 16`; an exponent carries its sign, and ties
go to even digits. -/
def floatLayout : Decimal.Layout := ⟨-5, 16, "+", .even⟩

def Number.text : Number → String
  | .int i => toString i
  | .float x => floatLayout.text x

/-- Equality of numbers; an integer never equals a float. -/
def Number.same : Number → Number → Bool
  | .int a, .int b => a == b
  | .float x, .float y => x.sameNumber y
  | _, _ => false

/-- The nearest float to a number. -/
def Number.toBinary64 : Number → Binary64
  | .int i => Binary64.ofInt i
  | .float x => x

end FieldQuery.Json
