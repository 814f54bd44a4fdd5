import FieldQuery.Binary64

/-!
# Shortest decimal digits

The shortest decimal that reads back as a given finite number, and of those the nearest.  The
numbers that round to `significand · 2 ^ exponent` fill an interval; for one, two, … seventeen
digits the two neighbours of the number on that decimal grid are tested against it, and the first
grid with a hit wins.  Of two neighbours that are equally near, formats take different ones.

Main definitions:

- `Decimal`: digits and a power of ten.
- `Decimal.shortest`: the digits of a finite number.
- `Decimal.Layout`: what a format decides; `Decimal.Layout.text` writes a number in it.
-/

namespace FieldQuery

/-- The number `digits · 10 ^ power`. -/
structure Decimal where
  digits : Nat
  power : Int
  deriving DecidableEq, Repr

namespace Decimal

/-- Four times the ends of the interval of numbers that round to `m · 2 ^ e`, in units of `2 ^ e`:
half a unit to both sides, but a quarter below a power of two, where the grid is finer. -/
def roundingEnds (m : Nat) (e : Int) : Nat × Nat :=
  (if m = Nat.pow 2 52 ∧ -1074 < e then 4 * m - 1 else 4 * m - 2, 4 * m + 2)

/-- A number as a quotient, `unit · m` times a power of two being `m * unit.1 / unit.2`. -/
def binaryUnit (e : Int) : Nat × Nat :=
  if 0 ≤ e then (Nat.pow 2 e.toNat, 1) else (1, Nat.pow 2 (-e).toNat)

/-- A power of ten as a quotient. -/
def decimalUnit (p : Int) : Nat × Nat :=
  if 0 ≤ p then (Nat.pow 10 p.toNat, 1) else (1, Nat.pow 10 (-p).toNat)

/-- The number of digits in front of the decimal point, for `num / den` at least one; for smaller
quotients minus the number of zeros right behind it. -/
def wholeDigits (num den : Nat) : Int :=
  let binary : Int := (Nat.log2 num : Int) - Nat.log2 den - 1
  -- the decimal logarithm of two is a little less than 30103 / 100000
  let guess : Int := Int.fdiv (binary * 30103) 100000
  let reaches (k : Int) : Bool :=
    let (a, b) := decimalUnit k
    a * den ≤ num * b
  if reaches (guess + 1) then guess + 2
  else if reaches guess then guess + 1
  else guess

/-- Which of two equally near digits is taken. -/
inductive Tie
  | even
  | upper
  deriving DecidableEq, Repr

/-- Whether the upper neighbour is taken, given the lower one of a number halfway between. -/
def Tie.goesUp (tie : Tie) (below : Nat) : Bool :=
  match tie with
  | .even => below % 2 != 0
  | .upper => true

/-- The neighbours of `m · 2 ^ e` on the grid of multiples of `10 ^ p`, those that round back to it,
nearer first. -/
def onGrid (tie : Tie) (m : Nat) (e : Int) (p : Int) : List Nat :=
  let (u, v) := binaryUnit e
  let (s, t) := decimalUnit p
  -- `4 · m · 2 ^ e / 10 ^ p = num / den`
  let den := v * s
  let num := 4 * m * u * t
  let low := (roundingEnds m e).1 * u * t
  let high := (roundingEnds m e).2 * u * t
  let below := num / (4 * den)
  -- the ends of the interval round to the even of the two numbers they lie between
  let inside (d : Nat) : Bool :=
    if m % 2 = 0 then low ≤ 4 * d * den && 4 * d * den ≤ high
    else low < 4 * d * den && 4 * d * den < high
  let toBelow := num - 4 * below * den
  let toAbove := 4 * (below + 1) * den - num
  let order :=
    if toBelow < toAbove then [below, below + 1]
    else if toAbove < toBelow then [below + 1, below]
    else if tie.goesUp below then [below + 1, below] else [below, below + 1]
  order.filter (fun d => d != 0 && inside d)

/-- Trailing zeros move into the power of ten. -/
def dropZeros : Nat → Decimal → Decimal
  | 0, d => d
  | n + 1, d =>
    if d.digits % 10 = 0 && d.digits != 0 then dropZeros n ⟨d.digits / 10, d.power + 1⟩ else d

/-- The first grid, from one digit to seventeen, that holds a number rounding to `m · 2 ^ e`. -/
def firstHit (tie : Tie) (m : Nat) (e whole : Int) : Nat → Option Decimal
  | 0 => none
  | left + 1 =>
    let power := whole - (17 - left : Int)
    match onGrid tie m e power with
    | d :: _ => some ⟨d, power⟩
    | [] => firstHit tie m e whole left

/-- The shortest digits of the magnitude of a finite number, nearest first. -/
def shortest (tie : Tie) (x : Binary64) : Decimal :=
  if x.isZero then ⟨0, 0⟩
  else
    let (num, den) := x.ratio
    match firstHit tie x.significand x.exponent (wholeDigits num den) 17 with
    | some d => dropZeros 17 d
    | none => ⟨0, 0⟩

/-- What a format decides: a number whose first digit is `lead` places in front of the point
(nought or less: that many zeros behind it) is positional when `lead` lies above `lowest` and does
not pass `highest`; all others carry an exponent. -/
structure Layout where
  lowest : Int
  highest : Int
  /-- What stands in front of an exponent that is not negative. -/
  plus : String
  tie : Tie
  deriving DecidableEq, Repr

/-- So many zeros, none for a negative number. -/
def zeros (n : Int) : String :=
  String.ofList (List.replicate n.toNat '0')

/-- A fraction always has a digit on both sides of the point; in front of an exponent a point only
stands between digits. -/
def Layout.magnitude (layout : Layout) (d : Decimal) : String :=
  let text := toString d.digits
  let size : Int := text.length
  let lead := size + d.power
  if d.digits = 0 then "0.0"
  else if layout.lowest < lead ∧ lead ≤ layout.highest then
    if 0 ≤ d.power then text ++ zeros d.power ++ ".0"
    else if 0 < lead then
      String.ofList (text.toList.take lead.toNat) ++ "." ++
        String.ofList (text.toList.drop lead.toNat)
    else "0." ++ zeros (-lead) ++ text
  else
    let fraction := text.toList.drop 1
    String.ofList (text.toList.take 1) ++
      (if fraction.isEmpty then "" else "." ++ String.ofList fraction) ++
      "e" ++ (if 1 ≤ lead then layout.plus else "") ++ toString (lead - 1)

/-- The text of a number; infinities and NaNs have texts of their own. -/
def Layout.text (layout : Layout) (x : Binary64) : String :=
  if x.isFinite then
    (if x.negative then "-" else "") ++ layout.magnitude (shortest layout.tie x)
  else if x.fractionField = 0 then (if x.negative then "-inf" else "inf")
  else "NaN"

end Decimal

end FieldQuery
