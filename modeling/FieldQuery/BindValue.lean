import FieldQuery.Decimal.Shortest
import FieldQuery.Text.Bytes
import FieldQuery.Text.Quoted

/-!
# Bound values

The values that a statement binds to its marks.  Each has a one-line rendering, which cache keys
are made of.
-/

namespace FieldQuery

/-- A universally unique identifier, as its 128-bit number. -/
structure Uuid where
  number : Nat
  deriving DecidableEq, Repr

namespace Uuid

/-- The number of 32 hexadecimal digits. -/
def ofDigits? (chars : List Char) : Option Uuid := do
  let digits ← chars.mapM Text.hexDigit?
  if digits.length = 32 then return ⟨digits.foldl (fun n d => n * 16 + d) 0⟩ else none

/-- Reads the form with four hyphens. -/
def hyphenated? (chars : List Char) : Option Uuid :=
  if chars.length = 36 ∧ [8, 13, 18, 23].all (fun i => chars[i]? == some '-') then
    ofDigits? (chars.filter (· ≠ '-'))
  else none

/-- Reads 32 hexadecimal digits: bare, or with hyphens and then also in braces or behind the name
of their scheme. -/
def parse? (text : String) : Option Uuid :=
  let chars := text.toList
  if chars.length = 32 then ofDigits? chars
  else if chars.length = 38 then
    if chars.head? = some '\x7b' ∧ chars.getLast? = some '\x7d' then
      hyphenated? (chars.drop 1).dropLast
    else none
  else if chars.length = 45 then
    if chars.take 9 = "urn:uuid:".toList then hyphenated? (chars.drop 9) else none
  else hyphenated? chars

/-- Digit number `i` of 32, the highest first. -/
def digitChar (id : Uuid) (i : Nat) : Char :=
  Nat.digitChar (id.number / Nat.pow 16 (31 - i) % 16)

/-- Eight, four, four, four and twelve lower-case digits, joined by hyphens. -/
def text (id : Uuid) : String :=
  let digits (first count : Nat) := (List.range count).map fun i => id.digitChar (first + i)
  String.ofList (digits 0 8 ++ '-' :: digits 8 4 ++ '-' :: digits 12 4 ++ '-' :: digits 16 4 ++
    '-' :: digits 20 12)

end Uuid

/-- A value bound to a mark of a statement. -/
inductive BindValue
  | none
  | some (value : BindValue)
  | bool (value : Bool)
  | int (value : Int)
  | float (value : Binary64)
  | text (value : String)
  | bytes (value : List UInt8)
  | ints (value : List Int)
  | texts (value : List String)
  | uuid (value : Uuid)
  deriving DecidableEq, Repr

namespace BindValue

/-- Elements in brackets, parted by a comma and a space. -/
def bracketed (items : List String) : String :=
  "[" ++ ", ".intercalate items ++ "]"

/-- Floats are positional from `0.0001` to below `10 ^ 16`; a positive exponent carries no sign, and
ties go up. -/
def floatLayout : Decimal.Layout := ⟨-4, 16, "", .upper⟩

/-- The one-line rendering of a value. -/
def rendering : BindValue → String
  | .none => "None"
  | .some value => "Some(" ++ value.rendering ++ ")"
  | .bool value => if value then "true" else "false"
  | .int value => toString value
  | .float value => floatLayout.text value
  | .text value => Text.quoted value
  | .bytes value => bracketed (value.map fun b => toString b.toNat)
  | .ints value => bracketed (value.map toString)
  | .texts value => bracketed (value.map Text.quoted)
  | .uuid value => value.text

/-- The rendering of a list of values. -/
def renderings (values : List BindValue) : String :=
  bracketed (values.map rendering)

end BindValue

end FieldQuery
