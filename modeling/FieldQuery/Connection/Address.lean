import FieldQuery.Text.Bytes

/-!
# Internet addresses

An address of version 4 is four numbers in decimal, an address of version 6 is eight groups in
hexadecimal.  Of these a run of zeros may be left out once, and the last two may be written as an
address of version 4.

Main definitions:

- `Address`: the addresses.
- `Address.parse?`: reads one.
-/

namespace FieldQuery.Connection

/-- An internet address. -/
inductive Address
  | v4 (bytes : List UInt8)
  | v6 (groups : List UInt16)
  deriving DecidableEq, Repr

/-- The parts of a text between the places where a character stands. -/
def splitAtEach (separator : Char) : List Char → List (List Char)
  | [] => [[]]
  | c :: rest =>
    match splitAtEach separator rest with
    | [] => [[]]
    | part :: parts => if c = separator then [] :: part :: parts else (c :: part) :: parts

/-- The number of decimal digits. -/
def decimal? (chars : List Char) : Option Nat :=
  if !chars.isEmpty && chars.all Char.isDigit then
    some (chars.foldl (fun n c => n * 10 + (c.toNat - '0'.toNat)) 0)
  else none

namespace Address

/-- A number from 0 to 255 without leading zeros. -/
def octet? (chars : List Char) : Option UInt8 := do
  let n ← decimal? chars
  if n < 256 ∧ (chars.length = 1 ∨ chars.head? ≠ some '0') then return UInt8.ofNat n else none

/-- Four numbers, joined by points. -/
def octets? (chars : List Char) : Option (List UInt8) := do
  let bytes ← (splitAtEach '.' chars).mapM octet?
  if bytes.length = 4 then return bytes else none

/-- One to four hexadecimal digits. -/
def group? (chars : List Char) : Option UInt16 := do
  let digits ← chars.mapM Text.hexDigit?
  if 1 ≤ digits.length ∧ digits.length ≤ 4 then
    return UInt16.ofNat (digits.foldl (fun n d => n * 16 + d) 0)
  else none

/-- Two groups in the form of an address of version 4. -/
def pairOfOctets? (chars : List Char) : Option (List UInt16) := do
  match ← octets? chars with
  | [a, b, c, d] => return [a.toUInt16 * 256 + b.toUInt16, c.toUInt16 * 256 + d.toUInt16]
  | _ => none

/-- Groups, of which only the last two may be written as an address of version 4. -/
def groupsOf? : List (List Char) → Option (List UInt16)
  | [] => some []
  | [last] => ((group? last).map ([·])).or (pairOfOctets? last)
  | first :: rest => do return (← group? first) :: (← groupsOf? rest)

/-- Groups joined by colons. -/
def groups? : List Char → Option (List UInt16)
  | [] => some []
  | chars => groupsOf? (splitAtEach ':' chars)

/-- The texts in front of the first double colon and behind it. -/
def splitAtGap? : List Char → Option (List Char × List Char)
  | [] => none
  | ':' :: ':' :: rest => some ([], rest)
  | c :: rest => (splitAtGap? rest).map fun (front, back) => (c :: front, back)

/-- An address of version 6: eight groups, or fewer around a gap. -/
def sixteenBytes? (chars : List Char) : Option (List UInt16) :=
  match splitAtGap? chars with
  | none => do
    let groups ← groups? chars
    if groups.length = 8 then return groups else none
  | some (front, back) => do
    -- the form of version 4 may only stand at the end
    let front ← if front.contains '.' then none else groups? front
    let back ← groups? back
    let missing := 8 - (front.length + back.length)
    if 1 ≤ missing then return front ++ List.replicate missing 0 ++ back else none

/-- Reads an address of either version. -/
def parse? (text : String) : Option Address :=
  let chars := text.toList
  ((octets? chars).map v4).or ((sixteenBytes? chars).map v6)

end Address

end FieldQuery.Connection
