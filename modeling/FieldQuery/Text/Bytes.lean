/-!
# Bytes and text

Hexadecimal digits, integers of several bytes and UTF-8.
-/

namespace FieldQuery.Text

/-- A hexadecimal digit in lower or upper case. -/
def hexDigit? (c : Char) : Option Nat :=
  if '0' ≤ c ∧ c ≤ '9' then some (c.toNat - '0'.toNat)
  else if 'a' ≤ c ∧ c ≤ 'f' then some (c.toNat - 'a'.toNat + 10)
  else if 'A' ≤ c ∧ c ≤ 'F' then some (c.toNat - 'A'.toNat + 10)
  else none

/-- Two lower-case hexadecimal digits. -/
def hexByte (b : UInt8) : List Char :=
  [Nat.digitChar (b.toNat / 16), Nat.digitChar (b.toNat % 16)]

/-- The bytes of pairs of hexadecimal digits. -/
def bytesOfHex? : List Char → Option (List UInt8)
  | [] => some []
  | high :: low :: rest => do
    let high ← hexDigit? high
    let low ← hexDigit? low
    let bytes ← bytesOfHex? rest
    return UInt8.ofNat (high * 16 + low) :: bytes
  | [_] => none

/-- The unsigned integer of bytes, the highest first. -/
def unsigned (bytes : List UInt8) : Nat :=
  bytes.foldl (fun n b => n * 256 + b.toNat) 0

/-- The integer of bytes in two's complement, the highest first. -/
def signed (bytes : List UInt8) : Int :=
  let n := unsigned bytes
  if 2 * n < Nat.pow 256 bytes.length then n else (n : Int) - Nat.pow 256 bytes.length

/-- The text of bytes in UTF-8. -/
def ofUtf8? (bytes : List UInt8) : Option String :=
  String.fromUTF8? ⟨bytes.toArray⟩

def utf8 (text : String) : List UInt8 :=
  text.toUTF8.toList

end FieldQuery.Text
