import FieldQuery.Text.Bytes

/-!
# Percent-encoded text

In a URL a byte may be written as a percent sign and two hexadecimal digits.
-/

namespace FieldQuery.Text

def percentSign : UInt8 := 37

/-- The byte of two characters that are hexadecimal digits. -/
def byteOfDigits? (high low : UInt8) : Option UInt8 := do
  let high ← hexDigit? (Char.ofNat high.toNat)
  let low ← hexDigit? (Char.ofNat low.toNat)
  return UInt8.ofNat (high * 16 + low)

/-- The bytes that are written; a percent sign without two digits behind it stands for itself. -/
def percentDecode : List UInt8 → List UInt8
  | [] => []
  | [a] => [a]
  | [a, b] => [a, b]
  | a :: high :: low :: rest =>
    match if a = percentSign then byteOfDigits? high low else none with
    | some byte => byte :: percentDecode rest
    | none => a :: percentDecode (high :: low :: rest)

/-- The bytes of a text with percent signs. -/
def percentBytes (chars : List Char) : List UInt8 :=
  percentDecode (utf8 (String.ofList chars))

/-- The text that is written, if its bytes are one. -/
def percentText? (chars : List Char) : Option String :=
  ofUtf8? (percentBytes chars)

end FieldQuery.Text
