import FieldQuery.Text.Printable

/-!
# Quoted text

A text between double quotes on one line of printable characters: the quote and the backslash
carry a backslash, the common control characters have short names, and every other character that
would not show, or would melt into the one in front of it, is written by its code point.
-/

namespace FieldQuery.Text

/-- A code point in lower-case hexadecimal, as short as it gets. -/
def hexCode (c : Char) : List Char :=
  Nat.toDigits 16 c.toNat

/-- One character of a quoted text. -/
def escape (c : Char) : List Char :=
  if c = '\x00' then ['\\', '0']
  else if c = '\t' then ['\\', 't']
  else if c = '\n' then ['\\', 'n']
  else if c = '\r' then ['\\', 'r']
  else if c = '"' then ['\\', '"']
  else if c = '\\' then ['\\', '\\']
  else if isCombining c || isUnprintable c then
    ['\\', 'u', '\x7b'] ++ hexCode c ++ ['\x7d']
  else [c]

/-- A text in double quotes. -/
def quoted (s : String) : String :=
  String.ofList ('"' :: s.toList.flatMap escape ++ ['"'])

end FieldQuery.Text
