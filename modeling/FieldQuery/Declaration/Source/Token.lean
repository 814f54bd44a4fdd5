import FieldQuery.Text.Quoted
import FieldQuery.Text.WhiteSpace

/-!
# Tokens of the text of a declaration

Names, literals and marks stand one behind the other.  White space and comments part them and are
no tokens themselves, except that a comment for readers of the declared thing is an attribute
named `doc`.

Main definitions:

- `Token`: a piece of such a text.
- `tokens`: the pieces of a text, in order.
-/

namespace FieldQuery.Source

/-- A piece of the text of a declaration. -/
inductive Token
  /-- A name; a raw one keeps its `r#`. -/
  | name (text : String)
  /-- A name behind an apostrophe. -/
  | lifetime (text : String)
  /-- A number, a character or a string, as it is written. -/
  | literal (text : String)
  /-- Any other character, and whether the next one is such a character too and follows at once. -/
  | mark (c : Char) (joint : Bool)
  deriving DecidableEq, Repr, Inhabited

def Token.text : Token → String
  | .name text => text
  | .lifetime text => "'" ++ text
  | .literal text => text
  | .mark c _ => String.ofList [c]

/-! ## Characters -/

/-- White space, and the two marks that tell the direction of writing. -/
def isBlank (c : Char) : Bool :=
  Text.isWhiteSpace c || c == '\u200e' || c == '\u200f'

/-- The characters of names.  All beyond ASCII count that are not blank. -/
def isNameChar (c : Char) : Bool :=
  c == '_' || c.isAlphanum || (128 ≤ c.toNat && !isBlank c)

def isNameStart (c : Char) : Bool :=
  isNameChar c && !c.isDigit

/-- The marks that may be the second of two that belong together. -/
def isMark (c : Char) : Bool :=
  ['~', '!', '@', '#', '$', '%', '^', '&', '*', '-', '=', '+', '|', ';', ':', ',', '<', '.', '>',
    '?'].contains c

/-- How many name characters a text begins with. -/
def nameLength (text : List Char) : Nat :=
  (text.takeWhile isNameChar).length

/-! ## Literals -/

/-- How far it is to the end of a text with escapes: the next quote without a backslash. -/
def quotedLength (quote : Char) : List Char → Nat
  | '\\' :: _ :: rest => quotedLength quote rest + 2
  | c :: rest => if c = quote then 1 else quotedLength quote rest + 1
  | [] => 0

/-- How far it is to the end of a text that ends with these characters and has no escapes. -/
def rawLength (ending : List Char) : List Char → Nat
  | [] => 0
  | c :: rest => if ending.isPrefixOf (c :: rest) then ending.length else rawLength ending rest + 1

/-- The number of digits that a text begins with; underscores count as digits. -/
def digitsLength (text : List Char) : Nat :=
  (text.takeWhile fun c => c.isDigit || c == '_').length

/-- The length of an exponent: a letter, possibly a sign, and digits. -/
def exponentLength : List Char → Nat
  | c :: rest =>
    if c = 'e' ∨ c = 'E' then
      let sign := if rest.head?.any fun c => c == '+' || c == '-' then 1 else 0
      let digits := digitsLength (rest.drop sign)
      if ((rest.drop sign).take digits).any Char.isDigit then 1 + sign + digits else 0
    else 0
  | [] => 0

/-- The length of a fraction: a point, unless a second one or a name follows it, and digits. -/
def fractionLength : List Char → Nat
  | '.' :: rest =>
    if rest.head?.any fun c => c == '.' || isNameStart c then 0 else 1 + digitsLength rest
  | _ => 0

/-- The length of a number with its suffix. -/
def numberLength (text : List Char) : Nat :=
  let digits := digitsLength text
  let whole := digits + fractionLength (text.drop digits)
  let all := whole + exponentLength (text.drop whole)
  all + nameLength (text.drop all)

/-- The length of a string without escapes, between quotes with as many number signs as stand in
front of the first one. -/
def rawStringLength? (text : List Char) : Option Nat :=
  let signs := (text.takeWhile (· == '#')).length
  match text.drop signs with
  | '"' :: rest => some (signs + 1 + rawLength ('"' :: List.replicate signs '#') rest)
  | _ => none

/-- The length of what follows a word and belongs to it: the string or the character that is of the
kind named by the word, or the name behind an `r#`. -/
def bodyLength (word behind : List Char) : Nat :=
  let kind := String.ofList word
  match behind with
  | '"' :: rest =>
    if ["b", "c"].contains kind then 1 + quotedLength '"' rest
    else if ["r", "br", "cr"].contains kind then (rawStringLength? behind).getD 0
    else 0
  | '\x27' :: rest => if kind = "b" then 1 + quotedLength '\x27' rest else 0
  | '#' :: rest =>
    if ["r", "br", "cr"].contains kind then
      match rawStringLength? behind with
      | some n => n
      | none => if kind = "r" ∧ rest.head?.any isNameStart then 1 + nameLength rest else 0
    else 0
  | _ => 0

/-- Whether what belongs to a word makes it a literal. -/
def isLiteralBody (body : List Char) : Bool :=
  body.any fun c => c == '"' || c == '\x27'

/-! ## Comments -/

/-- How far it is to the end of a comment that may hold others. -/
def commentLength (depth : Nat) : List Char → Nat
  | '/' :: '*' :: rest => commentLength (depth + 1) rest + 2
  | '*' :: '/' :: rest =>
    match depth with
    | 0 => 2
    | depth + 1 => commentLength depth rest + 2
  | _ :: rest => commentLength depth rest + 1
  | [] => 0

/-- The characters up to the end of a line. -/
def lineOf (text : List Char) : List Char :=
  text.takeWhile (· ≠ '\n')

/-- A line without the carriage return at its end. -/
def withoutReturn (line : List Char) : List Char :=
  if line.getLast? = some '\r' then line.dropLast else line

/-- One character of a text in quotes; a zero in front of an octal digit is written in full. -/
def escapeDoc : List Char → List Char
  | [] => []
  | c :: rest =>
    if c = '\x00' ∧ rest.head?.any (fun d => '0' ≤ d && d ≤ '7') then
      ['\\', 'x', '0', '0'] ++ escapeDoc rest
    else Text.escape c ++ escapeDoc rest

/-- The attribute that a comment for readers is: of what follows, or of what it stands in. -/
def docTokens (inward : Bool) (comment : List Char) : List Token :=
  .mark '#' false :: (if inward then [.mark '!' false] else []) ++
    [.mark '[' false, .name "doc", .mark '=' false,
      .literal (String.ofList ('"' :: escapeDoc comment ++ ['"'])), .mark ']' false]

/-- The tokens of a comment up to the end of its line, given what follows the two slashes. -/
def lineCommentTokens (line : List Char) : List Token :=
  match line with
  | '/' :: '/' :: _ => []
  | '/' :: comment => docTokens false (withoutReturn comment)
  | '!' :: comment => docTokens true (withoutReturn comment)
  | _ => []

/-- The tokens of a comment between two ends, given what stands between `/*` and `*/`. -/
def blockCommentTokens (comment : List Char) : List Token :=
  match comment with
  | [] | ['*'] | '*' :: '*' :: _ => []
  | '*' :: comment => docTokens false comment
  | '!' :: comment => docTokens true comment
  | _ => []

/-! ## Tokens -/

/-- What an apostrophe begins, with its length: a character, or a name. -/
def behindApostrophe (rest : List Char) : Token × Nat :=
  match rest with
  | '\\' :: _ =>
    let n := quotedLength '\x27' rest
    (.literal (String.ofList ('\x27' :: rest.take n)), n)
  | _ :: '\x27' :: _ => (.literal (String.ofList ('\x27' :: rest.take 2)), 2)
  | 'r' :: '#' :: name =>
    let n := 2 + nameLength name
    (.lifetime (String.ofList (rest.take n)), n)
  | _ =>
    let n := nameLength rest
    (.lifetime (String.ofList (rest.take n)), n)

/-- What a word begins, with its length behind the first character. -/
def wordToken (c : Char) (rest : List Char) : Token × Nat :=
  let word := nameLength rest
  let body := bodyLength (c :: rest.take word) (rest.drop word)
  if isLiteralBody ((rest.drop word).take body) then
    let all := word + body + nameLength (rest.drop (word + body))
    (.literal (String.ofList (c :: rest.take all)), all)
  else (.name (String.ofList (c :: rest.take (word + body))), word + body)

/-- The tokens that begin with a character, and how many of the characters behind it they take. -/
def tokensAt (c : Char) (rest : List Char) : List Token × Nat :=
  if isBlank c then ([], 0)
  else if c.isDigit then
    let n := numberLength (c :: rest) - 1
    ([.literal (String.ofList (c :: rest.take n))], n)
  else if isNameChar c then
    let (token, n) := wordToken c rest
    ([token], n)
  else if c = '"' then
    let n := quotedLength '"' rest
    let all := n + nameLength (rest.drop n)
    ([.literal (String.ofList (c :: rest.take all))], all)
  else if c = '\x27' then
    let (token, n) := behindApostrophe rest
    ([token], n)
  else
    match c, rest with
    | '/', '/' :: text => (lineCommentTokens (lineOf text), 1 + (lineOf text).length)
    | '/', '*' :: text =>
      let n := commentLength 0 text
      (blockCommentTokens (text.take (n - 2)), 1 + n)
    | c, rest => ([.mark c (rest.head?.any isMark)], 0)

/-- The tokens of a text. -/
def tokens : List Char → List Token
  | [] => []
  | c :: rest => (tokensAt c rest).1 ++ tokens (rest.drop (tokensAt c rest).2)
termination_by text => text.length
decreasing_by
  rw [List.length_drop, List.length_cons]
  omega

/-! ## Numbers of tuple fields -/

/-- The value of a digit of any base up to sixteen. -/
def hexValue (c : Char) : Nat :=
  if c.isDigit then c.toNat - '0'.toNat else c.toLower.toNat - 'a'.toNat + 10

/-- A whole number, which may be written in another base, in decimal digits. -/
def decimalText (digits : List Char) : String :=
  let value (base : Nat) (digits : List Char) : Nat :=
    (digits.filter (· ≠ '_')).foldl (fun n c => n * base + hexValue c) 0
  match digits with
  | '0' :: 'x' :: digits => toString (value 16 digits)
  | '0' :: 'o' :: digits => toString (value 8 digits)
  | '0' :: 'b' :: digits => toString (value 2 digits)
  | digits => toString (value 10 digits)

/-- The parts of a text between points. -/
def splitPoints (part : List Char) : List Char → List (List Char)
  | [] => [part.reverse]
  | c :: rest =>
    if c = '.' then part.reverse :: splitPoints [] rest else splitPoints (c :: part) rest

/-- The numbers of fields of tuples, one in the other, in decimal digits. -/
def indexText (literal : String) : String :=
  ".".intercalate ((splitPoints [] literal.toList).map fun part =>
    if part.isEmpty then "" else decimalText part)

end FieldQuery.Source
