import FieldQuery.Json.Number
import FieldQuery.Text.Bytes

/-!
# JSON lexemes

A text is cut into punctuation, strings, numbers and words in one pass over its characters.  A
string keeps its characters and the code units of its numeric escapes apart, because two of these
may have to be put together, and a half of a pair that stands alone is no character at all.

Main definitions:

- `Lexeme`: punctuation, strings, numbers and the three words.
- `Lexeme.ofText?`: the lexemes of a text.
- `StringPart.decode?`: the text that a string stands for.
-/

namespace FieldQuery.Json

/-- A character of a string, or a code unit written as `\u` and four digits. -/
inductive StringPart
  | char (c : Char)
  | unit (code : Nat)
  deriving DecidableEq, Repr

inductive Lexeme
  | openArray
  | closeArray
  | openObject
  | closeObject
  | comma
  | colon
  | null
  | bool (value : Bool)
  | str (parts : List StringPart)
  | num (literal : NumberLiteral)
  deriving DecidableEq, Repr

/-- Four hexadecimal digits as a code unit. -/
def codeUnit? (a b c d : Char) : Option Nat := do
  let a ← Text.hexDigit? a
  let b ← Text.hexDigit? b
  let c ← Text.hexDigit? c
  let d ← Text.hexDigit? d
  return ((a * 16 + b) * 16 + c) * 16 + d

/-- The character that a backslash and one more character stand for. -/
def shortEscape? (c : Char) : Option Char :=
  if c = '"' ∨ c = '\\' ∨ c = '/' then some c
  else if c = 'b' then some '\x08'
  else if c = 'f' then some '\x0c'
  else if c = 'n' then some '\n'
  else if c = 'r' then some '\r'
  else if c = 't' then some '\t'
  else none

/-- The parts of a string, from the characters between its quotes.  Control characters have to be
escaped. -/
def stringParts? : List Char → Option (List StringPart)
  | [] => some []
  | '\\' :: 'u' :: a :: b :: c :: d :: rest => do
    let code ← codeUnit? a b c d
    let parts ← stringParts? rest
    return .unit code :: parts
  | '\\' :: c :: rest => do
    let c ← shortEscape? c
    let parts ← stringParts? rest
    return .char c :: parts
  | c :: rest =>
    if c = '\\' ∨ c.toNat < 0x20 then none
    else (stringParts? rest).map (.char c :: ·)

def isHighSurrogate (code : Nat) : Bool := 0xD800 ≤ code && code < 0xDC00

def isLowSurrogate (code : Nat) : Bool := 0xDC00 ≤ code && code < 0xE000

/-- The characters of a string: a high surrogate and the low one behind it are one character, and
neither may stand alone. -/
def decodeParts? : List StringPart → Option (List Char)
  | [] => some []
  | .char c :: rest => (decodeParts? rest).map (c :: ·)
  | .unit high :: .unit low :: rest =>
    if isHighSurrogate high then
      if isLowSurrogate low then
        (decodeParts? rest).map
          (Char.ofNat (0x10000 + (high - 0xD800) * 0x400 + (low - 0xDC00)) :: ·)
      else none
    else if isLowSurrogate high then none
    else (decodeParts? (.unit low :: rest)).map (Char.ofNat high :: ·)
  | .unit code :: rest =>
    if isHighSurrogate code || isLowSurrogate code then none
    else (decodeParts? rest).map (Char.ofNat code :: ·)

/-- The text that a string stands for. -/
def decode? (parts : List StringPart) : Option String :=
  (decodeParts? parts).map String.ofList

/-- What the character in front belongs to. -/
inductive LexerState
  /-- Nothing is open. -/
  | between
  /-- A string, its characters so far (last one first), and whether a backslash waits. -/
  | inString (body : List Char) (escaped : Bool)
  /-- A number or a word, its characters so far (last one first). -/
  | inWord (body : List Char)
  deriving DecidableEq, Repr

/-- The lexeme of a number or a word. -/
def wordLexeme? (body : List Char) : Option Lexeme :=
  if body = "null".toList then some .null
  else if body = "true".toList then some (.bool true)
  else if body = "false".toList then some (.bool false)
  else (NumberLiteral.ofChars? body).map .num

def isBlank (c : Char) : Bool :=
  c == ' ' || c == '\n' || c == '\t' || c == '\r'

/-- The lexeme of a punctuation character. -/
def punctuation? (c : Char) : Option Lexeme :=
  if c = '[' then some .openArray
  else if c = ']' then some .closeArray
  else if c = '\x7b' then some .openObject
  else if c = '\x7d' then some .closeObject
  else if c = ',' then some .comma
  else if c = ':' then some .colon
  else none

/-- The lexemes of a text, from a state in front of it. -/
def lex? : LexerState → List Char → Option (List Lexeme)
  | .between, [] => some []
  | .inString _ _, [] => none
  | .inWord body, [] => (wordLexeme? body.reverse).map ([·])
  | .inString body true, c :: rest => lex? (.inString (c :: body) false) rest
  | .inString body false, c :: rest =>
    if c = '"' then do
      let parts ← stringParts? body.reverse
      let lexemes ← lex? .between rest
      return .str parts :: lexemes
    else lex? (.inString (c :: body) (c == '\\')) rest
  | .between, c :: rest =>
    if isBlank c then lex? .between rest
    else if c = '"' then lex? (.inString [] false) rest
    else match punctuation? c with
      | some p => (lex? .between rest).map (p :: ·)
      | none => lex? (.inWord [c]) rest
  | .inWord body, c :: rest =>
    if isBlank c then do
      let word ← wordLexeme? body.reverse
      let lexemes ← lex? .between rest
      return word :: lexemes
    else if c = '"' then none
    else match punctuation? c with
      | some p => do
        let word ← wordLexeme? body.reverse
        let lexemes ← lex? .between rest
        return word :: p :: lexemes
      | none => lex? (.inWord (c :: body)) rest

/-- The lexemes of a text. -/
def Lexeme.ofText? (text : String) : Option (List Lexeme) :=
  lex? .between text.toList

end FieldQuery.Json
