import FieldQuery.Proofs.Condition.Reading
import FieldQuery.Proofs.Plan.Marks

/-!
# The words of a condition

A condition is cut into words, quoted texts, signs and bound values.  Blanks part words and count
for nothing else; `AND`, `OR` and `NOT` are words in any case of letters, but not within quotes.
There are no comments in a condition.

Main definitions:

- `Symbol`, `symbols`: the characters and the marks of a statement.
- `lex`: the lexemes that they make.
- `Lexes`: symbols that make lexemes and leave no quotes open.

Main statement: `Lexes.seq`, symbols on both sides of a blank or a parenthesis are cut separately.
-/

namespace FieldQuery.Condition

inductive Symbol
  | char (c : Char)
  | bind (value : BindValue)
  deriving DecidableEq, Repr

def symbolsOf (text : String) : List Symbol :=
  text.toList.map .char

def pieceSymbols : Piece → List Symbol
  | .text sql => symbolsOf sql
  | .bind value => [.bind value]

/-- The characters and the marks of a statement. -/
def symbols (statement : Statement) : List Symbol :=
  statement.pieces.flatMap pieceSymbols

@[simp] theorem symbols_empty : symbols .empty = [] := rfl

@[simp] theorem symbols_append (a b : Statement) : symbols (a ++ b) = symbols a ++ symbols b := by
  rw [symbols, Statement.pieces_append, List.flatMap_append]
  rfl

@[simp] theorem symbols_ofText (text : String) : symbols (.ofText text) = symbolsOf text :=
  List.append_nil _

/-! ## Cutting -/

/-- What a condition is made of besides parentheses and connectives. -/
inductive Word
  | plain (text : List Char)
  | quoted (mark : Char) (text : List Char)
  | sign (c : Char)
  | bind (value : BindValue)
  deriving DecidableEq, Repr

/-- What the symbols before were in the middle of. -/
inductive Mode
  | blank
  | word (front : List Char)
  | quoted (mark : Char) (front : List Char)
  deriving DecidableEq, Repr

def isWordChar (c : Char) : Bool :=
  c.isAlphanum || c == '_' || c == '$' || 128 ≤ c.toNat

def isQuote (c : Char) : Bool :=
  c == '\x22' || c == '\x27' || c == '\x60'

def isBlank (c : Char) : Bool :=
  c == ' ' || c == '\t' || c == '\n' || c == '\r' || c == '\x0b' || c == '\x0c'

/-- A word, which may be a connective. -/
def wordLexeme (text : List Char) : Lexeme Word :=
  let lowered := text.map Char.toLower
  if lowered = ['a', 'n', 'd'] then .and
  else if lowered = ['o', 'r'] then .or
  else if lowered = ['n', 'o', 't'] then .not
  else .other (.plain text)

/-- What a character that is part of no word makes by itself. -/
def ownLexemes (c : Char) : List (Lexeme Word) :=
  if isQuote c || isBlank c then []
  else if c = '(' then [.opening]
  else if c = ')' then [.closing]
  else [.other (.sign c)]

namespace Mode

/-- The lexeme in the middle, as far as it has come. -/
def flush : Mode → List (Lexeme Word)
  | .blank => []
  | .word front => [wordLexeme front]
  | .quoted mark front => [.other (.quoted mark front)]

def isQuoted : Mode → Bool
  | .quoted _ _ => true
  | _ => false

/-- The lexemes that a symbol ends, and what is in the middle behind it. -/
def next (mode : Mode) (symbol : Symbol) : List (Lexeme Word) × Mode :=
  match mode, symbol with
  | .quoted mark front, .char c =>
    -- a mark that is doubled ends one quoted text and begins another
    if c = mark then (mode.flush, .blank) else ([], .quoted mark (front ++ [c]))
  | .quoted _ _, .bind value => ([.other (.bind value)], mode)
  | _, .bind value => (mode.flush ++ [.other (.bind value)], .blank)
  | _, .char c =>
    if isWordChar c then
      match mode with
      | .word front => ([], .word (front ++ [c]))
      | _ => ([], .word [c])
    else (mode.flush ++ ownLexemes c, if isQuote c then .quoted c [] else .blank)

/-- What is in the middle behind symbols. -/
def after (mode : Mode) (symbols : List Symbol) : Mode :=
  symbols.foldl (fun mode symbol => (mode.next symbol).2) mode

end Mode

/-- The lexemes of symbols, from what is in the middle on. -/
def lexFrom (mode : Mode) : List Symbol → List (Lexeme Word)
  | [] => mode.flush
  | symbol :: rest => (mode.next symbol).1 ++ lexFrom (mode.next symbol).2 rest

/-- The lexemes of a condition. -/
def lex (symbols : List Symbol) : List (Lexeme Word) :=
  lexFrom .blank symbols

/-! ## Cutting at a blank or a parenthesis -/

/-- A character that ends every word. -/
def Parts (c : Char) : Prop :=
  c = ' ' ∨ c = '(' ∨ c = ')'

theorem next_of_parts {c : Char} (h : Parts c) {mode : Mode} (hmode : mode.isQuoted = false) :
    mode.next (.char c) = (mode.flush ++ ownLexemes c, .blank) := by
  have hc : isWordChar c = false ∧ isQuote c = false := by
    rcases h with rfl | rfl | rfl <;> decide
  cases mode with
  | blank => simp [Mode.next, hc]
  | word front => simp [Mode.next, hc]
  | quoted mark front => cases hmode

theorem lexFrom_parts {c : Char} (h : Parts c) {mode : Mode} {front : List Symbol}
    (hmode : (mode.after front).isQuoted = false) (back : List Symbol) :
    lexFrom mode (front ++ .char c :: back) = lexFrom mode front ++ ownLexemes c ++ lex back := by
  -- along the front, from whatever is in the middle
  induction front generalizing mode with
  | nil =>
      have hplain : mode.isQuoted = false := hmode
      have hnext := next_of_parts h hplain
      simp [lexFrom, lex, hnext]
  | cons symbol rest ih =>
      have hbehind : ((mode.next symbol).2.after rest).isQuoted = false := hmode
      have hrest := ih hbehind
      simp [lexFrom, hrest]

theorem after_parts {c : Char} (h : Parts c) {mode : Mode} {front : List Symbol}
    (hmode : (mode.after front).isQuoted = false) (back : List Symbol) :
    mode.after (front ++ .char c :: back) = Mode.blank.after back := by
  have hnext := next_of_parts h hmode
  unfold Mode.after at *
  simp [List.foldl_append, hnext]

/-- No quotes are left open. -/
def Closed (symbols : List Symbol) : Prop :=
  (Mode.blank.after symbols).isQuoted = false

/-- Symbols make lexemes and leave no quotes open. -/
structure Lexes (symbols : List Symbol) (lexemes : List (Lexeme Word)) : Prop where
  closed : Closed symbols
  lex : lex symbols = lexemes

namespace Lexes

variable {front back symbols : List Symbol} {lexemes others : List (Lexeme Word)}

theorem nil : Lexes [] [] :=
  ⟨rfl, rfl⟩

/-- What stands on both sides of a blank or a parenthesis is cut separately. -/
theorem seq (hfront : Lexes front lexemes) {c : Char} (hc : Parts c) (hback : Lexes back others) :
    Lexes (front ++ .char c :: back) (lexemes ++ ownLexemes c ++ others) where
  closed := by
    unfold Closed
    rw [after_parts hc hfront.closed]
    exact hback.closed
  lex := by
    rw [← hfront.lex, ← hback.lex]
    exact lexFrom_parts hc hfront.closed back

/-- Texts on both sides of a connective. -/
theorem connect {text : String} {lexeme : Lexeme Word} (htext : Lexes (symbolsOf text) [lexeme])
    (hfront : Lexes front lexemes) (hback : Lexes back others) :
    Lexes (front ++ symbolsOf (" " ++ text ++ " ") ++ back) (lexemes ++ lexeme :: others) := by
  have hblank : Parts ' ' := .inl rfl
  have hseq := hfront.seq hblank (htext.seq hblank hback)
  simpa [symbolsOf, ownLexemes, isBlank] using hseq

theorem parenthesized (h : Lexes symbols lexemes) :
    Lexes (symbolsOf "(" ++ symbols ++ symbolsOf ")") (.opening :: lexemes ++ [.closing]) := by
  have hseq := nil.seq (.inr (.inl rfl)) (h.seq (.inr (.inr rfl)) nil)
  simpa [symbolsOf, ownLexemes, isBlank, isQuote] using hseq

theorem not (h : Lexes symbols lexemes) :
    Lexes (symbolsOf "NOT " ++ symbols) (.not :: lexemes) := by
  have hnot : Lexes (symbolsOf "NOT") [.not] := ⟨by rfl, by rfl⟩
  have hseq := hnot.seq (.inl rfl) h
  simpa [symbolsOf, ownLexemes, isBlank] using hseq

end Lexes

end FieldQuery.Condition
