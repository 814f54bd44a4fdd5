import FieldQuery.Declaration.Source.Token

/-!
# Token trees

Tokens between two brackets are a group, and stand for one piece of what is around them.  Angle
brackets are no such brackets, because the marks for them also compare.

Main definitions:

- `Tree`: a token or a group; `Trees` is a row of them.
- `Trees.ofString`: the row that a text is.
- `Trees.text`: the text of a row, with nothing between the tokens.
-/

namespace FieldQuery.Source

inductive Bracket
  | round
  | square
  | curly
  deriving DecidableEq, Repr

namespace Bracket

def opening : Bracket → Char
  | .round => '('
  | .square => '['
  | .curly => '\x7b'

def closing : Bracket → Char
  | .round => ')'
  | .square => ']'
  | .curly => '\x7d'

def ofOpening? (c : Char) : Option Bracket :=
  [round, square, curly].find? fun bracket => bracket.opening == c

def isClosing (c : Char) : Bool :=
  [round, square, curly].any fun bracket => bracket.closing == c

/-- A text between two brackets. -/
def enclose (bracket : Bracket) (text : String) : String :=
  String.ofList [bracket.opening] ++ text ++ String.ofList [bracket.closing]

end Bracket

/-- A token, or the tokens between two brackets. -/
inductive Tree
  | leaf (token : Token)
  | group (bracket : Bracket) (content : List Tree)
  deriving Repr, Inhabited

abbrev Trees := List Tree

mutual

def Tree.text : Tree → String
  | .leaf token => token.text
  | .group bracket content => bracket.enclose (Trees.text content)

/-- The text of a row, with nothing between the tokens. -/
def Trees.text : List Tree → String
  | [] => ""
  | tree :: rest => tree.text ++ Trees.text rest

end

namespace Trees

/-- What has been read of a row, last one first, and the groups around it that are still open,
innermost first, each with what stands in front of the next. -/
structure Nesting where
  row : Trees := []
  around : List (Bracket × Trees) := []
  deriving Repr

/-- Reads a token. -/
def Nesting.step (nesting : Nesting) (token : Token) : Nesting :=
  match token with
  | .mark c _ =>
    match Bracket.ofOpening? c, nesting.around with
    | some bracket, around => ⟨[], (bracket, nesting.row) :: around⟩
    | none, (bracket, row) :: around =>
      if Bracket.isClosing c then ⟨.group bracket nesting.row.reverse :: row, around⟩
      else { nesting with row := .leaf token :: nesting.row }
    | none, [] => { nesting with row := .leaf token :: nesting.row }
  | _ => { nesting with row := .leaf token :: nesting.row }

/-- The whole row; groups that are still open end with the text. -/
def Nesting.finish (inner : Trees) : List (Bracket × Trees) → Trees
  | [] => inner.reverse
  | (bracket, row) :: around => finish (.group bracket inner.reverse :: row) around

def ofTokens (tokens : List Token) : Trees :=
  let nesting := tokens.foldl Nesting.step {}
  Nesting.finish nesting.row nesting.around

/-- The row that a text is. -/
def ofString (text : String) : Trees :=
  ofTokens (tokens text.toList)

/-- Whether a list of generic parameters has any.  A declaration may begin with one, with a
condition on types, or with neither. -/
def declareParameters : Trees → Bool
  | .leaf (.mark '<' _) :: .leaf (.mark '>' _) :: _ => false
  | .leaf (.mark '<' _) :: _ => true
  | _ => false

end Trees

end FieldQuery.Source
