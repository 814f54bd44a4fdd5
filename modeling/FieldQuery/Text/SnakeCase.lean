import FieldQuery.Text.LetterCase

/-!
# Snake case

A name splits into words at characters that are neither letters nor numbers, behind a lower-case
letter that an upper-case one follows, and in front of the last of several upper-case letters when
a lower-case one comes next.  A number takes the case of the letter in front of it.
-/

namespace FieldQuery.Text

/-- The case of the last cased character of the current word. -/
inductive LastCase
  | none
  | lower
  | upper
  deriving DecidableEq, Repr

def LastCase.after (before : LastCase) (c : Char) : LastCase :=
  if isLower c then .lower else if isUpper c then .upper else before

/-- The words of a run of letters and numbers; `word` holds the current one, last letter first. -/
def casedWords (last : LastCase) (word : List Char) : List Char → List (List Char)
  | [] => if word.isEmpty then [] else [word.reverse]
  | [c] => [(c :: word).reverse]
  | c :: next :: rest =>
    if last.after c = .lower ∧ isUpper next then
      (c :: word).reverse :: casedWords .none [] (next :: rest)
    -- the last capital of a row begins the next word
    else if last = .upper ∧ isUpper c ∧ isLower next then
      word.reverse :: casedWords .none [c] (next :: rest)
    else casedWords (last.after c) (c :: word) (next :: rest)

/-- Runs of letters and numbers, in order; `run` holds the current one, last character first. -/
def alphanumericParts (run : List Char) : List Char → List (List Char)
  | [] => [run.reverse]
  | c :: rest =>
    if isAlphanumeric c then alphanumericParts (c :: run) rest
    else run.reverse :: alphanumericParts [] rest

/-- The words of a name. -/
def words (name : String) : List (List Char) :=
  (alphanumericParts [] name.toList).flatMap (casedWords .none [])

/-- A word in lower case; a capital sigma that ends it takes its final form. -/
def lowerWord : List Char → List Char
  | [] => []
  | [c] => if c = 'Σ' then ['ς'] else toLower c
  | c :: rest => toLower c ++ lowerWord rest

/-- The words of a name in lower case, joined by underscores. -/
def snakeCase (name : String) : String :=
  "_".intercalate ((words name).map fun word => String.ofList (lowerWord word))

end FieldQuery.Text
