import FieldQuery.Declaration.FieldType
import FieldQuery.Declaration.Source.Tree

/-!
# Readers

A reader takes trees from the front of a row and gives the text that they are written as in the
end, which may differ from how they stand there.  What it does not expect it leaves alone, and
whoever asked for it goes on with it as it stands.

Main definitions:

- `Reader`: a reader of something.
- `inOrder`, `firstOf`, `many`, `inside`: readers put together.
- `Grammar`: the readers of the parts of the language that may hold each other.
- `lifetimesFirst`: the order of the entries between angle brackets.
-/

namespace FieldQuery.Source

/-! ## Looking ahead -/

/-- A test of what comes next. -/
abbrev Ahead := Trees → Bool

namespace Ahead

/-- The mark `c`, whatever follows it. -/
def mark (c : Char) : Ahead
  | .leaf (.mark d _) :: _ => c == d
  | _ => false

/-- Marks that belong together. -/
def marks : List Char → Ahead
  | [], _ => true
  | [c], trees => mark c trees
  | c :: cs, .leaf (.mark d joint) :: rest => c == d && joint && marks cs rest
  | _, _ => false

/-- The two colons between names. -/
def colons : Ahead := marks [':', ':']

def word (text : String) : Ahead
  | .leaf (.name name) :: _ => name == text
  | _ => false

def words (texts : List String) : Ahead
  | .leaf (.name name) :: _ => texts.contains name
  | _ => false

/-- Words that are no names. -/
def keywords : List String :=
  ["_", "abstract", "as", "async", "await", "become", "box", "break", "const", "continue", "crate",
    "do", "dyn", "else", "enum", "extern", "false", "final", "fn", "for", "if", "impl", "in", "let",
    "loop", "macro", "match", "mod", "move", "mut", "override", "priv", "pub", "ref", "return",
    "Self", "self", "static", "struct", "super", "trait", "true", "try", "type", "typeof", "unsafe",
    "unsized", "use", "virtual", "where", "while", "yield"]

/-- A name that is free for use. -/
def name : Ahead
  | .leaf (.name text) :: _ => !keywords.contains text
  | _ => false

/-- Any word. -/
def anyWord : Ahead
  | .leaf (.name _) :: _ => true
  | _ => false

def lifetime : Ahead
  | .leaf (.lifetime _) :: _ => true
  | _ => false

/-- A literal, not counting the two truth values and signs. -/
def literal : Ahead
  | .leaf (.literal _) :: _ => true
  | _ => false

def group (bracket : Bracket) : Ahead
  | .group other _ :: _ => other == bracket
  | _ => false

def nothing : Ahead := List.isEmpty

/-- The same test behind the first tree. -/
def second (test : Ahead) : Ahead := fun trees => test (trees.drop 1)

/-- The same test behind the first two trees. -/
def third (test : Ahead) : Ahead := fun trees => test (trees.drop 2)

def both (a b : Ahead) : Ahead := fun trees => a trees && b trees

def either (a b : Ahead) : Ahead := fun trees => a trees || b trees

def but (a b : Ahead) : Ahead := fun trees => a trees && !b trees

/-- A constant that stands for itself. -/
def constant : Ahead :=
  either (either literal (words ["true", "false"])) (both (mark '-') (second literal))

/-- The same test behind a tree that may be there or not. -/
def past (skipped test : Ahead) : Ahead := fun trees =>
  test (if skipped trees then trees.drop 1 else trees)

/-- The same test behind a path without arguments. -/
def pastNames (test : Ahead) : Ahead
  | .leaf (.mark ':' _) :: .leaf (.mark ':' _) :: rest => pastNames test rest
  | .leaf (.name text) :: rest =>
    (!keywords.contains text || ["super", "self", "Self", "crate"].contains text) &&
      match rest with
      | .leaf (.mark ':' true) :: .leaf (.mark ':' _) :: rest => pastNames test rest
      | rest => test rest
  | _ => false

/-- A mark that is not the front of two that belong together. -/
def markBut (c d : Char) : Ahead := but (mark c) (marks [c, d])

end Ahead

/-! ## Readers -/

/-- A reader of something from the front of a row. -/
abbrev Reader := StateM Trees

/-- The next tree, as it stands. -/
def one : Reader String
  | [] => ("", [])
  | tree :: rest => (tree.text, rest)

/-- As many trees, as they stand. -/
def several (n : Nat) : Reader String := fun trees =>
  (Trees.text (trees.take n), trees.drop n)

/-- All that is left, as it stands. -/
def everything : Reader String := fun trees =>
  (Trees.text trees, [])

/-- Takes trees away without writing them. -/
def leaveOut (n : Nat) : Reader String := fun trees => ("", trees.drop n)

/-- What a reader takes is not written. -/
def silently (reader : Reader String) : Reader String :=
  (fun _ => "") <$> reader

def whenAt (test : Ahead) (reader : Reader String) : Reader String := fun trees =>
  if test trees then reader trees else ("", trees)

/-- A mark, if it is there. -/
def mark (c : Char) : Reader String := whenAt (.mark c) one

/-- A word, if it is there. -/
def word (text : String) : Reader String := whenAt (.word text) one

/-- Marks that belong together, if they are there. -/
def marks (cs : List Char) : Reader String := whenAt (.marks cs) (several cs.length)

def lifetime : Reader String := whenAt .lifetime one

/-- What several readers give, one after the other. -/
def inOrder : List (Reader String) → Reader String
  | [] => return ""
  | reader :: readers => do
    let text ← reader
    return text ++ (← inOrder readers)

/-- What the first reader whose test holds gives. -/
def firstOf (cases : List (Ahead × Reader String)) : Reader String := fun trees =>
  match cases.find? fun (test, _) => test trees with
  | some (_, reader) => reader trees
  | none => ("", trees)

/-- Reads as often as there is something more to read. -/
def collect {α : Type} (step : Reader (Option α)) (trees : Trees) : List α × Trees :=
  match step trees with
  | (some item, rest) =>
    if rest.length < trees.length then
      let (items, rest) := collect step rest
      (item :: items, rest)
    else ([], trees)
  | (none, _) => ([], trees)
termination_by trees.length

/-- Reads texts as often as there is something more to read. -/
def many (step : Reader String) : Reader String := fun trees =>
  let (texts, rest) := collect (some <$> step) trees
  (String.join texts, rest)

/-- Items parted by commas. -/
def separated (item : Reader String) : Reader String :=
  many (inOrder [item, mark ','])

/-- What stands between brackets; what is left there stands as it is. -/
def inside (bracket : Bracket) (reader : Reader String) : Reader String
  | .group other content :: rest =>
    if other = bracket then
      let (text, left) := reader content
      (bracket.enclose (text ++ Trees.text left), rest)
    else ("", .group other content :: rest)
  | trees => ("", trees)

/-- Everything up to a mark, and the mark itself, as it stands. -/
def through (c : Char) : Reader String := do
  let text ← many (whenAt (fun trees => !Ahead.mark c trees) one)
  return text ++ (← mark c)

/-- What a reader gives, or the trees that it takes as they stand, if it says so. -/
def orAsItStands (reader : Reader (String × Bool)) : Reader String := fun trees =>
  let ((text, stands), rest) := reader trees
  (if stands then Trees.text (trees.take (trees.length - rest.length)) else text, rest)

/-! ## Entries between angle brackets -/

/-- An entry of a list between angle brackets, and whether a comma stands behind it. -/
structure Entry where
  text : String
  comma : Bool
  isLifetime : Bool
  /-- The type that it is, if it is one. -/
  type? : Option FieldType := none
  deriving DecidableEq, Repr

/-- Entries with a comma between any two, and one at the end if the last brings its own. -/
def joinEntries : List Entry → String
  | [] => ""
  | [entry] => entry.text ++ (if entry.comma then "," else "")
  | entry :: rest => entry.text ++ "," ++ joinEntries rest

/-- Entries with all lifetimes in front. -/
def lifetimesFirst (entries : List Entry) : String :=
  let (lifetimes, others) := entries.partition Entry.isLifetime
  joinEntries (lifetimes ++ others)

/-- Entries up to the mark that closes the list. -/
def entries (isLifetime : Ahead) (item : Reader (String × Option FieldType)) :
    Reader (List Entry) :=
  collect do
    let trees ← get
    if Ahead.either (.mark '>') .nothing trees then return none
    let (text, type?) ← item
    let comma ← mark ','
    return some ⟨text, !comma.isEmpty, isLifetime trees, type?⟩

/-! ## Grammar -/

/-- The readers of the parts of the language that may hold each other. -/
structure Grammar where
  /-- A type; it may be a sum of bounds if that is allowed. -/
  type : Bool → Reader FieldType
  /-- A bound of a type: a trait or a lifetime. -/
  bound : Reader String
  pattern : Reader String
  /-- An expression; it may name the fields of a struct if that is allowed. -/
  expression : Bool → Reader String
  /-- An expression that ends with its block if it begins with one. -/
  leading : Reader String
  /-- What stands in a block. -/
  statements : Reader String

namespace Grammar

/-- The text of a type. -/
def typeText (g : Grammar) (sums : Bool) : Reader String :=
  FieldType.text <$> g.type sums

/-- Bounds with a plus between any two. -/
def bounds (g : Grammar) : Reader String :=
  inOrder [g.bound, many (whenAt (.mark '+') (inOrder [one, g.bound]))]

/-! ### Attributes -/

/-- An attribute: a path alone, with words for others to read, or with a value. -/
def attributeContent (g : Grammar) : Reader String :=
  inOrder [
    many (firstOf [(.colons, several 2), (.anyWord, one)]),
    firstOf [(.mark '=', inOrder [one, g.expression true]), (fun _ => true, everything)]]

def outerAttributeAt : Ahead :=
  .both (.mark '#') (.second (.group .square))

/-- The attributes of what follows them. -/
def outerAttributes (g : Grammar) : Reader String :=
  many (whenAt outerAttributeAt (inOrder [one, inside .square g.attributeContent]))

def innerAttributeAt : Ahead :=
  .both (.mark '#') (.both (.second (.mark '!')) (.third (.group .square)))

/-- The attributes of what they stand in. -/
def innerAttributes (g : Grammar) : Reader String :=
  many (whenAt innerAttributeAt (inOrder [one, one, inside .square g.attributeContent]))

def block (g : Grammar) : Reader String :=
  inside .curly (inOrder [g.innerAttributes, g.statements])

end Grammar

end FieldQuery.Source
