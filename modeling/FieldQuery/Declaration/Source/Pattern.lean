import FieldQuery.Declaration.Source.Path

/-!
# Patterns

What a value is taken apart by.  The fields of a tuple that are named by numbers have them in
decimal digits.

Main definitions:

- `Grammar.patternStep`: reads a pattern without alternatives.
- `Grammar.alternatives`: reads a pattern with alternatives.
- `Grammar.rangeMarks`: reads the marks of a range.
-/

namespace FieldQuery.Source.Grammar

/-! ## Ranges -/

def rangeAt : Ahead := .marks ['.', '.']

/-- The marks of a range: two points, three, or two and an equals sign. -/
def rangeMarks : Reader String :=
  firstOf [
    (.either (.marks ['.', '.', '=']) (.marks ['.', '.', '.']), several 3),
    (rangeAt, several 2)]

/-! ## Names of fields -/

/-- A literal that numbers a field, in decimal digits. -/
def fieldNumber : Reader String
  | .leaf (.literal text) :: rest => (indexText text, rest)
  | trees => ("", trees)

/-- The name of a field, or its number. -/
def fieldName : Reader String :=
  firstOf [(.literal, fieldNumber), (.anyWord, one)]

/-! ## Patterns -/

def alternativeAt : Ahead :=
  .but (.mark '|') (.either (.marks ['|', '|']) (.marks ['|', '=']))

/-- A pattern with alternatives, one of which has to fit. -/
def alternatives (g : Grammar) : Reader String :=
  inOrder [mark '|', g.pattern, many (whenAt alternativeAt (inOrder [one, g.pattern]))]

/-- What may bound a range in a pattern. -/
def rangeBound (g : Grammar) : Reader String :=
  firstOf [
    (.either .constant (.mark '-'), inOrder [mark '-', one]),
    (.word "const", several 2),
    (pathAt, PathText.text <$> g.path .expressions)]

/-- The rest of a pattern that may turn out to be a range. -/
def rangeRest (g : Grammar) : Reader String :=
  whenAt rangeAt (inOrder [rangeMarks, g.rangeBound])

/-- The pattern of a field, which may be its name alone. -/
def fieldPattern (g : Grammar) : Reader String :=
  inOrder [g.outerAttributes, firstOf [
    (rangeAt, several 2),
    (fun _ => true, inOrder [word "box", word "ref", word "mut", fieldName,
      whenAt (.mark ':') (inOrder [one, g.alternatives])])]]

/-- A pattern that begins with a path. -/
def pathPattern (g : Grammar) : Reader String := do
  let path ← g.path .expressions
  let rest ← firstOf [
    (fun trees => path.isPlain && Ahead.markBut '!' '=' trees, several 2),
    (.group .curly, inside .curly (separated g.fieldPattern)),
    (.group .round, inside .round (separated g.alternatives)),
    (fun _ => true, g.rangeRest)]
  return path.text ++ rest

/-- Where a name is a path and not a variable. -/
def pathPatternAt : Ahead :=
  .either
    (.both .name (.second (.either (.either .colons (.mark '!'))
      (.either (.either (.group .curly) (.group .round)) rangeAt))))
    (.either (.both (.word "self") (.second .colons))
      (.either (.either .colons (.mark '<')) (.words ["Self", "super", "crate"])))

/-- A pattern without alternatives. -/
def patternStep (g : Grammar) : Reader String :=
  inOrder [g.outerAttributes, firstOf [
    (pathPatternAt, g.pathPattern),
    (.word "_", one),
    (.word "box", orAsItStands ((·, true) <$> inOrder [one, g.pattern])),
    (.either (.either .constant (.mark '-')) (.word "const"), inOrder [g.rangeBound, g.rangeRest]),
    (.either .name (.words ["ref", "mut", "self"]), inOrder [word "ref", word "mut", one,
      whenAt (.mark '@') (inOrder [one, g.pattern])]),
    (.mark '&', inOrder [one, word "mut", g.pattern]),
    (.group .round, inside .round (separated g.alternatives)),
    (.group .square, inside .square (separated g.alternatives)),
    (rangeAt, inOrder [rangeMarks, g.rangeBound])]]

end FieldQuery.Source.Grammar
