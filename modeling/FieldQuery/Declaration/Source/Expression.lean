import FieldQuery.Declaration.Source.Pattern
import FieldQuery.Declaration.Source.Type

/-!
# Expressions

An expression is a row of operands with operators between them.  How they belong together does not
matter here; what does is whether an operand or an operator comes next, because a `<` begins a type
in the one place and compares in the other.

Main definitions:

- `Grammar.expressionStep`: reads an expression.
- `Grammar.leadingStep`: reads an expression that ends with its block if it begins with one.
-/

namespace FieldQuery.Source.Grammar

/-! ## Operators -/

/-- Operators between two operands, longer ones first. -/
def binaryOperators : List (List Char) :=
  [['<', '<', '='], ['>', '>', '='], ['+', '='], ['-', '='], ['*', '='], ['/', '='], ['%', '='],
    ['^', '='], ['&', '='], ['|', '='], ['&', '&'], ['|', '|'], ['<', '<'], ['>', '>'], ['=', '='],
    ['<', '='], ['!', '='], ['>', '='], ['+'], ['-'], ['*'], ['/'], ['%'], ['^'], ['&'], ['|'],
    ['<'], ['>']]

def binaryAt (trees : Trees) : Bool :=
  binaryOperators.any fun cs => Ahead.marks cs trees

/-- The longest operator that comes next. -/
def binaryOperator : Reader String :=
  firstOf (binaryOperators.map fun cs => (.marks cs, several cs.length))

def assignAt : Ahead := .markBut '=' '>'

/-- Where a point names a field. -/
def fieldAt : Ahead := .markBut '.' '.'

/-- Operators that no operand begins with. -/
def nonSigns : List (List Char) :=
  [['='], ['+'], ['/'], ['%'], ['^'], ['>'], ['<', '='], ['!', '='], ['-', '='], ['*', '='],
    ['&', '='], ['|', '='], ['<', '<', '=']]

/-- Where a range may go without an end. -/
def rangeEnd (structs : Bool) : Ahead :=
  .either (.either .nothing (.either (.mark ',') (.mark ';')))
    (.either (.either fieldAt (.mark '?'))
      (.either (.either (fun trees => nonSigns.any fun cs => Ahead.marks cs trees) (.word "as"))
        fun trees => !structs && Ahead.group .curly trees))

/-- Where an expression may begin. -/
def expressionAt : Ahead :=
  .either (.either (.but .anyWord (.word "as")) (.either .literal .lifetime))
    (.either (fun trees => [Bracket.round, .square, .curly].any fun b => Ahead.group b trees)
      (.either
        (.either (.either (.markBut '!' '=') (.but (.markBut '-' '=') (.marks ['-', '>'])))
          (.either (.markBut '*' '=') (.either (.markBut '|' '=') (.markBut '&' '='))))
        (.either (.either rangeAt .colons)
          (.either (.but (.markBut '<' '=') (.marks ['<', '<', '='])) (.mark '#')))))

/-- Where a word that may stand alone has an expression behind it. -/
def valueAt (structs : Bool) : Ahead := fun trees =>
  expressionAt trees && (structs || !Ahead.group .curly trees)

/-! ## Fields, arguments and arms -/

def expressionList (g : Grammar) : Reader String :=
  separated (g.expression true)

/-- The fields of a struct, and where the other ones come from. -/
def structField (g : Grammar) : Reader String :=
  inOrder [g.outerAttributes, firstOf [
    (rangeAt, inOrder [several 2, whenAt expressionAt (g.expression true)]),
    (fun _ => true, inOrder [fieldName, whenAt (.mark ':') (inOrder [one, g.expression true])])]]

/-- A name behind a point, with its arguments, or a number; a point at the end of a number belongs
to the next name. -/
def member (g : Grammar) : Reader String := do
  let number ← whenAt .literal fieldNumber
  if !number.isEmpty && !number.endsWith "." then return number
  let name ← whenAt .anyWord one
  let arguments ← whenAt (.both .colons (.third (.mark '<'))) (Prod.fst <$> g.arguments)
  return number ++ name ++ arguments

/-- Calls, indices, fields and question marks behind an operand. -/
def trailers (g : Grammar) : Reader String :=
  many (firstOf [
    (.group .round, inside .round g.expressionList),
    (.group .square, inside .square (g.expression true)),
    (fieldAt, inOrder [one, g.member]),
    (.mark '?', one)])

/-! ## Closures -/

/-- A parameter of a closure. -/
def closureParameter (g : Grammar) : Reader String :=
  inOrder [g.outerAttributes, g.pattern, whenAt (.mark ':') (inOrder [one, g.typeText true])]

def closureAt : Ahead :=
  .either (.either (.mark '|') (.word "move"))
    (.either
      (.either (.word "static") (.but (.word "const") (.second (.group .curly))))
      (.either
        (.both (.word "async") (.second (.either (.mark '|') (.word "move"))))
        (.both (.word "for") (.both (.second (.mark '<'))
          (.third (.either .lifetime (.mark '>')))))))

def closure (g : Grammar) (structs : Bool) : Reader String :=
  inOrder [g.binder, word "const", word "static", word "async", word "move", mark '|',
    separated (whenAt (fun trees => !Ahead.mark '|' trees) g.closureParameter), mark '|',
    firstOf [
      (.marks ['-', '>'], inOrder [g.returnType true, g.block]),
      (fun _ => true, g.expression structs)]]

/-! ## Blocks -/

/-- An arm of a match. -/
def arm (g : Grammar) : Reader String :=
  inOrder [g.outerAttributes, g.alternatives,
    whenAt (.word "if") (inOrder [one, g.expression true]), marks ['=', '>'], g.leading, mark ',']

/-- A condition and its block. -/
def branch (g : Grammar) : Reader String :=
  inOrder [one, g.expression false, g.block]

/-- Branches, and possibly a block for when none is taken. -/
def conditional (g : Grammar) : Reader String :=
  inOrder [g.branch, many (whenAt (.word "else") (inOrder [one,
    firstOf [(.word "if", g.branch), (fun _ => true, g.block)]]))]

/-- Words that begin something that ends with a block. -/
def blockWords : List String := ["if", "while", "for", "loop", "match", "unsafe"]

/-- Where something begins that ends with a block. -/
def blockAt : Ahead :=
  .either
    (.either (.but (.words blockWords) closureAt) (.group .curly))
    (.either (.both (.words ["try", "const"]) (.second (.group .curly))) .lifetime)

/-- Something that ends with a block. -/
def blockLike (g : Grammar) : Reader String :=
  inOrder [whenAt .lifetime (inOrder [one, mark ':']), firstOf [
    (.word "if", g.conditional),
    (.word "while", g.branch),
    (.word "for", inOrder [one, g.alternatives, word "in", g.expression false, g.block]),
    (.word "match", inOrder [one, g.expression false,
      inside .curly (inOrder [g.innerAttributes, many (g.arm)])]),
    (.words ["loop", "unsafe", "try", "const"], inOrder [one, g.block]),
    (.group .curly, g.block)]]

/-! ## Operands -/

/-- A path, the call that it names if a mark says so, or a struct with its fields. -/
def pathOperand (g : Grammar) (structs : Bool) : Reader String := do
  let path ← g.path .expressions
  let rest ← firstOf [
    (fun trees => path.isPlain && Ahead.markBut '!' '=' trees, several 2),
    (fun trees => structs && Ahead.group .curly trees, inside .curly (separated g.structField))]
  return path.text ++ rest

/-- An operand without what stands in front of it or behind it. -/
def atom (g : Grammar) (structs : Bool) : Reader String :=
  firstOf [
    (.constant, one),
    (.both (.word "async") (.either (.second (.group .curly))
      (.both (.second (.word "move")) (.third (.group .curly)))),
      inOrder [one, word "move", g.block]),
    (closureAt, g.closure structs),
    (.both (.word "builtin") (.second (.mark '#')), several 4),
    (.either pathAt (.both (.word "try") (.second (.either (.mark '!') .colons))),
      g.pathOperand structs),
    (blockAt, g.blockLike),
    (.group .round, inside .round g.expressionList),
    (.group .square, inside .square (inOrder [g.expressionList,
      whenAt (.mark ';') (inOrder [one, g.expression true])])),
    (.word "break", inOrder [one, lifetime, whenAt (valueAt structs) (g.expression structs)]),
    (.word "continue", inOrder [one, lifetime]),
    (.words ["return", "yield", "become"], inOrder [one,
      whenAt expressionAt (g.expression structs)]),
    (.word "let", inOrder [one, g.alternatives, mark '=', g.expression structs]),
    (rangeAt, inOrder [rangeMarks, whenAt (fun trees => !rangeEnd structs trees)
      (g.expression structs)]),
    (.word "_", one)]

/-- What stands in front of an operand: references, signs and the like. -/
def signs (g : Grammar) : Reader String :=
  many (firstOf [
    (outerAttributeAt, g.outerAttributes),
    (.mark '&', inOrder [one,
      whenAt (.both (.word "raw") (.second (.words ["mut", "const"]))) (several 2), word "mut"]),
    (.either (.mark '*') (.either (.mark '!') (.mark '-')), one)])

def operand (g : Grammar) (structs : Bool) : Reader String :=
  inOrder [g.signs, g.atom structs, g.trailers]

/-- Operators, each with the operand behind it. -/
def operations (g : Grammar) (structs : Bool) : Reader String :=
  many (firstOf [
    (binaryAt, inOrder [binaryOperator, g.operand structs]),
    (assignAt, inOrder [one, g.operand structs]),
    (rangeAt, inOrder [rangeMarks,
      whenAt (fun trees => !rangeEnd structs trees) (g.operand structs)]),
    (.word "as", inOrder [one, g.typeText false])])

/-- An expression. -/
def expressionStep (g : Grammar) (structs : Bool) : Reader String :=
  inOrder [g.operand structs, g.operations structs]

/-- An expression that ends with its block if it begins with one, unless a point or a question mark
follows. -/
def leadingStep (g : Grammar) : Reader String :=
  inOrder [g.outerAttributes, firstOf [
    (blockAt, inOrder [g.blockLike, whenAt (.either fieldAt (.mark '?'))
      (inOrder [g.trailers, g.operations true])]),
    (fun _ => true, g.expressionStep true)]]

end FieldQuery.Source.Grammar
