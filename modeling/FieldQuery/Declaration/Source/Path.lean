import FieldQuery.Declaration.Source.Reader

/-!
# Paths

A path is a row of names with two colons between them.  Its names may have arguments: between angle
brackets, which an expression sets off with two colons, or, for a function, between round ones.

Main definitions:

- `PathText`: a path that has been read; `PathText.toFieldType` is the type that it is.
- `Grammar.path`, `Grammar.typePath`: read a path.
-/

namespace FieldQuery.Source

/-- A path, cut at its last name. -/
structure PathText where
  front : String
  name : String
  /-- All that stands behind the last name. -/
  behind : String := ""
  /-- What opens the arguments of the last name, the only one, if that is a type, and what closes
  them. -/
  wrapped : Option (String × FieldType × String) := none
  /-- Whether it holds nothing but names. -/
  isPlain : Bool := true
  deriving DecidableEq, Repr

namespace PathText

def text (path : PathText) : String :=
  path.front ++ path.name ++ path.behind

def toFieldType (path : PathText) : FieldType :=
  match path.wrapped with
  | some (opening, inner, closing) => .wrapper path.front path.name opening inner closing
  | none => .plain path.text

end PathText

/-- Where a path stands. -/
inductive PathPlace
  | types
  /-- A `<` behind a name compares here. -/
  | expressions
  deriving DecidableEq, Repr

namespace Grammar

/-! ## Arguments -/

def lifetimeArgument : Ahead :=
  .but .lifetime (.second (.mark '+'))

/-- A constant as an argument. -/
def constantArgument (g : Grammar) : Reader String :=
  firstOf [(.constant, inOrder [mark '-', one]), (.group .curly, g.block), (.name, one)]

/-- An argument: a lifetime, a constant, a type, or a type by its name. -/
def argument (g : Grammar) : Reader (String × Option FieldType) := do
  let trees ← get
  if lifetimeArgument trees then return (← one, none)
  if Ahead.either .constant (.group .curly) trees then return (← g.constantArgument, none)
  let type ← g.type true
  let trees ← get
  if Ahead.mark '=' trees then
    let value ← inOrder [one, firstOf [
      (.either .constant (.group .curly), g.constantArgument),
      (fun _ => true, g.typeText true)]]
    return (type.text ++ value, none)
  if Ahead.mark ':' trees then return (type.text ++ (← inOrder [one, g.bounds]), none)
  return (type.text, some type)

/-- Where the arguments of a name begin. -/
def argumentsAt (place : PathPlace) : Ahead :=
  .either (.both .colons (.third (.mark '<')))
    fun trees => place == .types && Ahead.markBut '<' '=' trees

/-- The arguments of a name. -/
def arguments (g : Grammar) : Reader (String × Option (String × FieldType × String)) := do
  let opening ← inOrder [marks [':', ':'], mark '<']
  let found ← entries lifetimeArgument g.argument
  let closing ← mark '>'
  let wrapped :=
    match found with
    | [⟨_, comma, _, some type⟩] => some (opening, type, (if comma then "," else "") ++ closing)
    | _ => none
  return (opening ++ lifetimesFirst found ++ closing, wrapped)

/-! ## Names -/

/-- Words that stand for a place in a path and have no arguments. -/
def placeWords : List String := ["super", "self", "crate", "try"]

/-- A name with its arguments. -/
def segment (g : Grammar) (place : PathPlace) (front : String) (isPlain : Bool) :
    Reader PathText := do
  let isPlace := Ahead.words placeWords (← get)
  let name ← whenAt .anyWord one
  if !isPlace && argumentsAt place (← get) then
    let (behind, wrapped) ← g.arguments
    return { front, name, behind, wrapped, isPlain := false }
  else return { front, name, isPlain }

/-- The names behind a path. -/
def pathRest (g : Grammar) (place : PathPlace) (path : PathText) (trees : Trees) :
    PathText × Trees :=
  if Ahead.but .colons (.third (.group .round)) trees then
    let (next, rest) := g.segment place (path.text ++ "::") path.isPlain (trees.drop 2)
    if rest.length < trees.length then pathRest g place next rest else (path, trees)
  else (path, trees)
termination_by trees.length

/-- What a path may begin with. -/
def pathAt : Ahead :=
  .either (.either .name (.words ["super", "self", "Self", "crate"])) (.either .colons (.mark '<'))

/-- A path.  It may begin with a type between angle brackets, seen as one that has a trait. -/
def path (g : Grammar) (place : PathPlace) : Reader PathText := do
  let isQualified := Ahead.mark '<' (← get)
  let front ←
    if isQualified then
      inOrder [one, g.typeText true, whenAt (.word "as") (inOrder [one, g.typeText false]),
        mark '>', marks [':', ':']]
    else marks [':', ':']
  g.pathRest place (← g.segment place front (!isQualified))

/-! ## Functions -/

/-- What a function gives back. -/
def returnType (g : Grammar) (sums : Bool) : Reader String :=
  whenAt (.marks ['-', '>']) (inOrder [several 2, g.typeText sums])

/-- Where round brackets with arguments begin; two colons in front of them are left out. -/
def roundArgumentsAt : Ahead :=
  .either (.group .round) (.both .colons (.third (.group .round)))

/-- Arguments between round brackets. -/
def roundArguments (g : Grammar) : Reader String :=
  inOrder [whenAt .colons (leaveOut 2), inside .round (separated (g.typeText true)),
    g.returnType false]

/-- Arguments between round brackets behind the last name of a path, and the names behind them. -/
def typePathRest (g : Grammar) (path : PathText) (trees : Trees) : PathText × Trees :=
  if path.behind.isEmpty && roundArgumentsAt trees then
    let (behind, rest) := g.roundArguments trees
    let (next, rest) := g.pathRest .types { path with behind, isPlain := false } rest
    if rest.length < trees.length then typePathRest g next rest else (path, trees)
  else (path, trees)
termination_by trees.length

/-- A path that is a type. -/
def typePath (g : Grammar) : Reader PathText := do
  g.typePathRest (← g.path .types)

end Grammar

end FieldQuery.Source
