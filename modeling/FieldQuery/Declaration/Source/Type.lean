import FieldQuery.Declaration.Source.Path

/-!
# Types and bounds

Besides paths there are tuples, arrays, pointers, functions and sums of bounds.  What declares
generic parameters stands here as well, because a bound may do so for lifetimes.

Main definitions:

- `Grammar.typeStep`: reads a type.
- `Grammar.boundStep`: reads a bound.
- `Grammar.generics`, `Grammar.whereClause`: read parameters and the conditions on them.
-/

namespace FieldQuery.Source.Grammar

/-! ## Parameters -/

/-- A colon and bounds; a colon without bounds is left out. -/
def optionalBounds (g : Grammar) : Reader String :=
  whenAt (.mark ':') do
    let colon ← one
    let bounds ← g.bounds
    return if bounds.isEmpty then "" else colon ++ bounds

/-- A generic parameter: a lifetime, a constant or a type. -/
def parameter (g : Grammar) : Reader String :=
  inOrder [g.outerAttributes, firstOf [
    (.lifetime, inOrder [one, g.optionalBounds]),
    (.word "const", inOrder [one, one, mark ':', g.typeText true,
      whenAt (.mark '=') (inOrder [one, g.constantArgument])]),
    (.anyWord, inOrder [one, g.optionalBounds,
      whenAt (.mark '=') (inOrder [one, g.typeText true])])]]

/-- A lifetime, possibly behind attributes. -/
def lifetimeParameter : Ahead
  | .leaf (.mark '#' _) :: .group .square _ :: rest => lifetimeParameter rest
  | trees => Ahead.lifetime trees

/-- Generic parameters, lifetimes in front; an empty list is left out. -/
def generics (g : Grammar) : Reader String :=
  whenAt (.mark '<') do
    let opening ← one
    let found ← entries lifetimeParameter ((·, none) <$> g.parameter)
    let closing ← mark '>'
    return if found.isEmpty then "" else opening ++ lifetimesFirst found ++ closing

/-- The lifetimes that a bound or a function is for, in order. -/
def binder (g : Grammar) : Reader String :=
  whenAt (.both (.word "for") (.second (.mark '<')))
    (inOrder [one, one, separated (whenAt lifetimeParameter g.parameter), mark '>'])

/-- What ends a list of conditions. -/
def whereEnd : Ahead :=
  .either (.either .nothing (.group .curly))
    (.either (.either (.mark ',') (.mark ';')) (.either (.markBut ':' ':') (.mark '=')))

/-- A condition on a lifetime or a type. -/
def condition (g : Grammar) : Reader String :=
  inOrder [g.outerAttributes, firstOf [
    (.both .lifetime (.second (.mark ':')), inOrder [one, one, g.bounds]),
    (fun _ => true, inOrder [g.binder, g.typeText true, mark ':', g.bounds])]]

/-- Conditions on parameters; an empty list is left out. -/
def whereClause (g : Grammar) : Reader String :=
  whenAt (.word "where") do
    let opening ← one
    let conditions ← separated (whenAt (fun trees => !whereEnd trees) g.condition)
    return if conditions.isEmpty then "" else opening ++ conditions

/-! ## Bounds -/

/-- The parameters that a type captures, lifetimes in front. -/
def captured : Reader String := do
  let opening ← inOrder [one, mark '<']
  let found ← entries .lifetime ((·, none) <$> one)
  return opening ++ lifetimesFirst found ++ (← mark '>')

/-- What makes a bound one that only constants have to meet. -/
def constMark : Reader String :=
  firstOf [(.group .square, one), (.word "const", one),
    (.both (.mark '~') (.second (.word "const")), several 2)]

/-- A trait.  What takes it back stands in front of the lifetimes that it is for. -/
def traitBound (g : Grammar) : Reader String :=
  orAsItStands do
    let before ← g.binder
    let constant ← constMark
    let relaxed ← mark '?'
    let binder ← g.binder
    let path ← whenAt pathAt (PathText.text <$> g.path .types)
    let arguments ← whenAt roundArgumentsAt g.roundArguments
    return (relaxed ++ before ++ binder ++ path ++ arguments, !constant.isEmpty)

/-- What a trait as a bound may begin with. -/
def traitBoundAt : Ahead :=
  .either (.either pathAt (.words ["for", "const"]))
    (.either (.either (.mark '?') (.mark '~')) (.group .square))

/-- A bound: a lifetime, captured parameters or a trait. -/
def boundStep (g : Grammar) : Reader String :=
  firstOf [
    (.lifetime, one),
    (.word "use", captured),
    (.group .round, inside .round g.bound),
    (traitBoundAt, g.traitBound)]

/-- One bound, or a sum of bounds if that is allowed. -/
def sum (g : Grammar) (sums : Bool) : Reader String :=
  if sums then g.bounds else g.bound

/-- The rest of a sum of bounds. -/
def sumRest (g : Grammar) (sums : Bool) : Reader String :=
  if sums then many (whenAt (.mark '+') (inOrder [one, g.bound])) else return ""

/-! ## Types -/

/-- The name of a function's interface. -/
def interfaceName : Reader String :=
  whenAt (.word "extern") (inOrder [one, whenAt .literal one])

/-- A parameter of a function type; one that may be changed stands as it is. -/
def functionTypeParameter (g : Grammar) : Reader String :=
  inOrder [g.outerAttributes, firstOf [
    (.both (.word "mut") (.second (.word "self")),
      orAsItStands ((·, true) <$> inOrder [several 2, mark ':', g.typeText true])),
    (fun _ => true, inOrder [
      whenAt (.both (.either .name (.words ["_", "self"])) (.second (.markBut ':' ':')))
        (several 2),
      firstOf [(.marks ['.', '.', '.'], several 3), (fun _ => true, g.typeText true)]])]]

/-- A function type. -/
def functionType (g : Grammar) : Reader String :=
  inOrder [word "unsafe", interfaceName, word "fn",
    inside .round (separated g.functionTypeParameter), g.returnType false]

/-- A path, the call that it names if a mark says so, or a sum of bounds that begins with it. -/
def pathType (g : Grammar) (sums : Bool) : Reader FieldType := do
  let path ← g.typePath
  let call ← whenAt (fun trees => path.isPlain && Ahead.markBut '!' '=' trees) (several 2)
  let rest ← g.sumRest sums
  return if call.isEmpty && rest.isEmpty then path.toFieldType
    else .plain (path.text ++ call ++ rest)

/-- A type that is no path. -/
def otherType (g : Grammar) (sums : Bool) : Reader String :=
  firstOf [
    (.word "for", inOrder [g.binder, g.typeText sums]),
    (.group .round, inOrder [inside .round (separated (g.typeText true)), g.sumRest sums]),
    (.words ["fn", "unsafe", "extern"], g.functionType),
    (.both (.word "dyn") (.second (.mark '*')),
      orAsItStands ((·, true) <$> inOrder [several 2, g.sum sums])),
    (.words ["dyn", "impl"], inOrder [one, g.sum sums]),
    (.group .square, inside .square (inOrder [g.typeText true,
      whenAt (.mark ';') (inOrder [one, g.expression true])])),
    (.mark '*', inOrder [one, word "const", word "mut", g.typeText false]),
    (.mark '&', inOrder [one, lifetime, word "mut", g.typeText false]),
    (.either (.mark '!') (.word "_"), one),
    (.either .lifetime (.mark '?'), g.sum sums)]

/-- A type. -/
def typeStep (g : Grammar) (sums : Bool) : Reader FieldType := do
  if pathAt (← get) then g.pathType sums
  else return .plain (← g.otherType sums)

end FieldQuery.Source.Grammar
