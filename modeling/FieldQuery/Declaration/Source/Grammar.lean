import FieldQuery.Declaration.Source.Item

/-!
# The grammar of types

Types, bounds, patterns, expressions and blocks hold each other, so their readers need each other.
Each of them calls the others for smaller parts only, which bounds how deep they go.

Main definitions:

- `grammar`: the readers, for parts that are nested to some depth.
- `FieldType.ofString`: the type that a text is.
-/

namespace FieldQuery

namespace Source

/-- The grammar of parts that are nested no deeper than a number says; at depth zero it takes
nothing. -/
def grammar : Nat → Grammar
  | 0 => {
      type := fun _ trees => (.plain "", trees)
      bound := fun trees => ("", trees)
      pattern := fun trees => ("", trees)
      expression := fun _ trees => ("", trees)
      leading := fun trees => ("", trees)
      statements := fun trees => ("", trees) }
  | depth + 1 =>
    let g := grammar depth
    { type := fun sums trees => g.typeStep sums trees
      bound := fun trees => g.boundStep trees
      pattern := fun trees => g.patternStep trees
      expression := fun structs trees => g.expressionStep structs trees
      leading := fun trees => g.leadingStep trees
      statements := fun trees => g.statementsStep trees }

/-- A depth that suffices for a row of so many tokens.  A part takes a token before it is asked for
a part of its own kind again, and in between at most three others are asked. -/
def depthOf (count : Nat) : Nat :=
  4 * count + 8

end Source

/-- The type that a text is; what does not belong to it is kept behind it. -/
def FieldType.ofString (text : String) : FieldType :=
  let tokens := Source.tokens text.toList
  let (type, rest) := (Source.grammar (Source.depthOf tokens.length)).type true
    (Source.Trees.ofTokens tokens)
  if rest.isEmpty then type else .plain (type.text ++ Source.Trees.text rest)

end FieldQuery
