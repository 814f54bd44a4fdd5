/-!
# Types of declared fields

What matters of the type of a field, such as `Option<Box<Team>>`, is which wrappers it has: a
wrapper is a path of names whose last one has exactly one argument, and that is a type again.

Main definitions:

- `FieldType`: a type, as far as wrappers go.
- `FieldType.inner?`: the type within a wrapper of a given name.
- `FieldType.withoutOption`, `FieldType.relationTarget`: wrappers peeled off.
-/

namespace FieldQuery

/-- A type.  All texts are without blanks between their pieces. -/
inductive FieldType
  | plain (text : String)
  /-- A wrapper: the path in front of its name, its name, what opens its list of arguments, the only
  argument, and what closes the list. -/
  | wrapper (path name opening : String) (inner : FieldType) (closing : String)
  deriving DecidableEq, Repr, Inhabited

namespace FieldType

def text : FieldType → String
  | .plain text => text
  | .wrapper path name opening inner closing => path ++ name ++ opening ++ inner.text ++ closing

/-- The type within a wrapper of this name. -/
def inner? (wanted : String) : FieldType → Option FieldType
  | .plain _ => none
  | .wrapper _ name _ inner _ => if name = wanted then some inner else none

/-- The type of a column's values: one `Option` is peeled off. -/
def withoutOption (type : FieldType) : FieldType :=
  (type.inner? "Option").getD type

/-- The related model of a relation, under any nesting of `Option`, `Box` and `Vec`, and whether a
`Vec` is among them. -/
def relationTarget : FieldType → FieldType × Bool
  | .plain text => (.plain text, false)
  | .wrapper path name opening inner closing =>
    if name = "Vec" then (inner.relationTarget.1, true)
    else if name = "Option" ∨ name = "Box" then inner.relationTarget
    else (.wrapper path name opening inner closing, false)

end FieldType

end FieldQuery
