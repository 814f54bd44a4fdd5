import FieldQuery.Json.Basic

/-!
# Paths into JSON values

A path is a list of keys that leads from object to object.
-/

namespace FieldQuery.Json

/-- The members of an object; any other value counts as an empty one. -/
def membersOrNone : Json → Members
  | .obj members => members
  | _ => []

/-- Puts a value under a key; a value that is no object is replaced by one. -/
def set (value : Json) (key : String) (item : Json) : Json :=
  .obj (Members.insert key item value.membersOrNone)

/-- The value at the end of a path. -/
def lookup? : List String → Json → Option Json
  | [], value => some value
  | key :: keys, value =>
    match value.get? key with
    | some item => lookup? keys item
    | none => none

/-- Changes the value at the end of a path, where there is one. -/
def update (change : Json → Json) : List String → Json → Json
  | [], value => change value
  | key :: keys, value =>
    match value.get? key with
    | some item => value.set key (update change keys item)
    | none => value

end FieldQuery.Json
