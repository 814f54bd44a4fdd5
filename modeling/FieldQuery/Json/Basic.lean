import FieldQuery.Json.Number

/-!
# JSON values

A value's objects list their members in increasing order of their keys, each key once; `insert`
keeps them so.

Main definitions:

- `Json`: the values.
- `Members.get?`, `Members.insert`: an object's members.
- `Json.same`: equality of values, by which the two zeros are equal; `==` tells them apart.
-/

namespace FieldQuery

/-- A JSON value. -/
inductive Json
  | null
  | bool (value : Bool)
  | num (value : Json.Number)
  | str (value : String)
  | arr (items : List Json)
  | obj (members : List (String × Json))
  deriving Repr, Inhabited

namespace Json

/-- Keys and values, in increasing order of the keys. -/
abbrev Members := List (String × Json)

/-- The value under a key. -/
def Members.get? (key : String) (members : Members) : Option Json :=
  (members.find? (·.1 == key)).map (·.2)

/-- Puts a value under a key, in the place that the order gives it. -/
def Members.insert (key : String) (value : Json) : Members → Members
  | [] => [(key, value)]
  | (k, v) :: rest =>
    if key < k then (key, value) :: (k, v) :: rest
    else if key == k then (key, value) :: rest
    else (k, v) :: Members.insert key value rest

/-- The members of a list of keys and values; of one key's values the last one counts. -/
def Members.ofList (pairs : List (String × Json)) : Members :=
  pairs.foldl (fun members (key, value) => Members.insert key value members) []

/-- The object of a list of keys and values. -/
def ofPairs (pairs : List (String × Json)) : Json :=
  .obj (Members.ofList pairs)

def ofInt (i : Int) : Json := .num (.int i)

def ofNat (n : Nat) : Json := .num (.int n)

/-- The member of an object under a key; no other value has members. -/
def get? (value : Json) (key : String) : Option Json :=
  match value with
  | .obj members => Members.get? key members
  | _ => none

def isNull : Json → Bool
  | .null => true
  | _ => false

def isObject : Json → Bool
  | .obj _ => true
  | _ => false

mutual

/-- Equality of values under an equality of numbers: lists element by element, objects member by
member. -/
def agree (numbers : Number → Number → Bool) : Json → Json → Bool
  | .null, .null => true
  | .bool a, .bool b => a == b
  | .num a, .num b => numbers a b
  | .str a, .str b => a == b
  | .arr a, .arr b => agreeItems numbers a b
  | .obj a, .obj b => agreeMembers numbers a b
  | _, _ => false

def agreeItems (numbers : Number → Number → Bool) : List Json → List Json → Bool
  | [], [] => true
  | a :: as, b :: bs => agree numbers a b && agreeItems numbers as bs
  | _, _ => false

def agreeMembers (numbers : Number → Number → Bool) :
    List (String × Json) → List (String × Json) → Bool
  | [], [] => true
  | (k, a) :: as, (l, b) :: bs => k == l && agree numbers a b && agreeMembers numbers as bs
  | _, _ => false

end

/-- Equality of what values stand for: the two zeros among the floats are the same. -/
def same : Json → Json → Bool :=
  agree Number.same

/-- Equality of values as they are written. -/
instance : BEq Json :=
  ⟨agree (· == ·)⟩

end Json

end FieldQuery
