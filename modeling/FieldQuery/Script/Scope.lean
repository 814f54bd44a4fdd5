import FieldQuery.Json.Access
import FieldQuery.Plan.Stage

/-!
# Names in scripts

A script calls references and earlier queries by name, and a field by its path: the name of a
reference and the names of fields, joined by points.

Main definitions:

- `Scope`: what names stand for.
- `Scoped`: reading that looks names up, builds references on the way and may fail.
- `fieldToken`, `pathTarget`, `queryNamed`: what a path or a name stands for.
-/

namespace FieldQuery.Script

/-- What names stand for. -/
structure Scope where
  catalog : Catalog
  references : List (String × Reference) := []
  forest : Forest := {}
  /-- Earlier queries, the latest first. -/
  queries : List (String × Query) := []
  /-- The paths that fields were first met under. -/
  met : List (Token × String) := []

namespace Scope

/-- Gives a name to a fresh reference of a table. -/
def plant (scope : Scope) (name : String) (table : Nat) : Scope :=
  let (reference, forest) := scope.forest.plant scope.catalog table
  { scope with
    references := scope.references ++ [(name, reference)], forest := forest }

/-- Keeps a query under a name; a later one of the same name hides it. -/
def keep (scope : Scope) (name : String) (query : Query) : Scope :=
  { scope with queries := (name, query) :: scope.queries }

/-- The path that a field was first met under. -/
def pathOf (scope : Scope) (token : Token) : Option String :=
  (scope.met.find? (·.1 == token)).map (·.2)

/-- Notes the path of a field, unless it has been met before. -/
def meet (scope : Scope) (token : Token) (path : String) : Scope :=
  if scope.met.any (·.1 == token) then scope
  else { scope with met := scope.met ++ [(token, path)] }

end Scope

/-- Reading within a scope. -/
abbrev Scoped := StateT Scope Option

/-- What has been read without a scope. -/
def given {α : Type} (value : Option α) : Scoped α :=
  StateT.lift value

/-- Reading that fails. -/
def refused {α : Type} : Scoped α :=
  given none

/-- What a path leads to. -/
def follow (path : String) : Scoped Forest.Destination := do
  let scope ← get
  match path.splitOn "." with
  | [] => refused
  | name :: names =>
    let (_, reference) ← given (scope.references.find? (·.1 == name))
    let (found, forest) ← given (Forest.resolve? scope.catalog names reference scope.forest)
    set { scope with forest := forest }
    return found

/-- The token of the field at the end of a path. -/
def fieldToken (path : String) : Scoped Token := do
  match ← follow path with
  | .reference _ => refused
  | .handle _ _ handle =>
    modify fun scope => scope.meet handle.token path
    return handle.token

/-- The reference that a relation's handle leads to. -/
def related (reference : Reference) (column : Nat) : Handle → Scoped (Option Reference)
  | .field _ => return none
  | .relation token shared target => do
    let scope ← get
    let (related, forest) :=
      scope.forest.enter scope.catalog reference column token shared target
    set { scope with forest := forest }
    return some related

/-- The reference or relation at the end of a path, as a target. -/
def pathTarget (path : String) : Scoped ModelTarget := do
  let catalog := (← get).catalog
  match ← follow path with
  | .reference reference =>
    return ⟨catalog.table reference.table, some reference.own, reference.columnTokens⟩
  | .handle reference column handle =>
    match ← related reference column handle with
    | none => refused
    | some reference =>
      return ⟨catalog.table reference.table, some handle.token, reference.columnTokens⟩

def queryNamed (name : String) : Scoped Query := do
  return (← given ((← get).queries.find? (·.1 == name))).2

def freshToken : Scoped Token := do
  let scope ← get
  let (token, supply) := Token.fresh.run scope.forest.supply
  set { scope with forest := { scope.forest with supply := supply } }
  return token

/-- So many fresh tokens. -/
def freshTokens : Nat → Scoped (List Token)
  | 0 => return []
  | count + 1 => do return (← freshToken) :: (← freshTokens count)

end FieldQuery.Script
