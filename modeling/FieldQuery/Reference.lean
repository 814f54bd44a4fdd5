import FieldQuery.Table

/-!
# Model references

A reference to a model holds one handle per column, and every handle carries a token by which
plans find its column again.  A relation's handle leads to a reference of the related model; that
one shares the tokens of the linked columns with the row it hangs off, and is built when it is
first asked for, so that tables may relate to each other in circles.

Main definitions:

- `Token`, `TokenSupply`: identities, and where fresh ones come from.
- `RefBuilder`: gives each column name of one reference its token.
- `Handle`, `Reference`: what a reference consists of.
- `Forest`: the references built so far; `Forest.resolve?` follows a path of field names.
-/

namespace FieldQuery

/-- The identity of one field of one reference. -/
structure Token where
  number : Nat
  deriving DecidableEq, Repr

/-- The number of the next token. -/
abbrev TokenSupply := Nat

/-- A token that no handle carries yet. -/
def Token.fresh : StateM TokenSupply Token :=
  fun next => (⟨next⟩, next + 1)

/-- The tokens of one reference: its own, and those of its columns by name. -/
structure RefBuilder where
  own : Token
  issued : List (String × Token)
  deriving Repr

namespace RefBuilder

def fresh : StateM TokenSupply RefBuilder := do
  return ⟨← Token.fresh, []⟩

/-- The token of a column: the one issued under its name, or else a fresh one. -/
def tokenFor (column : String) (builder : RefBuilder) : StateM TokenSupply (Token × RefBuilder) :=
  match builder.issued.find? (·.1 == column) with
  | some (_, token) => pure (token, builder)
  | none => do
    let token ← Token.fresh
    return (token, { builder with issued := builder.issued ++ [(column, token)] })

end RefBuilder

/-- The handle of one column. -/
inductive Handle
  | field (token : Token)
  /-- A relation, with the tokens that the related reference's linked columns share. -/
  | relation (token : Token) (shared : List (String × Token)) (target : Nat)
  deriving DecidableEq, Repr

def Handle.token : Handle → Token
  | .field token => token
  | .relation token _ _ => token

namespace RefBuilder

/-- The tokens of linked columns: each related column takes the token of the local one. -/
def sharedTokens : List (String × String) → RefBuilder →
    StateM TokenSupply (List (String × Token) × RefBuilder)
  | [], builder => pure ([], builder)
  | (remote, near) :: links, builder => do
    let (token, builder) ← builder.tokenFor near
    let (shared, builder) ← sharedTokens links builder
    return ((remote, token) :: shared, builder)

/-- The handle of a column. -/
def handle (column : Column) (builder : RefBuilder) :
    StateM TokenSupply (Handle × RefBuilder) := do
  let (token, builder) ← builder.tokenFor column.name
  match column.relation with
  | none => return (.field token, builder)
  | some relation =>
    let (shared, builder) ← builder.sharedTokens relation.links
    return (.relation token shared relation.target, builder)

/-- The handles of columns, in their order. -/
def handles : List Column → RefBuilder → StateM TokenSupply (List Handle)
  | [], _ => pure []
  | column :: columns, builder => do
    let (handle, builder) ← builder.handle column
    return handle :: (← builder.handles columns)

end RefBuilder

/-- Where a reference hangs: the root reference's number, and the columns of the relations that
lead from there to it. -/
structure Place where
  root : Nat
  steps : List Nat
  deriving DecidableEq, Repr

/-- A reference: its place, its table, its own token and one handle per column. -/
structure Reference where
  place : Place
  table : Nat
  own : Token
  handles : List Handle
  deriving DecidableEq, Repr

/-- One token per column, in the table's order. -/
def Reference.columnTokens (reference : Reference) : List Token :=
  reference.handles.map (·.token)

/-- The references built so far, and the supply of tokens. -/
structure Forest where
  supply : TokenSupply := 1
  roots : Nat := 0
  built : List Reference := []
  deriving Repr

namespace Forest

/-- Builds a reference from the tokens that its builder starts with. -/
def build (catalog : Catalog) (place : Place) (table : Nat) (builder : RefBuilder)
    (forest : Forest) : Reference × Forest :=
  let (handles, supply) := (builder.handles (catalog.table table).columns).run forest.supply
  let reference := ⟨place, table, builder.own, handles⟩
  (reference, { forest with supply := supply, built := forest.built ++ [reference] })

/-- A fresh reference of a table, sharing no token with any other. -/
def plant (catalog : Catalog) (table : Nat) (forest : Forest) : Reference × Forest :=
  let (builder, supply) := RefBuilder.fresh.run forest.supply
  build catalog ⟨forest.roots, []⟩ table builder
    { forest with supply := supply, roots := forest.roots + 1 }

/-- The reference that a relation in a column leads to, built at the first time. -/
def enter (catalog : Catalog) (reference : Reference) (column : Nat) (token : Token)
    (shared : List (String × Token)) (target : Nat) (forest : Forest) : Reference × Forest :=
  let place : Place := ⟨reference.place.root, reference.place.steps ++ [column]⟩
  match forest.built.find? (·.place == place) with
  | some known => (known, forest)
  | none => build catalog place target ⟨token, shared⟩ forest

/-- What a path leads to. -/
inductive Destination
  | reference (reference : Reference)
  /-- A column, and the reference it belongs to. -/
  | handle (reference : Reference) (column : Nat) (handle : Handle)
  deriving DecidableEq, Repr

/-- The column that a field's name stands for, the first of that name, and its handle. -/
def column? (catalog : Catalog) (reference : Reference) (name : String) : Option (Nat × Handle) := do
  let column ← (catalog.table reference.table).columns.findIdx? (·.field == name)
  return (column, ← reference.handles[column]?)

/-- Follows field names from a reference: every step but the last goes through a relation. -/
def resolve? (catalog : Catalog) :
    List String → Reference → Forest → Option (Destination × Forest)
  | [], reference, forest => some (.reference reference, forest)
  | [name], reference, forest =>
    (column? catalog reference name).map fun (column, handle) =>
      (.handle reference column handle, forest)
  | name :: next :: names, reference, forest =>
    match column? catalog reference name with
    -- the related reference is the same however often the path is followed
    | some (column, .relation token shared target) =>
      let (related, forest) := forest.enter catalog reference column token shared target
      resolve? catalog (next :: names) related forest
    | _ => none

end Forest

end FieldQuery
