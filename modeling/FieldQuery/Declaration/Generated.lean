import FieldQuery.Declaration.Expansion
import FieldQuery.Reference

/-!
# What generated code does

What a declaration stands for is code.  Run, it describes the columns of the table, builds the members
of a reference, one after the other and all with one builder, and lists the tokens of those members.

Main definitions:

- `ColumnDescription.run`, `Expansion.columns`: the columns that are described.
- `HandleBuilder.run`, `FieldExpansion.buildAll`: the members that are built.
- `Expansion.columnTokens?`: the tokens that a reference lists.
-/

namespace FieldQuery

/-- The type that a handle is for. -/
def HandleType.subject : HandleType → FieldType
  | .field valueType => valueType
  | .relation model => model

/-- One step in the description of a column, where the table of each model has its place. -/
def ColumnStep.run (place : FieldType → Nat) (column : Column) : ColumnStep → Column
  | .primaryKey => { column with primaryKey := true }
  | .transient => { column with transient := true }
  | .referencedBy name => { column with referencedBy := column.referencedBy ++ [name] }
  | .relation kind model joinPrefix remote near =>
    column.withRelation ⟨kind, place model, joinPrefix, [(remote, near)]⟩

/-- The column that is described. -/
def ColumnDescription.run (place : FieldType → Nat) (description : ColumnDescription) : Column :=
  description.steps.foldl (ColumnStep.run place)
    { name := description.name, field := description.field }

/-- The handle that is built; the type of a relation says which table it leads to. -/
def HandleBuilder.run (target : Nat) (handle : HandleBuilder) (builder : RefBuilder) :
    StateM TokenSupply (Handle × RefBuilder) :=
  match handle with
  | .field column => do
    let (token, builder) ← builder.tokenFor column
    return (.field token, builder)
  | .relation column links => do
    let (token, builder) ← builder.tokenFor column
    let (shared, builder) ← builder.sharedTokens links
    return (.relation token shared target, builder)

/-- The members of a reference: each is built in its turn, all with one builder. -/
def FieldExpansion.buildAll (place : FieldType → Nat) :
    List FieldExpansion → RefBuilder → StateM TokenSupply (List (String × Handle))
  | [], _ => pure []
  | field :: fields, builder => do
    let (handle, builder) ← field.builder.run (place field.handle.subject) builder
    return (field.name, handle) :: (← buildAll place fields builder)

/-- The token of the member that has a name. -/
def tokenOf? (members : List (String × Handle)) (name : String) : Option Token :=
  (members.find? (·.1 == name)).map (·.2.token)

namespace Expansion

/-- The columns of the table. -/
def columns (place : FieldType → Nat) (expansion : Expansion) : List Column :=
  expansion.fields.map fun field => field.column.run place

/-- The tokens that a reference with these members lists. -/
def columnTokens? (members : List (String × Handle)) (expansion : Expansion) :
    Option (List Token) :=
  expansion.tokens.mapM (tokenOf? members)

end Expansion

end FieldQuery
