import FieldQuery.Json.Access
import FieldQuery.Table

/-!
# Tables in scripts

A table is written as an object with its name, its schema and its columns, and shown with what
follows from these.

Main definitions:

- `readCatalog?`: reads tables.
- `showCatalog`: shows them.
-/

namespace FieldQuery.Script

/-! ## Reading -/

def readKind? : String → Option RelationKind
  | "belongs_to" => some .belongsTo
  | "has_many" => some .hasMany
  | _ => none

def readRelation? (j : Json) : Option Relation := do
  let kind ← readKind? (← j.required? "kind" Json.text?)
  let target ← j.required? "target" Json.nat?
  let stem ← j.required? "prefix" Json.text?
  let links ← (← j.required? "links" Json.items?).mapM Json.textPair?
  return ⟨kind, target, stem, links⟩

def readValueType? : String → Option ValueType
  | "int" => some .int
  | "float" => some .float
  | "string" => some .string
  | "bool" => some .bool
  | _ => none

/-- Reads a column; its field has the column's name unless another is given. -/
def readColumn? (j : Json) : Option Column := do
  let name ← j.required? "name" Json.text?
  let column : Column := {
    name := name
    field := ← j.member? "field" Json.text? name
    primaryKey := j.flag "pk"
    transient := j.flag "transient"
    referencedBy := ← j.member? "referenced_by" Json.texts? []
    valueType := ← j.optional? "type" fun t => t.text?.bind readValueType?
    nullable := j.flag "nullable" }
  return ((← j.optional? "relation" readRelation?).map column.withRelation).getD column

/-- Reads a table; a fresh model is the empty object unless a value is given. -/
def readTable? (j : Json) : Option Table := do
  return {
    schema := ← j.optional? "schema" Json.text?
    name := ← j.required? "name" Json.text?
    columns := ← (← j.required? "columns" Json.items?).mapM readColumn?
    default := (j.get? "default").getD (.obj []) }

def readCatalog? (tables : Json) : Option Catalog := do
  return ⟨← (← tables.items?).mapM readTable?⟩

/-! ## Showing -/

def kindWord : RelationKind → String
  | .belongsTo => "belongs_to"
  | .hasMany => "has_many"

def showRelation (catalog : Catalog) (relation : Relation) : Json :=
  .ofPairs [("many", .bool relation.isMany), ("kind", .str (kindWord relation.kind)),
    ("target", .str (catalog.table relation.target).name), ("prefix", .str relation.joinPrefix),
    ("links", .arr (relation.links.map fun (remote, near) => .ofTexts [remote, near]))]

def showColumn (catalog : Catalog) (column : Column) : Json :=
  .ofPairs [("name", .str column.name), ("field", .str column.field),
    ("transient", .bool column.transient), ("pk", .bool column.primaryKey),
    ("referenced_by", .ofTexts column.referencedBy),
    ("relation", match column.relation with
      | some relation => showRelation catalog relation
      | none => .null)]

def showTable (catalog : Catalog) (table : Table) : Json :=
  .ofPairs [("schema", .ofText? table.schema), ("name", .str table.name),
    ("columns", .arr (table.columns.map (showColumn catalog))),
    ("primary_keys", .ofTexts (table.primaryKeys.map (·.name))), ("default", table.default)]

def showCatalog (catalog : Catalog) : Json :=
  .arr (catalog.tables.map (showTable catalog))

end FieldQuery.Script
