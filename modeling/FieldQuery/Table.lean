import FieldQuery.Json.Basic

/-!
# Tables

A table describes a kind of model: its name, its columns and the value that a fresh model has.
Tables refer to each other by their place in a catalog, so relations may run in circles.

Main definitions:

- `Table`, `Column`, `Relation`: the descriptors.
- `Catalog`: all tables that relations may lead to.
- `Catalog.rejects?`: why a value is no model of a table.
-/

namespace FieldQuery

/-- Which side of a relation holds the foreign key. -/
inductive RelationKind
  /-- This row does; the relation leads to one row. -/
  | belongsTo
  /-- The related rows do; the relation leads to any number of them. -/
  | hasMany
  deriving DecidableEq, Repr

/-- A relation to a table of the catalog. -/
structure Relation where
  kind : RelationKind
  target : Nat
  /-- Put in front of the aliases of the related table's columns. -/
  joinPrefix : String
  /-- Pairs of a related column and a column of this table that hold the same value. -/
  links : List (String × String)
  deriving DecidableEq, Repr

namespace Relation

/-- A row's foreign key points to a key of the related table. -/
def belongsTo (target : Nat) (joinPrefix targetKey foreignKey : String) : Relation :=
  ⟨.belongsTo, target, joinPrefix, [(targetKey, foreignKey)]⟩

/-- The related rows' foreign key points to a key of this table. -/
def hasMany (target : Nat) (joinPrefix foreignKey key : String) : Relation :=
  ⟨.hasMany, target, joinPrefix, [(foreignKey, key)]⟩

def isMany (relation : Relation) : Bool :=
  relation.kind == .hasMany

/-- Whether a column of the related table is one of the linked ones. -/
def linksColumn (relation : Relation) (column : String) : Bool :=
  relation.links.any (·.1 == column)

end Relation

/-- What a model's field may hold. -/
inductive ValueType
  | int
  | float
  | string
  | bool
  deriving DecidableEq, Repr

/-- A column, or a relation in the place of one. -/
structure Column where
  name : String
  /-- The name of the model's field. -/
  field : String
  primaryKey : Bool := false
  /-- Not stored in the table. -/
  transient : Bool := false
  /-- Columns elsewhere that hold this column's value. -/
  referencedBy : List String := []
  relation : Option Relation := none
  valueType : Option ValueType := none
  nullable : Bool := false
  deriving DecidableEq, Repr

/-- Marks a column as a relation, which is never stored. -/
def Column.withRelation (column : Column) (relation : Relation) : Column :=
  { column with transient := true, relation := some relation }

/-- The description of a kind of model. -/
structure Table where
  schema : Option String := none
  name : String
  columns : List Column := []
  /-- The value of a fresh model. -/
  default : Json := .obj []
  deriving Repr, Inhabited

namespace Table

def columnNamed? (table : Table) (name : String) : Option Column :=
  table.columns.find? (·.name == name)

def primaryKeys (table : Table) : List Column :=
  table.columns.filter (·.primaryKey)

end Table

/-- All tables, each under its place in the list. -/
structure Catalog where
  tables : List Table
  deriving Repr

namespace Catalog

/-- The table at a place; a place without one has a table without columns. -/
def table (catalog : Catalog) (place : Nat) : Table :=
  catalog.tables.getD place { name := "" }

end Catalog

/-- Why a value is no model. -/
inductive ShapeError
  | notAnObject (table : String)
  | expectedArray (field : String)
  | expectedValue (field : String) (valueType : ValueType)
  deriving DecidableEq, Repr

def ValueType.name : ValueType → String
  | .int => "int"
  | .float => "float"
  | .string => "string"
  | .bool => "bool"

def ShapeError.message : ShapeError → String
  | .notAnObject table => "`" ++ table ++ "` is not an object"
  | .expectedArray field => "field `" ++ field ++ "`: expected array"
  | .expectedValue field valueType => "field `" ++ field ++ "`: expected " ++ valueType.name

/-- Whether a value has a type: an integer has 64 bits, and any number is a float. -/
def ValueType.admits : ValueType → Json → Bool
  | .int, .num (.int i) => -(Nat.pow 2 63 : Int) ≤ i && i < Nat.pow 2 63
  | .float, .num _ => true
  | .string, .str _ => true
  | .bool, .bool _ => true
  | _, _ => false

/-- Why a value cannot stand in a column that is no relation. -/
def Column.rejects? (column : Column) (value : Json) : Option ShapeError :=
  match column.valueType with
  | none => none
  | some valueType =>
    if (column.nullable && value.isNull) || valueType.admits value then none
    else some (.expectedValue column.field valueType)

theorem Json.Members.sizeOf_get? {key : String} {members : Json.Members} {value : Json}
    (h : Json.Members.get? key members = some value) : sizeOf value < sizeOf members := by
  obtain ⟨pair, hp, rfl⟩ := Option.map_eq_some_iff.1 h
  have hm := List.sizeOf_lt_of_mem (List.mem_of_find?_eq_some hp)
  have : sizeOf pair.2 < sizeOf pair := by
    cases pair
    simp only [Prod.mk.sizeOf_spec]
    omega
  omega

mutual

/-- The first reason, column by column, why a value is no model of a table.  A related model may be
missing; the relation to many rows holds an array of models. -/
def Catalog.rejects? (catalog : Catalog) (table : Table) (value : Json) : Option ShapeError :=
  match value with
  | .obj members =>
    table.columns.findSome? fun column =>
      match h : Json.Members.get? column.field members with
      -- a missing field counts as null
      | none =>
        if column.relation.isSome then none else column.rejects? .null
      | some value =>
        have := Json.Members.sizeOf_get? h
        match column.relation with
        | none => column.rejects? value
        | some relation => catalog.rejectsRelated? column.field relation value
  | _ => some (.notAnObject table.name)
termination_by (sizeOf value, 0)

def Catalog.rejectsRelated? (catalog : Catalog) (field : String) (relation : Relation)
    (value : Json) : Option ShapeError :=
  match value with
  | .null => none
  | value =>
    match relation.kind with
    | .belongsTo => catalog.rejects? (catalog.table relation.target) value
    | .hasMany =>
      match value with
      | .arr items =>
        items.attach.findSome? fun ⟨item, _⟩ =>
          catalog.rejects? (catalog.table relation.target) item
      | _ => some (.expectedArray field)
termination_by (sizeOf value, 1)

end

end FieldQuery
