import FieldQuery.Declaration.Basic
import FieldQuery.Table
import FieldQuery.Text.SnakeCase

/-!
# What a declaration stands for

A declared model gets a table descriptor and a reference type.  Each of its fields contributes a
column to the one, and to the other a handle, the way that handle is built, and a token.

Main definitions:

- `Expansion`, `FieldExpansion`: all that a declaration stands for.
- `Declaration.expand`: the expansion of a declaration, or why it is refused.
-/

namespace FieldQuery

/-- The type of a field's handle. -/
inductive HandleType
  | field (valueType : FieldType)
  | relation (model : FieldType)
  deriving DecidableEq, Repr

/-- How a field's handle is built from the column's name. -/
inductive HandleBuilder
  | field (column : String)
  | relation (column : String) (links : List (String × String))
  deriving DecidableEq, Repr

/-- A step in the description of a column. -/
inductive ColumnStep
  | primaryKey
  | transient
  | referencedBy (column : String)
  | relation (kind : RelationKind) (model : FieldType) (joinPrefix remote near : String)
  deriving DecidableEq, Repr

/-- The description of a column: its name, its field, and further steps. -/
structure ColumnDescription where
  name : String
  field : String
  steps : List ColumnStep
  deriving DecidableEq, Repr

/-- What a field stands for. -/
structure FieldExpansion where
  /-- The field's name as it is declared. -/
  name : String
  handle : HandleType
  builder : HandleBuilder
  column : ColumnDescription
  deriving DecidableEq, Repr

structure Expansion where
  /-- The name of the reference type. -/
  reference : String
  doc : String
  table : String
  schema : Option String
  fields : List FieldExpansion
  /-- The members of the reference whose tokens it lists. -/
  tokens : List String
  deriving DecidableEq, Repr

/-- A name without the mark of a raw one. -/
def unraw (name : String) : String :=
  match name.toList with
  | 'r' :: '#' :: rest => String.ofList rest
  | _ => name

namespace DeclaredField

/-- The steps that a relation and a plain column have in common. -/
def columnSteps (attributes : FieldAttributes) : List ColumnStep :=
  (if attributes.isId then [.primaryKey] else []) ++
    (if attributes.transient then [.transient] else []) ++
    attributes.referencedBy.map .referencedBy

/-- The kind of a relation, the related column and the column of this table that it is linked to;
the type has to hold as many models as the kind says. -/
def linkOf (relation : DeclaredRelation) (many : Bool) :
    Except DeclarationError (RelationKind × String × String) :=
  match relation with
  | .belongsTo foreignKey references =>
    if many then .error .belongsToMany else .ok (.belongsTo, references, foreignKey)
  | .hasMany foreignKey key =>
    if many then .ok (.hasMany, foreignKey, key) else .error .hasManyOfOne

/-- What a field stands for. -/
def expand (field : DeclaredField) : Except DeclarationError FieldExpansion := do
  let attributes ← FieldAttributes.ofItems field.attributes
  let fieldName := unraw field.name
  let column := attributes.column.getD fieldName
  let steps := columnSteps attributes
  match attributes.relation? with
  | none =>
    return ⟨field.name, .field field.type.withoutOption, .field column, ⟨column, fieldName, steps⟩⟩
  | some relation =>
    let (model, many) := field.type.relationTarget
    let (kind, remote, near) ← linkOf relation many
    let joinPrefix := attributes.joinPrefix.getD (fieldName ++ "_")
    return ⟨field.name, .relation model, .relation column [(remote, near)],
      ⟨column, fieldName, steps ++ [.relation kind model joinPrefix remote near]⟩⟩

end DeclaredField

namespace Declaration

/-- Only structs with named fields are models. -/
def checkKind (declaration : Declaration) : Except DeclarationError Unit :=
  match declaration.kind with
  | .struct => .ok ()
  | .tuple | .unit => .error .unnamedFields
  | .enum | .union => .error .notAStruct

/-- What a declaration stands for.  A table without a name of its own has the struct's, in snake
case. -/
def expand (declaration : Declaration) : Except DeclarationError Expansion := do
  -- of several faults the first in this order is told: parameters, attributes, kind, fields
  if declaration.generic then throw .generic
  let attributes ← TableAttributes.ofItems declaration.attributes
  declaration.checkKind
  let fields ← declaration.fields.mapM DeclaredField.expand
  return {
    reference := unraw declaration.name ++ "Ref"
    doc := "Field handles of [`" ++ declaration.name ++ "`], one per column."
    table := attributes.table.getD (Text.snakeCase declaration.name)
    schema := attributes.schema
    fields := fields
    tokens := fields.map (·.name) }

end Declaration

end FieldQuery
