import FieldQuery.Declaration.FieldType

/-!
# Declarations of models

A model is declared as a struct with attributes.  They name its table and columns and say which
fields are keys, relations or not stored at all.

Main definitions:

- `Declaration`: a declared struct.
- `TableAttributes.ofItems`, `FieldAttributes.ofItems`: the meaning of attributes.
- `DeclarationError`: why a declaration is refused.
-/

namespace FieldQuery

/-- The value of an attribute. -/
inductive AttributeValue
  | text (value : String)
  /-- Any other literal. -/
  | other
  deriving DecidableEq, Repr

/-- An attribute: a name, or a name with a value. -/
structure Attribute where
  name : String
  value : Option AttributeValue := none
  deriving DecidableEq, Repr

inductive DeclarationKind
  | struct
  | tuple
  | unit
  | enum
  | union
  deriving DecidableEq, Repr

/-- A declared field: its name (behind `r#` if that is a keyword), its type and its attributes in
order. -/
structure DeclaredField where
  name : String
  type : FieldType
  attributes : List Attribute := []
  deriving DecidableEq, Repr

structure Declaration where
  name : String
  kind : DeclarationKind := .struct
  /-- Whether the declaration has generic parameters. -/
  generic : Bool := false
  attributes : List Attribute := []
  fields : List DeclaredField
  deriving DecidableEq, Repr

/-- Why a declaration is refused. -/
inductive DeclarationError
  | generic
  | unknownTableAttribute
  | unnamedFields
  | notAStruct
  | unknownFieldAttribute
  | missingValue
  | notAText
  | valueOfFlag
  | bothRelations
  | referencesWithoutBelongsTo
  | keyWithoutHasMany
  | joinPrefixWithoutRelation
  | storedRelation
  | belongsToMany
  | hasManyOfOne
  deriving DecidableEq, Repr

def DeclarationError.message : DeclarationError → String
  | .generic => "Model cannot be derived for generic structs"
  | .unknownTableAttribute => "expected `table` or `schema`"
  | .unnamedFields => "Model can only be derived for structs with named fields"
  | .notAStruct => "Model can only be derived for structs"
  | .unknownFieldAttribute => "unsupported orm field attribute"
  | .missingValue => "expected `=`"
  | .notAText => "expected string literal"
  | .valueOfFlag => "expected `,`"
  | .bothRelations => "a field cannot be both belongs_to and has_many"
  | .referencesWithoutBelongsTo => "`references` requires `belongs_to`"
  | .keyWithoutHasMany => "`key` requires `has_many`"
  | .joinPrefixWithoutRelation => "`join_prefix` only applies to relation fields"
  | .storedRelation => "relation fields cannot be `id` or `transient`"
  | .belongsToMany => "belongs_to fields hold a single related model, not a Vec"
  | .hasManyOfOne => "has_many fields must be a Vec of the related model"

namespace Attribute

/-- The text that an attribute is given. -/
def textValue (item : Attribute) : Except DeclarationError String :=
  match item.value with
  | some (.text value) => .ok value
  | some .other => .error .notAText
  | none => .error .missingValue

/-- An attribute that takes no value. -/
def flagValue (item : Attribute) : Except DeclarationError Unit :=
  match item.value with
  | none => .ok ()
  | some _ => .error .valueOfFlag

end Attribute

/-- The attributes of a struct. -/
structure TableAttributes where
  table : Option String := none
  schema : Option String := none
  deriving DecidableEq, Repr

namespace TableAttributes

/-- Takes in one more attribute; a later one counts. -/
def add (known : TableAttributes) (item : Attribute) :
    Except DeclarationError TableAttributes :=
  if item.name = "table" then
    item.textValue.map fun text => { known with table := some text }
  else if item.name = "schema" then
    item.textValue.map fun text => { known with schema := some text }
  else .error .unknownTableAttribute

def ofItems (attributes : List Attribute) : Except DeclarationError TableAttributes :=
  attributes.foldlM add {}

end TableAttributes

/-- The attributes of a field. -/
structure FieldAttributes where
  isId : Bool := false
  transient : Bool := false
  column : Option String := none
  joinPrefix : Option String := none
  referencedBy : List String := []
  belongsTo : Option String := none
  references : Option String := none
  hasMany : Option String := none
  key : Option String := none
  deriving DecidableEq, Repr

/-- A relation, with the foreign key and the column that it points to. -/
inductive DeclaredRelation
  | belongsTo (foreignKey references : String)
  | hasMany (foreignKey key : String)
  deriving DecidableEq, Repr

namespace FieldAttributes

/-- Takes in one more attribute; a later one counts, except that every `referenced_by` does. -/
def add (known : FieldAttributes) (item : Attribute) :
    Except DeclarationError FieldAttributes :=
  let text (set : String → FieldAttributes) := item.textValue.map set
  match item.name with
  | "id" => item.flagValue.map fun _ => { known with isId := true }
  | "transient" => item.flagValue.map fun _ => { known with transient := true }
  | "column" => text fun value => { known with column := some value }
  | "join_prefix" => text fun value => { known with joinPrefix := some value }
  | "referenced_by" =>
    text fun value => { known with referencedBy := known.referencedBy ++ [value] }
  | "belongs_to" => text fun value => { known with belongsTo := some value }
  | "references" => text fun value => { known with references := some value }
  | "has_many" => text fun value => { known with hasMany := some value }
  | "key" => text fun value => { known with key := some value }
  | _ => .error .unknownFieldAttribute

/-- The relation of a field; a column named `id` is pointed to unless another one is named. -/
def relation? (attributes : FieldAttributes) : Option DeclaredRelation :=
  match attributes.belongsTo, attributes.hasMany with
  | some foreignKey, _ => some (.belongsTo foreignKey (attributes.references.getD "id"))
  | none, some foreignKey => some (.hasMany foreignKey (attributes.key.getD "id"))
  | none, none => none

/-- Whether attributes go together. -/
def validate (attributes : FieldAttributes) : Except DeclarationError Unit :=
  if attributes.belongsTo.isSome && attributes.hasMany.isSome then .error .bothRelations
  else if attributes.references.isSome && attributes.belongsTo.isNone then
    .error .referencesWithoutBelongsTo
  else if attributes.key.isSome && attributes.hasMany.isNone then .error .keyWithoutHasMany
  else if attributes.joinPrefix.isSome && attributes.relation?.isNone then
    .error .joinPrefixWithoutRelation
  else if attributes.relation?.isSome && (attributes.isId || attributes.transient) then
    .error .storedRelation
  else .ok ()

def ofItems (attributes : List Attribute) : Except DeclarationError FieldAttributes := do
  let known ← attributes.foldlM add {}
  known.validate
  return known

end FieldAttributes

end FieldQuery
