import FieldQuery.Declaration.Expansion
import FieldQuery.Declaration.Source.Grammar
import FieldQuery.Json.Access

/-!
# Declarations in scripts

A declaration is written with its attributes in lists, and shown as the code that it stands for:
the fields of the reference type, how each is built, the calls that build the table, and the
expressions that list the tokens.

Main definitions:

- `readDeclaration?`: reads a declaration.
- `showExpansion`: shows what it stands for.
-/

namespace FieldQuery.Script

/-! ## Reading -/

/-- Reads an attribute: a name, or a name with a value. -/
def readAttribute? : Json → Option Attribute
  | .arr [.str name] => some { name }
  | .arr [.str name, .str text] => some { name, value := some (.text text) }
  | .arr [.str name, _] => some { name, value := some .other }
  | _ => none

/-- Reads a group of attributes.  A text is an attribute of somebody else. -/
def readAttributeGroup? : Json → Option (List Attribute)
  | .str _ => some []
  | .arr items => items.mapM readAttribute?
  | _ => none

/-- Reads the attributes of all groups, in order. -/
def readAttributes? (j : Json) : Option (List Attribute) := do
  return (← (← j.items?).mapM readAttributeGroup?).flatten

def readDeclarationKind? : String → Option DeclarationKind
  | "struct" => some .struct
  | "tuple" => some .tuple
  | "unit" => some .unit
  | "enum" => some .enum
  | "union" => some .union
  | _ => none

def readDeclaredField? (j : Json) : Option DeclaredField := do
  return {
    name := ← j.member? "name" Json.text? ""
    type := FieldType.ofString (← j.required? "type" Json.text?)
    attributes := ← j.member? "attrs" readAttributes? [] }

/-- Whether the text of a list of generic parameters has any. -/
def hasParameters (generics : String) : Bool :=
  Source.Trees.declareParameters (Source.Trees.ofString generics)

def readDeclaration? (j : Json) : Option Declaration := do
  return {
    name := ← j.required? "name" Json.text?
    kind := ← j.member? "kind" (fun k => k.text?.bind readDeclarationKind?) .struct
    generic := hasParameters (← j.member? "generics" Json.text? "")
    attributes := ← j.member? "attrs" readAttributes? []
    fields := ← j.member? "fields" (fun fs => do (← fs.items?).mapM readDeclaredField?) [] }

/-! ## Showing -/

/-- A call: a name and its arguments. -/
def showCode (name : String) (arguments : List Json) : Json :=
  .arr (.str name :: arguments)

/-- The path in front of the names of this library. -/
def libraryPath : List Char := "::fieldplan::".toList

/-- Takes the path of this library out of a text; what is left is not read again. -/
def dropLibraryPath : List Char → List Char
  | [] => []
  | c :: rest =>
    if libraryPath.isPrefixOf (c :: rest) then
      dropLibraryPath (rest.drop (libraryPath.length - 1))
    else c :: dropLibraryPath rest
termination_by text => text.length
decreasing_by
  · rw [List.length_drop, List.length_cons]
    omega
  · exact Nat.lt_succ_self _

/-- The text of a type without spaces, also in its literals. -/
def typeCharacters (type : FieldType) : List Char :=
  type.text.toList.filter (· != ' ')

/-- The type of a handle is shown without the path of this library. -/
def showType (type : FieldType) : String :=
  String.ofList (dropLibraryPath (typeCharacters type))

/-- A field of the reference type: its name, its type and whether others see it. -/
def showReferenceField (name type : String) (visible : Bool) : Json :=
  .arr [.str name, .str type, .bool visible]

def handleTypeText : HandleType → String
  | .field valueType => "Field<" ++ showType valueType ++ ">"
  | .relation model => "Rel<" ++ showType model ++ ">"

def showBuilder : HandleBuilder → Json
  | .field column => showCode "field" [.str column]
  | .relation column links =>
    showCode "relation" [.str column, .arr (links.map fun (a, b) => .ofTexts [a, b])]

def relationCall : RelationKind → String
  | .belongsTo => "Relation::belongs_to"
  | .hasMany => "Relation::has_many"

/-- The model of a relation is shown as it is declared. -/
def modelText (model : FieldType) : String :=
  String.ofList (typeCharacters model)

def showColumnStep : ColumnStep → Json
  | .primaryKey => showCode "primary_key" []
  | .transient => showCode "transient" []
  | .referencedBy column => showCode "referenced_by" [.str column]
  | .relation kind model joinPrefix remote near =>
    showCode "relation"
      [.arr [.ofTexts [relationCall kind, modelText model, joinPrefix, remote, near]]]

def showColumnDescription (column : ColumnDescription) : Json :=
  showCode "column"
    [.arr (showCode "ColumnDef::new" [.str column.name, .str column.field] ::
      column.steps.map showColumnStep)]

/-- The calls that build the table. -/
def showTableCalls (expansion : Expansion) : Json :=
  .arr (showCode "TableDef::new" [.str expansion.table] ::
    (expansion.schema.toList.map fun schema => showCode "schema" [.str schema]) ++
    expansion.fields.map (fun field => showColumnDescription field.column) ++
    [showCode "default_value" [.str "closure"]])

/-- The expression for the token of a member. -/
def tokenExpression (member : String) : String :=
  "self." ++ member ++ ".token()"

def showExpansion (expansion : Expansion) : Json :=
  .ofPairs [("ref", .str expansion.reference), ("doc", .str expansion.doc),
    ("decls", .arr (showReferenceField "__token" "FieldToken" false ::
      expansion.fields.map fun field =>
        showReferenceField field.name (handleTypeText field.handle) true)),
    ("inits", .arr (.arr [.str "__token", showCode "own_token" []] ::
      expansion.fields.map fun field => .arr [.str field.name, showBuilder field.builder])),
    ("table", showTableCalls expansion),
    ("tokens", .str (",".intercalate (expansion.tokens.map tokenExpression)))]

end FieldQuery.Script
