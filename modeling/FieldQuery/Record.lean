import FieldQuery.Json.Document
import FieldQuery.Json.Printer

/-!
# Result rows

A row is a list of aliases and values, in the order of the select list.  Rows are kept in a cache
as JSON text and read back from it.

Main definitions:

- `Record`, `Record.get?`: a row, and the value under an alias.
- `Record.toJson`, `Record.ofText?`, `Record.listOfText?`: the JSON form.
-/

namespace FieldQuery

/-- A row. -/
structure Record where
  columns : List (String × Json) := []
  deriving Repr

namespace Record

/-- The value under an alias; of several the first. -/
def get? (record : Record) (label : String) : Option Json :=
  (record.columns.find? (·.1 == label)).map (·.2)

/-- Adds a column behind the others. -/
def push (record : Record) (label : String) (value : Json) : Record :=
  ⟨record.columns ++ [(label, value)]⟩

def size (record : Record) : Nat := record.columns.length

def isEmpty (record : Record) : Bool := record.columns.isEmpty

/-- Whether two rows hold the same aliases and values in the same order. -/
def same (a b : Record) : Bool :=
  Json.agreeMembers Json.Number.same a.columns b.columns

def pairJson (column : String × Json) : Json :=
  .arr [.str column.1, column.2]

/-- A row as an object with its columns as pairs. -/
def toJson (record : Record) : Json :=
  .obj [("columns", .arr (record.columns.map pairJson))]

/-- Rows as an array. -/
def listToJson (records : List Record) : Json :=
  .arr (records.map toJson)

open Json (Document StringPart)

/-- Reads a pair of an alias and a value. -/
def pairOfDocument? (depth : Nat) : Document → Option (String × Json)
  | .arr [.str label, value] => do
    match depth with
    | 0 => none
    | depth + 1 => return (← Json.decode? label, ← value.toJson? depth)
  | _ => none

/-- Reads the list of columns. -/
def columnsOfDocument? (depth : Nat) : Document → Option (List (String × Json))
  | .arr items =>
    match depth with
    | 0 => none
    | depth + 1 => items.mapM (pairOfDocument? depth)
  | _ => none

/-- The only value under the key `columns`; other keys are passed over. -/
def columnsMember? : List (List StringPart × Document) → Option Document
  | [] => none
  | members => do
    let keyed ← members.mapM fun (key, value) => return (← Json.decode? key, value)
    match keyed.filter (·.1 == "columns") with
    | [(_, value)] => some value
    | _ => none

/-- Reads a row: an object with its columns, or an array of nothing but them. -/
def ofDocument? (depth : Nat) (document : Document) : Option Record :=
  match depth, document with
  | depth + 1, .obj members => do
    return ⟨← columnsOfDocument? depth (← columnsMember? members)⟩
  | depth + 1, .arr [columns] => (columnsOfDocument? depth columns).map Record.mk
  | _, _ => none

/-- Reads the text of one row. -/
def ofText? (text : String) : Option Record := do
  ofDocument? Json.depthLimit (← Document.ofText? text)

/-- Reads the text of a list of rows. -/
def listOfText? (text : String) : Option (List Record) := do
  match ← Document.ofText? text with
  | .arr items => items.mapM (ofDocument? (Json.depthLimit - 1))
  | _ => none

end Record

end FieldQuery
