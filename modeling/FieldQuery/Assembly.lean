import FieldQuery.Plan.Stage
import FieldQuery.Json.Path
import FieldQuery.Record

/-!
# Assembling models from rows

Each selected field's value is put at the end of the field's path, into objects that start from
the defaults of the related models; a row without a value below a relation adds no related model.
Rows that agree on the selected primary keys of the root are one model, and their related rows are
gathered in its lists.

Main definitions:

- `ColumnMap.assemble`: the value of a single row.
- `mergeRow`: takes the related rows of a later row into a model.
- `ColumnMap.gather`: the values of a list of rows.
- `Plan.decode`: the models of a list of rows.
-/

namespace FieldQuery

/-- The object that a missing related model starts from. -/
def PathStep.fresh (step : PathStep) : Json :=
  match step.default with
  | some (.obj members) => .obj members
  | _ => .obj []

/-- Puts a value at the end of a path, making the objects on the way. -/
def place (value : Json) : List PathStep → Json → Json
  | [], row => row
  | [last], row => row.set last.field value
  | step :: next :: rest, row =>
    let slot := (row.get? step.field).getD .null
    let slot := if slot.isObject then slot else step.fresh
    row.set step.field (place value (next :: rest) slot)

/-- The value that a row holds for an entry, unless it is null. -/
def Entry.value? (entry : Entry) (record : Record) : Option Json :=
  match record.get? entry.label with
  | some value => if value.isNull then none else some value
  | none => none

/-- The paths to the steps of a path that hold any number of models. -/
def manyPaths : List PathStep → List (List String)
  | [] => []
  | step :: rest =>
    (if step.many then [[step.field]] else []) ++ (manyPaths rest).map (step.field :: ·)

/-- The paths of every list of related models among entries, each once, outer ones first. -/
def listPaths (entries : List Entry) : List (List String) :=
  (entries.flatMap (manyPaths ·.path)).eraseDups.mergeSort fun a b => a.length ≤ b.length

/-- Places what a row holds for an entry. -/
def Entry.placeIn (record : Record) (row : Json) (entry : Entry) : Json :=
  match entry.value? record with
  | some value => place value entry.path row
  | none => row

/-- Puts a value at the end of a path, if there is an object to hold it. -/
def placeCopy (value : Json) (row : Json) (path : List PathStep) : Json :=
  match path.getLast? with
  | some last =>
    Json.update (fun item => if item.isObject then item.set last.field value else item)
      (path.dropLast.map (·.field)) row
  | none => row

/-- Puts what a row holds for an entry where linked columns expect it. -/
def Entry.placeCopies (record : Record) (row : Json) (entry : Entry) : Json :=
  match entry.value? record with
  | some value => entry.copies.foldl (placeCopy value) row
  | none => row

/-- The lists of related models that a row has a value for. -/
def filledPaths (record : Record) (entries : List Entry) : List (List String) :=
  (entries.filter fun entry => (entry.value? record).isSome).flatMap fun entry =>
    manyPaths entry.path.dropLast

/-- Turns the related model at the end of a path into a list of one; without a value in the row the
list is empty. -/
def enlist (filled : List (List String)) (row : Json) (path : List String) : Json :=
  Json.update (fun item => if filled.contains path && item.isObject then .arr [item] else .arr [])
    path row

/-- The value of a single row, from the value of a fresh model.  Inner lists are made before the
outer ones. -/
def assemble (entries : List Entry) (fresh : Json) (record : Record) : Json :=
  let row := entries.foldl (Entry.placeIn record) fresh
  -- copies come second, because they make no objects of their own
  let row := entries.foldl (Entry.placeCopies record) row
  (listPaths entries).reverse.foldl (enlist (filledPaths record entries)) row

/-- Adds to a list the models that it does not hold. -/
def addMissing (items : List Json) (item : Json) : List Json :=
  if items.any (·.same item) then items else items ++ [item]

/-- Takes a row's related models at the end of a path into a model. -/
def mergeList (row model : Json) (path : List String) : Json :=
  match Json.lookup? path row with
  | some (.arr items) =>
    match Json.lookup? path model with
    | some (.arr known) => Json.update (fun _ => .arr (items.foldl addMissing known)) path model
    -- no list yet: the row's own, if the object that holds it is there
    | _ =>
      match path.getLast? with
      | some last => Json.update (·.set last (.arr items)) path.dropLast model
      | none => model
  | _ => model

/-- The paths that no other path leads to; inner lists go with the models that hold them. -/
def outermost (paths : List (List String)) : List (List String) :=
  paths.filter fun path =>
    !paths.any fun outer => outer.length < path.length && outer.isPrefixOf path

/-- Takes a row's related models into a model. -/
def mergeRow (paths : List (List String)) (model row : Json) : Json :=
  (outermost paths).foldl (mergeList row) model

/-- The aliases of the root's selected primary keys. -/
def keyAliases (entries : List Entry) : List String :=
  (entries.filter fun entry => entry.parent.isNone && entry.column.primaryKey).map (·.label)

/-- The values that tell a row's model from others; without a selected key, rows are not
compared. -/
def rowKey? (aliases : List String) (record : Record) : Option (List Json) :=
  if aliases.isEmpty then none else some (aliases.map fun label => (record.get? label).getD .null)

/-- Models in the order of their first rows, with their keys. -/
abbrev Gathered := List (Option (List Json) × Json)

/-- Takes a row into the models gathered so far: into that of the same key, or as a new one. -/
def addRow (paths : List (List String)) (key : Option (List Json)) (row : Json) :
    Gathered → Gathered
  | [] => [(key, row)]
  | (known, model) :: rest =>
    if key.isSome && known == key then (known, mergeRow paths model row) :: rest
    else (known, model) :: addRow paths key row rest

/-- The values of a list of rows, from the value of a fresh model. -/
def gather (entries : List Entry) (fresh : Json) (records : List Record) : List Json :=
  let paths := listPaths entries
  let aliases := keyAliases entries
  let gathered := records.foldl (fun gathered record =>
    addRow paths (rowKey? aliases record) (assemble entries fresh record) gathered) []
  gathered.map (·.2)

/-- The models of a list of rows, unless one of them is none. -/
def Plan.decode (plan : Plan) (records : List Record) : Except QueryError (List Json) :=
  (gather plan.columns.selected plan.model.default records).mapM fun value =>
    match plan.catalog.rejects? plan.model value with
    | none => .ok value
    | some error => .error (.decode plan.model.name error.message)

end FieldQuery
