import FieldQuery.Json.Access
import FieldQuery.Numbering
import FieldQuery.Plan.Basic
import FieldQuery.Script.Error

/-!
# Column maps in scripts

What a plan knows of its fields, as it is shown.

Main definitions:

- `showColumnMap`: all entries, with numbers for their tokens.
- `showField`: what is known of one field.
-/

namespace FieldQuery.Script

def showStep (step : PathStep) : Json :=
  .arr [.str step.field, .bool step.many, step.default.getD .null]

/-- Shows an entry; its own token is numbered before that of its relation. -/
def showEntry (entry : Entry) : Numbering Json := do
  let id ← Numbering.number entry.token
  let parent ← match entry.parent with
    | none => pure Json.null
    | some token => Json.ofNat <$> Numbering.number token
  return .ofPairs [("id", .ofNat id), ("table", .str entry.table.name),
    ("column", .str entry.column.name), ("alias", .str entry.label),
    ("qt", .str entry.quotedTable), ("qc", .str entry.quotedColumn),
    ("selected", .bool entry.isSelected), ("parent", parent),
    ("path", .arr (entry.path.map showStep)),
    ("mirrors", .arr (entry.copies.map fun path => .ofTexts (path.map (·.field))))]

def showColumnMap (columns : ColumnMap) : Json :=
  .arr (Numbering.shown (columns.entries.mapM showEntry))

/-- A text, or why there is none. -/
def showText (pathOf : Token → Option String) : Except PlanError String → Json
  | .ok text => .str text
  | .error error => showPlanError pathOf error

/-- Shows what a column map says of a field. -/
def showField (pathOf : Token → Option String) (columns : ColumnMap) (token : Token) : Json :=
  .ofPairs [("len", .ofNat columns.entries.length), ("empty", .bool columns.entries.isEmpty),
    ("contains", .bool (columns.contains token)),
    ("locate", showText pathOf ((columns.locate token).map (·.label))),
    ("queryable", showText pathOf ((columns.queryable token).map (·.column.name))),
    ("relation", .ofText? ((columns.relation? token).map (·.label))),
    ("column", showText pathOf (columns.bareColumn token)),
    ("table_column", showText pathOf (columns.qualifiedColumn token))]

/-- Shows what a plan reads from. -/
def showSources (plan : Plan) : Json :=
  .ofPairs [("alias", .str plan.quotedTable), ("table", .str plan.tableOrModel.name),
    ("touched", .ofTexts plan.touched), ("columns", .ofNat plan.columns.entries.length)]

end FieldQuery.Script
