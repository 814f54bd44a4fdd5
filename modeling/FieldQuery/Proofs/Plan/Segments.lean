import FieldQuery.Proofs.Condition.Layout
import FieldQuery.Plan.Compile

/-!
# The segments of a statement

In the text of a statement nothing tells a column of the column map from what is written around it.
So the statements are written once more, in segments that do: a column behind the name of its
source, a source in a list of sources, and anything else.  Put one behind the other, the segments
are the statement again.  SQL that came in as text stays text, and so does a column that a condition
written by hand takes without its source.

Two things are text in a plan that have been columns before: the links of a joined reference, and
the fields that are grouped by.  They are told by `Notes`, which are taken while the plan is built.

Main definitions:

- `Segment`, `Segment.text`: the segments; `Notes`: the columns behind texts.
- `Plan.segments`: the segments of the statement for an action.
-/

namespace FieldQuery

open Condition

/-! ## Segments -/

/-- A column behind the name of its source. -/
structure ColumnName where
  source : String
  column : String
  deriving DecidableEq

def ColumnName.text (name : ColumnName) : String :=
  name.source ++ "." ++ name.column

def Entry.name (entry : Entry) : ColumnName :=
  ⟨entry.quotedTable, entry.quotedColumn⟩

/-- What a source is known by in the conditions of a statement. -/
def Source.name : Source → String
  | .named quoted => quoted
  | .derived _ correlation => correlation

/-- A piece of a statement. -/
inductive Segment
  | column (name : ColumnName)
  /-- A source in a list of sources, with the alias of a related table. -/
  | source (source : Source) (correlation : Option String)
  | other (statement : Statement)

namespace Segment

def statement : Segment → Statement
  | .column name => .ofText name.text
  | .source origin correlation => origin.spelled correlation
  | .other statement => statement

/-- The characters and the marks of segments. -/
def text (segments : List Segment) : List Symbol :=
  segments.flatMap fun segment => symbols segment.statement

/-- Segments with a text between any two of them. -/
def join (separator : String) : List (List Segment) → List Segment
  | [] => []
  | [only] => only
  | first :: second :: rest =>
    first ++ [.other (.ofText separator)] ++ join separator (second :: rest)

end Segment

/-- The columns that a link compares. -/
structure Link where
  near : ColumnName
  far : ColumnName
  deriving DecidableEq

namespace Link

def condition (link : Link) : String :=
  link.near.text ++ " = " ++ link.far.text

/-- The condition that the link becomes. -/
def filter (link : Link) : Filter :=
  .verbatim link.condition

def segments (link : Link) : List Segment :=
  [.column link.near, .other (.ofText " = "), .column link.far]

end Link

/-- The columns behind what a plan keeps as text. -/
structure Notes where
  links : List Link := []
  /-- The fields that are grouped by. -/
  grouped : List Token := []

/-! ## Writing in segments -/

namespace Operand

mutual

def segments (columns : ColumnMap) : Operand → Except PlanError (List Segment)
  | .field token => (columns.queryable token).map fun entry => [.column entry.name]
  | .value v => .ok [.other (.ofValue v)]
  | .wrapped template operands => do
    let (first, others) := templateParts template
    return .other (.ofText first) :: (← segmentsMarks columns operands others)

def segmentsMarks (columns : ColumnMap) :
    List Operand → List String → Except PlanError (List Segment)
  | _, [] => .ok []
  | [], parts => .ok [.other (withoutOperands parts)]
  | operand :: operands, part :: parts => do
    let written ← segments columns operand
    return written ++ [.other (.ofText part)] ++ (← segmentsMarks columns operands parts)

end

end Operand

namespace Fragment

def segments (columns : ColumnMap) : Fragment → Except PlanError (List Segment)
  | .qualifiedColumn token => (columns.queryable token).map fun entry => [.column entry.name]
  | fragment => (fragment.render columns).map fun written => [.other written]

def segmentsAll (columns : ColumnMap) : List Fragment → Except PlanError (List Segment)
  | [] => .ok []
  | fragment :: rest => do
    let written ← fragment.segments columns
    return written ++ (← segmentsAll columns rest)

end Fragment

namespace Filter

/-- The segments of SQL that is ready to be written: those of a link, if it was one. -/
def verbatimSegments (links : List Link) (condition : String) : List Segment :=
  match links.find? fun link => link.condition == condition with
  | some link => link.segments
  | none => [.other (.ofText condition)]

mutual

def segments (links : List Link) (columns : ColumnMap) : Filter → Except PlanError (List Segment)
  | .and [] => .ok [.other alwaysText]
  | .and [filter] => segments links columns filter
  | .and filters => (segmentsEach links columns filters).map (Segment.join " AND ")
  | .or [] => .ok [.other neverText]
  | .or [filter] => segments links columns filter
  | .or filters => (segmentsEach links columns filters).map (Segment.join " OR ")
  | .not filter => do
    return [.other (.ofText "NOT (")] ++ (← segments links columns filter) ++ [.other (.ofText ")")]
  | .compare left comparison right => do
    let left ← left.segments columns
    let right ← right.segments columns
    return left ++ [.other (.ofText (" " ++ comparison.sql ++ " "))] ++ right
  | .null operand negated => do
    return (← operand.segments columns) ++
      [.other (.ofText (if negated then " IS NOT NULL" else " IS NULL"))]
  | .truth operand negated => do
    return [.other (.ofText (if negated then "NOT " else ""))] ++ (← operand.segments columns)
  | .inList _ [] => .ok [.other neverText]
  | .inList operand values => do
    return (← operand.segments columns) ++
      [.other (.ofText " IN (" ++ .ofValues values ++ .ofText ")")]
  | .inQuery operand query => do
    return (← operand.segments columns) ++ [.other (.ofText " IN (" ++ query ++ .ofText ")")]
  | .verbatim condition => .ok (verbatimSegments links condition)
  | .invalid error => .error error
  | .custom steps => Fragment.segmentsAll columns (steps columns)

def segmentsEach (links : List Link) (columns : ColumnMap) :
    List Filter → Except PlanError (List (List Segment))
  | [] => .ok []
  | filter :: rest => do
    let written ← segments links columns filter
    let others ← segmentsEach links columns rest
    return (if filter.isGroup then [.other (.ofText "(")] ++ written ++ [.other (.ofText ")")]
      else written) :: others

end

end Filter

namespace JoinClause

def segments (links : List Link) (columns : ColumnMap) (join : JoinClause) :
    Except PlanError (List Segment) := do
  let on ← (Filter.and join.on).segments links columns
  return [.other (.ofText (" " ++ join.kind.sql ++ " ")), .source join.source join.correlation,
    .other (.ofText " ON ")] ++ on

end JoinClause

namespace Plan

def joinSegments (links : List Link) (columns : ColumnMap) :
    List JoinClause → Except PlanError (List Segment)
  | [] => .ok []
  | join :: rest => do
    let written ← join.segments links columns
    return written ++ (← joinSegments links columns rest)

def whereSegments (links : List Link) (columns : ColumnMap) :
    List Filter → Except PlanError (List Segment)
  | [] => .ok []
  | filters =>
    ((Filter.and filters).segments links columns).map ([.other (.ofText " WHERE ")] ++ ·)

def termSegments (columns : ColumnMap) : List OrderTerm → Except PlanError (List (List Segment))
  | [] => .ok []
  | term :: rest => do
    let written ← term.operand.segments columns
    return (written ++ [.other (.ofText term.direction.sql)]) :: (← termSegments columns rest)

def orderSegments (plan : Plan) : Except PlanError (List Segment) :=
  match plan.order with
  | [] => .ok []
  | terms =>
    (termSegments plan.columns terms).map fun terms =>
      [.other (.ofText " ORDER BY ")] ++ Segment.join ", " terms

def groupedNames (columns : ColumnMap) : List Token → Except PlanError (List ColumnName)
  | [] => .ok []
  | token :: rest => do
    let entry ← columns.queryable token
    return entry.name :: (← groupedNames columns rest)

/-- The fields that are grouped by, as columns. -/
def groupSegments (columns : ColumnMap) : List Token → Except PlanError (List Segment)
  | [] => .ok []
  | tokens =>
    (groupedNames columns tokens).map fun names =>
      [.other (.ofText " GROUP BY ")] ++ Segment.join ", " (names.map fun name => [.column name])

def fromSegments (plan : Plan) : List Segment :=
  match plan.source with
  | some source => [.other (.ofText " FROM "), .source source none]
  | none => []

def querySegments (notes : Notes) (plan : Plan) : Except PlanError (List Segment) := do
  let joins ← joinSegments notes.links plan.columns plan.allJoins
  let conditions ← whereSegments notes.links plan.columns (plan.conditions.getD [])
  let grouping ← groupSegments plan.columns notes.grouped
  let order ← plan.orderSegments
  return plan.fromSegments ++ joins ++ conditions ++ grouping ++ order ++ [.other plan.paging]

/-- An item of a select list: a column, unless an expression stands for it. -/
def itemSegments (dialect : Dialect) (entry : Entry) : List Segment :=
  match entry.selectTarget with
  | some expression => [.other (.ofText (expression ++ " AS " ++ dialect.quote entry.label))]
  | none => [.column entry.name, .other (.ofText (" AS " ++ dialect.quote entry.label))]

def sourceSegments (plan : Plan) (keyword : String) : List Segment :=
  match plan.allJoins with
  | [] => []
  | joins =>
    [.other (.ofText keyword)] ++
      Segment.join ", " (joins.map fun join => [.source join.source join.correlation])

/-- The conditions of all joins behind those of the `WHERE` clause. -/
def foldedSegments (notes : Notes) (plan : Plan) : Except PlanError (List Segment) :=
  whereSegments notes.links plan.columns
    (plan.conditions.getD [] ++ plan.allJoins.flatMap (·.on))

/-- The table that a write names. -/
def writtenSegment (plan : Plan) : Segment :=
  .source (.named plan.quotedTable) none

/-- The segments of the statement for an action. -/
def segments (notes : Notes) (plan : Plan) : Action → Except PlanError (List Segment)
  | .select => do
    let _ ← plan.check
    match plan.columns.selected with
    | [] => throw (.mapping .nothingSelected)
    | entries =>
      return [.other (.ofText "SELECT ")] ++
        Segment.join ", " (entries.map (itemSegments plan.dialect)) ++ (← plan.querySegments notes)
  | .count => do
    let _ ← plan.check
    return [.other (.ofText "SELECT count(*)")] ++ (← plan.querySegments notes)
  | .update => do
    let _ ← plan.check
    match plan.assignments with
    | [] => throw (.noAssignments "UPDATE")
    | assignments =>
      let items := assignments.map fun (column, value) => .ofText (column ++ "=") ++ .ofValue value
      return [.other (.ofText "UPDATE "), plan.writtenSegment, .other (.ofText " SET "),
        .other (.join ", " items)] ++ plan.sourceSegments " FROM " ++ (← plan.foldedSegments notes)
  | .delete => do
    let _ ← plan.check
    return [.other (.ofText "DELETE FROM "), plan.writtenSegment] ++
      plan.sourceSegments " USING " ++ (← plan.foldedSegments notes)
  -- these name no column behind its source
  | .insert => plan.insertStatement.map fun written => [.other written]
  | .truncate => plan.truncateStatement.map fun written => [.other written]

end Plan

end FieldQuery
