import FieldQuery.Dialect
import FieldQuery.Error

/-!
# Column maps

A plan's column map says for each field it knows which column of which source the field stands
for, under which alias it is selected, and where in a model its value belongs.  Entries are only
added at the end, and each token has one.

Main definitions:

- `Entry`: what is known of one field; `ColumnMap`: the entries in order.
- `ColumnMap.locate`, `ColumnMap.queryable`: the entry of a token.
- `ColumnMap.qualifiedColumn`, `ColumnMap.bareColumn`: the SQL text of a field.
-/

namespace FieldQuery

/-- The two kinds of join. -/
inductive JoinKind
  | inner
  | leftOuter
  deriving DecidableEq, Repr

def JoinKind.sql : JoinKind → String
  | .inner => "INNER JOIN"
  | .leftOuter => "LEFT OUTER JOIN"

/-- The column that a lazy join is opened for. -/
structure JoinSite where
  quotedTable : String
  quotedColumn : String
  dialect : Dialect

/-- A join that is opened when a column is asked for: its table and alias are quoted, its condition
and the expression that stands for the column are SQL. -/
structure LazyJoin where
  kind : JoinKind
  table : String
  correlation : Option String
  on : String
  select : String
  deriving DecidableEq, Repr

/-- Registers a lazy join for a column of a table. -/
structure JoinRule where
  table : String
  column : String
  join : JoinSite → LazyJoin

/-- A step from a model into one of its fields. -/
structure PathStep where
  field : String
  /-- The field holds any number of related models. -/
  many : Bool := false
  /-- The value that a related model starts from. -/
  default : Option Json := none
  deriving Repr

/-- A step into a field that is no relation. -/
def PathStep.plain (field : String) : PathStep := { field }

/-- What a plan knows of one field. -/
structure Entry where
  token : Token
  table : Table
  column : Column
  /-- The name under which the value is selected. -/
  label : String
  /-- What the aliases of a related table's columns start with. -/
  stem : String
  /-- The name of the source that the column is read from. -/
  quotedTable : String
  quotedColumn : String
  /-- The expression selected in the place of the column. -/
  selectTarget : Option String := none
  lazyJoin : Option (JoinSite → LazyJoin) := none
  wanted : Bool
  /-- The relation that the field was reached through. -/
  parent : Option Token
  path : List PathStep
  /-- Where linked columns expect the same value. -/
  copies : List (List PathStep) := []

namespace Entry

/-- Wanted, and either stored or with an expression in its place. -/
def isSelected (entry : Entry) : Bool :=
  entry.wanted && (!entry.column.transient || entry.selectTarget.isSome)

/-- The column, behind the name of its source. -/
def qualified (entry : Entry) : String :=
  entry.quotedTable ++ "." ++ entry.quotedColumn

/-- What is selected for the field. -/
def selectExpr (entry : Entry) : String :=
  entry.selectTarget.getD entry.qualified

/-- Adds a path that expects the same value, unless one with its field names is known. -/
def addCopy (entry : Entry) (path : List PathStep) : Entry :=
  if entry.copies.any (fun known => known.map (·.field) == path.map (·.field)) then entry
  else { entry with copies := entry.copies ++ [path] }

end Entry

/-- The entries of a plan, in the order in which they were added. -/
structure ColumnMap where
  entries : List Entry := []

namespace ColumnMap

def contains (columns : ColumnMap) (token : Token) : Bool :=
  columns.entries.any (·.token == token)

/-- Adds an entry, unless its token has one. -/
def push (columns : ColumnMap) (entry : Entry) : ColumnMap :=
  if columns.contains entry.token then columns else ⟨columns.entries ++ [entry]⟩

def find? (columns : ColumnMap) (token : Token) : Option Entry :=
  columns.entries.find? (·.token == token)

/-- The entry of a token. -/
def locate (columns : ColumnMap) (token : Token) : Except PlanError Entry :=
  match columns.find? token with
  | some entry => .ok entry
  | none => .error (.unresolvedField token)

/-- The entry of a token that stands for a stored column. -/
def queryable (columns : ColumnMap) (token : Token) : Except PlanError Entry :=
  match columns.locate token with
  | .ok entry =>
    if entry.column.transient then .error (.transientField entry.column.name) else .ok entry
  | .error error => .error error

/-- The relation that a joined reference hangs off. -/
def relation? (columns : ColumnMap) (token : Token) : Option Entry :=
  columns.entries.find? fun entry => entry.token == token && entry.column.relation.isSome

/-- A field's column, as it is assigned to. -/
def bareColumn (columns : ColumnMap) (token : Token) : Except PlanError String :=
  (columns.queryable token).map (·.quotedColumn)

/-- A field's column behind the name of its source, as it is read. -/
def qualifiedColumn (columns : ColumnMap) (token : Token) : Except PlanError String :=
  (columns.queryable token).map (·.qualified)

/-- Changes the entry of a token. -/
def modify (columns : ColumnMap) (token : Token) (change : Entry → Entry) : ColumnMap :=
  ⟨columns.entries.map fun entry => if entry.token = token then change entry else entry⟩

/-- The entries whose fields are selected. -/
def selected (columns : ColumnMap) : List Entry :=
  columns.entries.filter (·.isSelected)

end ColumnMap

end FieldQuery
