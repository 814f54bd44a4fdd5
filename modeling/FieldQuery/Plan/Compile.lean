import FieldQuery.Plan.Basic

/-!
# Statements of a plan

The clauses of a statement stand in a fixed order, and the values are bound in the order in which
their marks are written.

Main definitions:

- `Action`: what a plan can be run for.
- `Plan.statement`: the statement for an action.
-/

namespace FieldQuery

/-- What a plan can be run for. -/
inductive Action
  | select
  | count
  | insert
  | update
  | delete
  | truncate
  deriving DecidableEq, Repr

namespace Plan

/-- The largest number that is bound for a limit or an offset. -/
def rowLimit : Nat := Nat.pow 2 63 - 1

/-- A number of rows, if it is not zero. -/
def rowCount (n : Nat) : Option BindValue :=
  if n = 0 then none else some (.int (min n rowLimit : Nat))

/-- A limit clause around its bound number: the mark's place is the first question mark, or the end
where there is none. -/
def limitStatement (clause : String) (limit : BindValue) : Statement :=
  let front := clause.toList.takeWhile (· ≠ '?')
  let back := (clause.toList.dropWhile (· ≠ '?')).drop 1
  .ofText (String.ofList front) ++ .ofValue limit ++ .ofText (String.ofList back)

/-- Limit and offset: a dialect's own limit clause stands in front of the offset, the standard's
behind it. -/
def paging (plan : Plan) : Statement :=
  let limit := rowCount plan.limit
  let offset := rowCount plan.offset
  match plan.dialect.limitClause "?" with
  | some clause =>
    let front : Statement :=
      match limit, offset with
      | some limit, _ => .ofText " " ++ limitStatement clause limit
      -- some systems take no offset without a limit
      | none, some _ =>
        match plan.dialect.unboundedLimit with
        | some unbounded => .ofText (" " ++ unbounded)
        | none => .empty
      | none, none => .empty
    match offset with
    | some offset => front ++ .ofText " OFFSET " ++ .ofValue offset
    | none => front
  | none =>
    let front : Statement :=
      match offset with
      | some offset => .ofText " OFFSET " ++ .ofValue offset ++ .ofText " ROWS"
      | none => .empty
    match limit with
    | some limit => front ++ .ofText " FETCH NEXT (" ++ .ofValue limit ++ .ofText ") ROWS ONLY"
    | none => front

/-- The clauses of joins, one behind the other. -/
def joinClauses (columns : ColumnMap) : List JoinClause → Except PlanError Statement
  | [] => .ok .empty
  | join :: rest => do
    let written ← join.render columns
    return written ++ (← joinClauses columns rest)

/-- The terms of an `ORDER BY` clause. -/
def orderTerms (columns : ColumnMap) : List OrderTerm → Except PlanError (List Statement)
  | [] => .ok []
  | term :: rest => do
    let written ← term.operand.render columns
    return (written ++ .ofText term.direction.sql) :: (← orderTerms columns rest)

/-- The `WHERE` clause of conditions that must all hold; none at all need no clause. -/
def whereClause (columns : ColumnMap) : List Filter → Except PlanError Statement
  | [] => .ok .empty
  | filters => (Filter.and filters).render columns |>.map (.ofText " WHERE " ++ ·)

def fromClause (plan : Plan) : Statement :=
  match plan.source with
  | some source => .ofText " FROM " ++ source.render
  | none => .empty

def groupClause (plan : Plan) : Statement :=
  match plan.grouping with
  | [] => .empty
  | columns => .ofText (" GROUP BY " ++ ", ".intercalate columns)

def orderClause (plan : Plan) : Except PlanError Statement :=
  match plan.order with
  | [] => .ok .empty
  | terms =>
    (orderTerms plan.columns terms).map fun terms => .ofText " ORDER BY " ++ .join ", " terms

/-- `FROM`, joins, `WHERE`, `GROUP BY`, `ORDER BY` and paging. -/
def queryClauses (plan : Plan) : Except PlanError Statement := do
  let joins ← joinClauses plan.columns plan.allJoins
  let conditions ← whereClause plan.columns (plan.conditions.getD [])
  let order ← plan.orderClause
  return plan.fromClause ++ joins ++ conditions ++ plan.groupClause ++ order ++ plan.paging

/-- One item of a select list. -/
def selectItem (dialect : Dialect) (entry : Entry) : String :=
  entry.selectExpr ++ " AS " ++ dialect.quote entry.label

def selectStatement (plan : Plan) : Except PlanError Statement := do
  let _ ← plan.check
  match plan.columns.selected with
  | [] => throw (.mapping .nothingSelected)
  | entries =>
    let items := entries.map (selectItem plan.dialect)
    return .ofText ("SELECT " ++ ", ".intercalate items) ++ (← plan.queryClauses)

def countStatement (plan : Plan) : Except PlanError Statement := do
  let _ ← plan.check
  return .ofText "SELECT count(*)" ++ (← plan.queryClauses)

def insertStatement (plan : Plan) : Except PlanError Statement := do
  let _ ← plan.check
  match plan.assignments with
  | [] => throw (.noAssignments "INSERT")
  | assignments =>
    let columns := ", ".intercalate (assignments.map (·.1))
    return .ofText ("INSERT INTO " ++ plan.quotedTable ++ " (" ++ columns ++ ") VALUES (") ++
      .ofValues (assignments.map (·.2)) ++ .ofText ")"

/-- The sources of all joins as a list behind a keyword. -/
def joinSources (plan : Plan) (keyword : String) : Statement :=
  match plan.allJoins with
  | [] => .empty
  | joins => .ofText keyword ++ .join ", " (joins.map (·.renderSource))

/-- The `WHERE` clause with the conditions of all joins behind its own. -/
def foldedWhere (plan : Plan) : Except PlanError Statement :=
  whereClause plan.columns (plan.conditions.getD [] ++ plan.allJoins.flatMap (·.on))

def updateStatement (plan : Plan) : Except PlanError Statement := do
  let _ ← plan.check
  match plan.assignments with
  | [] => throw (.noAssignments "UPDATE")
  | assignments =>
    let items := assignments.map fun (column, value) => .ofText (column ++ "=") ++ .ofValue value
    return .ofText ("UPDATE " ++ plan.quotedTable ++ " SET ") ++ .join ", " items ++
      plan.joinSources " FROM " ++ (← plan.foldedWhere)

def deleteStatement (plan : Plan) : Except PlanError Statement := do
  let _ ← plan.check
  return .ofText ("DELETE FROM " ++ plan.quotedTable) ++ plan.joinSources " USING " ++
    (← plan.foldedWhere)

def truncateStatement (plan : Plan) : Except PlanError Statement := do
  let _ ← plan.check
  return .ofText ("TRUNCATE TABLE " ++ plan.quotedTable)

/-- The statement of a plan for an action. -/
def statement (plan : Plan) : Action → Except PlanError Statement
  | .select => plan.selectStatement
  | .count => plan.countStatement
  | .insert => plan.insertStatement
  | .update => plan.updateStatement
  | .delete => plan.deleteStatement
  | .truncate => plan.truncateStatement

end Plan

/-- Membership in the rows of a plan; a plan that has no select statement makes no condition. -/
def Filter.inPlan (operand : Operand) (plan : Plan) : Filter :=
  match plan.errors, plan.selectStatement with
  | error :: _, _ => .invalid error
  | [], .error error => .invalid error
  | [], .ok query => .inQuery operand query

end FieldQuery
