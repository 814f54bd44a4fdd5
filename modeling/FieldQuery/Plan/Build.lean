import FieldQuery.Plan.Mapping

/-!
# Building a plan

The changes that builder calls make to a plan.  None of them fails: what cannot be done is noted
as an error, and the plan stays as it was otherwise.

Main definitions:

- `Plan.start`: a plan on its primary target.
- `Plan.openJoinOn`, `Plan.addOn`, `Plan.addReferences`, `Plan.addFilter`: joins and conditions.
- `Plan.addField`, `Plan.restrictFields`: what is selected.
-/

namespace FieldQuery

namespace Plan

/-- A plan on its primary target. -/
def start (dialect : Dialect) (catalog : Catalog) (cacheable : Bool) (lazyJoins : List JoinRule)
    (target : Target) : Plan :=
  mapRoot
    { dialect := dialect, catalog := catalog, model := target.toModel.table, cacheable := cacheable
      lazyJoins := lazyJoins }
    target

/-- Puts the open join, if there is one, behind the finished ones. -/
def closeJoin (plan : Plan) : Plan :=
  { plan with joins := plan.allJoins, openJoin := none }

/-- Opens a join with a target. -/
def openJoinOn (plan : Plan) (kind : JoinKind) (target : Target) : Plan :=
  match plan.closeJoin.mapTarget target with
  | (plan, .ok mapped) =>
    { plan with openJoin := some ⟨kind, mapped.source, mapped.correlation, []⟩ }
  | (plan, .error error) => plan.fail error

/-- Adds conditions to the open join. -/
def addOn (plan : Plan) (filters : List Filter) : Plan :=
  match plan.openJoin with
  | some join => { plan with openJoin := some { join with on := join.on ++ filters } }
  | none => plan.fail (.malformedJoin .notOpen)

/-- Joins on the links found when the last target was mapped. -/
def addReferences (plan : Plan) : Plan :=
  match plan.links with
  | [] => plan.fail (.malformedJoin .noReferences)
  | links => { plan with links := [] }.addOn links

/-- Begins the `WHERE` clause. -/
def startWhere (plan : Plan) : Plan :=
  { plan.closeJoin with conditions := some [] }

/-- Adds a condition to the `WHERE` clause; before that is begun, to the open join. -/
def addFilter (plan : Plan) (filter : Filter) : Plan :=
  match plan.conditions, plan.openJoin with
  | some filters, _ => { plan with conditions := some (filters ++ [filter]) }
  | none, some join => { plan with openJoin := some { join with on := join.on ++ [filter] } }
  | none, none => { plan with conditions := some [filter] }

def assign (plan : Plan) (token : Token) (value : BindValue) : Plan :=
  match plan.columns.bareColumn token with
  | .ok column => { plan with assignments := plan.assignments ++ [(column, value)] }
  | .error error => plan.fail error

def orderBy (plan : Plan) (operand : Operand) (direction : String) : Plan :=
  match Direction.parse direction with
  | .error error => plan.fail error
  | .ok direction =>
    if operand.hasField then { plan with order := plan.order ++ [⟨operand, direction⟩] }
    else plan.fail .orderWithoutField

def groupBy (plan : Plan) (token : Token) : Plan :=
  match plan.columns.qualifiedColumn token with
  | .ok column => { plan with grouping := plan.grouping ++ [column] }
  | .error error => plan.fail error

/-- Opens the lazy join of a field, whose expression is selected from then on. -/
def openLazyJoin (plan : Plan) (entry : Entry) (join : JoinSite → LazyJoin) : Plan :=
  let opened := join ⟨entry.quotedTable, entry.quotedColumn, plan.dialect⟩
  let columns := plan.columns.modify entry.token fun entry =>
    { entry with selectTarget := some opened.select, wanted := true }
  -- the clause goes behind the finished joins, which an open one is not among
  let clause : JoinClause :=
    ⟨opened.kind, .named opened.table, opened.correlation, [.verbatim opened.on]⟩
  { plan with columns := columns, joins := plan.joins ++ [clause] }.touch opened.table

/-- Selects one more field. -/
def addField (plan : Plan) (token : Token) : Plan :=
  match plan.columns.locate token with
  | .error error => plan.fail error
  | .ok entry =>
    match entry.selectTarget, entry.lazyJoin with
    | none, some join => plan.openLazyJoin entry join
    -- a lazy join is opened once; asked for again, its expression is selected again
    | target, _ =>
      if entry.column.transient && target.isNone then plan.fail (.transientField entry.column.name)
      else
        { plan with
          columns := plan.columns.modify token fun entry => { entry with wanted := true } }

/-- Selects these fields and no others. -/
def restrictFields (plan : Plan) (tokens : List Token) : Plan :=
  let entries := plan.columns.entries.map fun entry => { entry with wanted := false }
  tokens.foldl addField { plan with columns := ⟨entries⟩ }

end Plan

end FieldQuery
