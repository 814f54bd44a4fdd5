import FieldQuery.Filter

/-!
# Plans

A plan gathers what a query is made of: the tables it reads, the fields it knows, its joins,
conditions, assignments and shape, and the errors met on the way.  Nothing fails while a plan is
being built; the first error comes out when a statement is made from it.

Main definitions:

- `Plan`: the gathered parts.
- `Plan.check`: the first error, or the primary table.
- `Target`: what a plan can read from: a model reference, another plan, or SQL written by hand.
-/

namespace FieldQuery

/-- The order of a term of an `ORDER BY` clause. -/
inductive Direction
  | unstated
  | ascending
  | descending
  deriving DecidableEq, Repr

/-- Reads a direction, in upper or lower case. -/
def Direction.parse (text : String) : Except PlanError Direction :=
  let lowered := text.toList.map Char.toLower
  if lowered = [] then .ok .unstated
  else if lowered = "asc".toList then .ok .ascending
  else if lowered = "desc".toList then .ok .descending
  else .error (.invalidOrderDirection text)

def Direction.sql : Direction → String
  | .unstated => ""
  | .ascending => " ASC"
  | .descending => " DESC"

structure OrderTerm where
  operand : Operand
  direction : Direction
  deriving Repr

/-- What a `FROM` or `JOIN` reads from. -/
inductive Source
  /-- A table, by its quoted name. -/
  | named (quoted : String)
  /-- A query in parentheses, under a quoted alias. -/
  | derived (query : Statement) (correlation : String)
  deriving Repr

def Source.render : Source → Statement
  | .named quoted => .ofText quoted
  | .derived query correlation => .ofText "(" ++ query ++ .ofText (") AS " ++ correlation)

structure JoinClause where
  kind : JoinKind
  source : Source
  /-- The quoted alias of a related table. -/
  correlation : Option String
  on : List Filter

namespace JoinClause

/-- The source and its alias, as they stand in a list of sources. -/
def renderSource (join : JoinClause) : Statement :=
  match join.correlation with
  | none => join.source.render
  | some name => join.source.render ++ .ofText (" AS " ++ name)

/-- The whole clause. -/
def render (columns : ColumnMap) (join : JoinClause) : Except PlanError Statement := do
  let on ← (Filter.and join.on).render columns
  return .ofText (" " ++ join.kind.sql ++ " ") ++ join.renderSource ++ .ofText " ON " ++ on

end JoinClause

/-- The parts of a query. -/
structure Plan where
  dialect : Dialect
  catalog : Catalog
  /-- The table of the models that the plan was started for. -/
  model : Table
  /-- In the order in which they were met. -/
  errors : List PlanError := []
  /-- The primary table, once it is mapped, and its quoted name. -/
  table : Option Table := none
  quotedTable : String := ""
  source : Option Source := none
  columns : ColumnMap := {}
  joins : List JoinClause := []
  /-- The join whose conditions are being given. -/
  openJoin : Option JoinClause := none
  /-- The links found when the last target was mapped. -/
  links : List Filter := []
  /-- The `WHERE` clause, once it is begun. -/
  conditions : Option (List Filter) := none
  assignments : List (String × BindValue) := []
  order : List OrderTerm := []
  grouping : List String := []
  /-- The most rows wanted; zero sets no limit. -/
  limit : Nat := 0
  offset : Nat := 0
  cacheable : Bool
  /-- The quoted names of the tables that the query reads, each once. -/
  touched : List String := []
  lazyJoins : List JoinRule := []

namespace Plan

/-- Adds an error behind those met before. -/
def fail (plan : Plan) (error : PlanError) : Plan :=
  { plan with errors := plan.errors ++ [error] }

/-- The first error; without one, the primary table. -/
def check (plan : Plan) : Except PlanError Table :=
  match plan.errors, plan.table with
  | error :: _, _ => .error error
  | [], some table => .ok table
  | [], none => .error (.mapping .noTable)

/-- Notes a table that the query reads. -/
def touch (plan : Plan) (quoted : String) : Plan :=
  if plan.touched.contains quoted then plan
  else { plan with touched := plan.touched ++ [quoted] }

/-- All joins, the open one last. -/
def allJoins (plan : Plan) : List JoinClause :=
  plan.joins ++ plan.openJoin.toList

/-- The primary table; before it is mapped, that of the models. -/
def tableOrModel (plan : Plan) : Table :=
  plan.table.getD plan.model

end Plan

/-- A reference as a plan sees it: the table, one token per column, and the reference's own token,
by which a relation is found that leads to it. -/
structure ModelTarget where
  table : Table
  own : Option Token
  tokens : List Token
  deriving Repr

/-- A query written by hand that stands for a model's table. -/
structure RawQuery where
  statement : Statement
  /-- The names of the columns that it returns. -/
  columns : List String
  correlation : Option String := none
  /-- Further tables that it reads, by schema and name. -/
  reads : List (Option String × String) := []
  deriving Repr

/-- What a plan can read from. -/
inductive Target
  | model (target : ModelTarget)
  | plan (plan : Plan)
  | raw (target : ModelTarget) (query : RawQuery)

/-- A target as a reference.  A plan's fields are those of its column map, and no relation leads
to it. -/
def Target.toModel : Target → ModelTarget
  | .model target => target
  | .plan p => ⟨p.model, none, p.columns.entries.map (·.token)⟩
  | .raw target _ => target

end FieldQuery
