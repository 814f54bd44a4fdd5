import FieldQuery.Plan.Compile

/-!
# Mapping a target

Mapping enters the columns of a target in a plan's column map.  The first target of a plan becomes
its primary table; a reference that a mapped relation leads to is aliased by the relation's prefix,
and its linked columns become conditions; any other target can be addressed but is never selected.
A plan is taken over with its column map, as a derived table; the columns of a query written by
hand are found by their names.

Main definitions:

- `Plan.mapTarget`: the plan with the target's columns, and what the target is read from.
- `Plan.mapRoot`: maps the primary target.
-/

namespace FieldQuery

/-- What a mapped target is read from. -/
structure MappedTarget where
  table : Table
  /-- The quoted name of the table, or the alias of a derived one. -/
  quotedTable : String
  source : Source
  /-- The quoted alias of a related table. -/
  correlation : Option String := none

/-- The stem of targets that can be addressed but not selected. -/
def detachedStem : String := "-"

/-- An alias without the underscore that ends it. -/
def trimStem (stem : String) : String :=
  match stem.toList.reverse with
  | '_' :: rest => String.ofList rest.reverse
  | _ => stem

/-- What a target's columns are mapped under. -/
structure MappingScope where
  dialect : Dialect
  catalog : Catalog
  table : Table
  stem : String
  /-- The relation that leads to the target. -/
  parent : Option Entry
  lazyJoins : List JoinRule

namespace MappingScope

/-- Whether the columns are those of a related table: neither the primary one nor detached. -/
def isRelated (scope : MappingScope) : Bool :=
  !scope.stem.isEmpty && scope.stem != detachedStem

/-- The name that the target's columns are qualified by. -/
def quotedTable (scope : MappingScope) : String :=
  if scope.isRelated then scope.dialect.quote (trimStem scope.stem)
  else scope.dialect.quotedTable scope.table.schema scope.table.name

def basePath (scope : MappingScope) : List PathStep :=
  match scope.parent with
  | some parent => parent.path
  | none => []

/-- Whether a related column may be the other end of one that is mapped already. -/
def mayLink (scope : MappingScope) (column : Column) : Bool :=
  scope.isRelated &&
    (!column.referencedBy.isEmpty ||
      match scope.parent.bind (·.column.relation) with
      | some relation => relation.linksColumn column.name
      | none => false)

/-- The entry of a column. -/
def entry (scope : MappingScope) (column : Column) (token : Token) : Entry :=
  let lazyJoin :=
    (scope.lazyJoins.find? fun rule => rule.table == scope.table.name && rule.column == column.name)
      |>.map (·.join)
  let stem :=
    match column.relation with
    | some relation => scope.stem ++ relation.joinPrefix
    | none => scope.stem
  let label :=
    match column.relation with
    | some _ => trimStem stem
    | none => if scope.stem == detachedStem then column.name else scope.stem ++ column.name
  let step : PathStep :=
    match column.relation with
    | some relation =>
      { field := column.field
        many := relation.isMany
        default := some (scope.catalog.table relation.target).default }
    | none => .plain column.field
  { token := token
    table := scope.table
    column := column
    label := label
    stem := stem
    quotedTable := scope.quotedTable
    quotedColumn := scope.dialect.quote column.name
    lazyJoin := lazyJoin
    wanted := !column.transient && scope.stem != detachedStem && lazyJoin.isNone
    parent := scope.parent.map (·.token)
    path := scope.basePath ++ [step] }

/-- Maps one column.  A related column whose token stands for a mapped one is the other end of the
relation: it becomes a condition, and its field expects the same value. -/
def mapColumn (scope : MappingScope) (mapped : ColumnMap × List Filter) (column : Column)
    (token : Token) : ColumnMap × List Filter :=
  let (columns, links) := mapped
  match scope.mayLink column, columns.queryable token with
  | true, .ok existing =>
    let link := Filter.link existing.quotedTable existing.quotedColumn scope.quotedTable
      (scope.dialect.quote column.name)
    (columns.modify token (·.addCopy (scope.basePath ++ [.plain column.field])), links ++ [link])
  | _, _ => (columns.push (scope.entry column token), links)

/-- Maps columns with their tokens, in order. -/
def mapColumns (scope : MappingScope) :
    List (Column × Token) → ColumnMap × List Filter → ColumnMap × List Filter
  | [], mapped => mapped
  | (column, token) :: rest, mapped => mapColumns scope rest (scope.mapColumn mapped column token)

end MappingScope

/-- A reference must have one token per column. -/
def ModelTarget.checkTokens (target : ModelTarget) : Except PlanError Unit :=
  if target.tokens.length = target.table.columns.length then .ok ()
  else .error (.mapping (.fieldCount target.table.name target.tokens.length
    target.table.columns.length))

namespace Plan

/-- Whether no primary table is mapped yet. -/
def isBare (plan : Plan) : Bool :=
  plan.table.isNone

/-- Maps a model reference. -/
def mapModel (plan : Plan) (target : ModelTarget) : Plan × Except PlanError MappedTarget :=
  let table := target.table
  let parent := target.own.bind plan.columns.relation?
  let stem :=
    match parent with
    | some parent => parent.stem
    | none => if plan.isBare then "" else detachedStem
  let quoted := plan.dialect.quotedTable table.schema table.name
  -- the table counts as read from here on, whatever becomes of the mapping
  let plan := { plan.touch quoted with links := [] }
  match target.checkTokens with
  | .error error => (plan, .error error)
  | .ok () =>
    let scope : MappingScope := ⟨plan.dialect, plan.catalog, table, stem, parent, plan.lazyJoins⟩
    let (columns, links) := scope.mapColumns (table.columns.zip target.tokens) (plan.columns, [])
    let plan := { plan with columns := columns, links := links }
    if table.columns.any (!·.transient) then
      let correlation := parent.map fun _ => plan.dialect.quote (trimStem stem)
      (plan, .ok ⟨table, quoted, .named quoted, correlation⟩)
    else (plan, .error (.mapping (.nothingQueryable table.name)))

/-- An entry of a plan as it is seen from outside of the derived table that the plan becomes: a
selected field is known by its alias there, and can only be selected again from a primary table. -/
def importEntry (dialect : Dialect) (source : String) (asRoot : Bool) (entry : Entry) : Entry :=
  { entry with
    quotedColumn := if entry.isSelected then dialect.quote entry.label else entry.quotedColumn
    quotedTable := source
    selectTarget := none
    lazyJoin := none
    wanted := entry.wanted && asRoot }

/-- Maps a plan, whose errors are taken over. -/
def mapPlan (plan sub : Plan) : Plan × MappedTarget :=
  let plan := { plan with errors := plan.errors ++ sub.errors }
  -- a plan with errors has no statement either, and its first error is noted once more
  let (plan, query) :=
    match sub.selectStatement with
    | .ok query => (plan, query)
    | .error error => (plan.fail error, Statement.empty)
  let name := sub.quotedTable
  let imported := sub.columns.entries.map (importEntry plan.dialect name plan.isBare)
  let plan := sub.touched.foldl touch { plan with columns := imported.foldl .push plan.columns }
  ({ plan with links := [] }, ⟨sub.tableOrModel, name, .derived query name, none⟩)

/-- The entry of a column that a query written by hand returns. -/
def rawEntry (dialect : Dialect) (table : Table) (source : String) (asRoot : Bool)
    (column : Column) (token : Token) : Entry :=
  { token := token
    table := table
    column := column
    label := column.name
    stem := if asRoot then "" else detachedStem
    quotedTable := source
    quotedColumn := dialect.quote column.name
    wanted := asRoot
    parent := none
    path := [.plain column.field] }

/-- Maps a query written by hand. -/
def mapRaw (plan : Plan) (target : ModelTarget) (raw : RawQuery) :
    Plan × Except PlanError MappedTarget :=
  let table := target.table
  match target.checkTokens with
  | .error error => (plan, .error error)
  | .ok () =>
    let name := plan.dialect.quote (raw.correlation.getD table.name)
    let returned := (table.columns.zip target.tokens).filter fun (column, _) =>
      !column.transient && raw.columns.contains column.name
    let entries := returned.map fun (column, token) =>
      rawEntry plan.dialect table name plan.isBare column token
    let plan := { plan with columns := entries.foldl .push plan.columns }
    -- the query reads the table that it stands for, and what it is said to read besides
    if returned.isEmpty then (plan, .error (.mapping (.nothingReturned table.name)))
    else
      let reads := (table.schema, table.name) :: raw.reads
      let plan := reads.foldl (fun plan (schema, name) =>
        plan.touch (plan.dialect.quotedTable schema name)) plan
      ({ plan with links := [] }, .ok ⟨table, name, .derived raw.statement name, none⟩)

/-- Maps a target. -/
def mapTarget (plan : Plan) : Target → Plan × Except PlanError MappedTarget
  | .model target => plan.mapModel target
  | .plan sub =>
    let (plan, mapped) := plan.mapPlan sub
    (plan, .ok mapped)
  | .raw target query => plan.mapRaw target query

/-- Maps the primary target. -/
def mapRoot (plan : Plan) (target : Target) : Plan :=
  match plan.mapTarget target with
  | (plan, .ok mapped) =>
    { plan with
      table := some mapped.table, quotedTable := mapped.quotedTable, source := some mapped.source }
  | (plan, .error error) => plan.fail error

end Plan

end FieldQuery
