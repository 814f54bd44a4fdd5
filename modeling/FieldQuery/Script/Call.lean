import FieldQuery.Script.Dialect
import FieldQuery.Script.Filter

/-!
# Calls in scripts

A builder call is written as a list of a word and what the word needs.

Main definitions:

- `readTarget`: reads what a query reads from.
- `callKind?`: the words, by which a stage refuses a call before it is read any further.
- `readCall`: reads a call.
-/

namespace FieldQuery.Script

/-! ## Targets -/

/-- Reads the schema and the name of a table. -/
def readTableName? : Json → Option (Option String × String)
  | .arr [.null, .str table] => some (none, table)
  | .arr [.str schema, .str table] => some (some schema, table)
  | _ => none

/-- Reads a query written by hand. -/
def readRawQuery? (j : Json) : Option RawQuery := do
  return {
    statement := ← readStatement? (← j.required? "sql" Json.items?)
    columns := ← j.required? "columns" Json.texts?
    correlation := ← j.optional? "alias" Json.text?
    reads := ← j.member? "reads" (fun r => do (← r.items?).mapM readTableName?) [] }

/-- A target whose tokens are cut, or filled up with fresh ones, to a number. -/
def withTokens (target : ModelTarget) (count : Nat) : Scoped ModelTarget := do
  let more ← freshTokens (count - target.tokens.length)
  return { target with tokens := target.tokens.take count ++ more }

/-- Reads a target: a path, an earlier query, a query written by hand for the table of another
target, or another target with a number of tokens. -/
def readTarget : Json → Scoped Target
  | .str path => return .model (← pathTarget path)
  | .obj [("plan", .str name)] => return .plan (← queryNamed name).plan
  | .obj [("count", count), ("lopsided", inner)] => do
    let inner ← readTarget inner
    return .model (← withTokens inner.toModel (← given count.nat?))
  | .obj members =>
    match h : Json.Members.get? "raw" members with
    | none => refused
    | some inner => do
      have := Json.Members.sizeOf_get? h
      let inner ← readTarget inner
      return .raw inner.toModel (← given (readRawQuery? (.obj members)))
  | _ => refused

/-! ## Calls -/

/-- The kind of call that a word stands for. -/
def callKind? : String → Option CallKind
  | "join" | "left_join" => some .join
  | "where" => some .startWhere
  | "on" => some .on
  | "references" => some .references
  | "filter" | "eq" | "ne" | "lt" | "le" | "gt" | "ge" | "like" | "null" | "not_null" | "true"
  | "false" | "in" | "in_sub" => some .filter
  | "order_by" | "discard_order_by" | "group_by" | "limit" | "discard_limit" | "offset"
  | "discard_offset" | "fields" | "add_field" => some .shape
  | "without_cache" => some .withoutCache
  | "assign" => some .assign
  | _ => none

/-- Reads a call; a filter by itself is the call that adds it. -/
def readCall : Json → Scoped Call
  | .arr [.str "join", target] => return .join .inner (← readTarget target)
  | .arr [.str "left_join", target] => return .join .leftOuter (← readTarget target)
  | .arr [.str "where"] => return .startWhere
  | .arr [.str "on", .arr filters] => return .on (← readFilters filters)
  | .arr [.str "references"] => return .references
  | .arr [.str "filter", .arr filters] => return .filter (← readFilters filters)
  | .arr [.str "order_by", operand, .str direction] =>
    return .orderBy (← readOperand operand) direction
  | .arr [.str "discard_order_by"] => return .discardOrder
  | .arr [.str "group_by", path] => return .groupBy (← readField path)
  | .arr [.str "limit", count] => return .limit (← given count.nat?)
  | .arr [.str "discard_limit"] => return .limit 0
  | .arr [.str "offset", count] => return .offset (← given count.nat?)
  | .arr [.str "discard_offset"] => return .offset 0
  | .arr [.str "fields", .arr paths] => return .fields (← paths.mapM readField)
  | .arr [.str "add_field", path] => return .addField (← readField path)
  | .arr [.str "without_cache"] => return .withoutCache
  | .arr [.str "assign", path, value] => do
    let token ← readField path
    return .assign token (← given (readValue? value))
  | filter => return .filter [← readFilter filter]

/-! ## Lazy joins -/

/-- Reads a lazy join; its SQL names table and column of its site by marks. -/
def readJoinRule? (j : Json) : Option JoinRule := do
  let table ← j.required? "table" Json.text?
  let column ← j.required? "column" Json.text?
  let kind := if (j.get? "kind").bind Json.text? = some "left" then JoinKind.leftOuter else .inner
  let joinTable ← j.required? "join_table" Json.text?
  let correlation ← j.optional? "alias" Json.text?
  let on ← j.required? "on" Json.text?
  let select ← j.required? "select" Json.text?
  return {
    table := table
    column := column
    join := fun site =>
      let atSite (sql : String) :=
        fillIn "\x7bc\x7d" site.quotedColumn (fillIn "\x7bt\x7d" site.quotedTable sql)
      { kind := kind
        table := site.dialect.quote joinTable
        correlation := correlation.map site.dialect.quote
        on := atSite on
        select := atSite select } }

end FieldQuery.Script
