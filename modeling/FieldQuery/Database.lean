import FieldQuery.Assembly
import FieldQuery.Cache.Basic
import FieldQuery.Executor.Basic

/-!
# Running plans

A database is an executor of SQL with a dialect, a configuration and, if one is attached, a result
cache.  Running a plan makes its statement first; a plan that has none reaches neither the executor
nor the cache.

Main definitions:

- `Config`, `Database`: the parts, and everything reported so far.
- `Database.select`, `Database.count`, `Database.write`: running a plan.
-/

namespace FieldQuery

/-- What stays the same for all plans. -/
structure Config where
  dialect : Dialect := .postgres
  catalog : Catalog
  /-- Whether reads go through the cache, if there is one. -/
  caching : Bool := true
  sqlLog : Option SqlLogger := none

/-- An executor with its cache. -/
structure Database (σ β : Type) where
  config : Config
  executor : σ
  cache : Option (Cache.QueryCache β) := none
  /-- Everything reported so far, in order. -/
  events : List Event := []

namespace Database

variable {σ β : Type}

def report (db : Database σ β) (events : List Event) : Database σ β :=
  { db with events := db.events ++ events }

/-- Reports a statement that is about to be carried out. -/
def logSql (db : Database σ β) (kind sql : String) (arguments : Nat) : Database σ β :=
  match db.config.sqlLog with
  | some logger => db.report [logger.event kind sql arguments]
  | none => db

/-- A query on its primary target, with lazy joins for some columns. -/
def query (db : Database σ β) (target : Target) (lazyJoins : List JoinRule) : Query :=
  .start db.config.dialect db.config.catalog (db.config.caching && db.cache.isSome) lazyJoins target

/-- Removes cached reads of tables. -/
def invalidate (db : Database σ β) (tables : List String) : Database σ β :=
  match db.cache with
  | some cache =>
    let (cache, events) := cache.dropEntries true tables
    { db with cache := some cache }.report events
  | none => db

/-- Stores the rows of a read. -/
def remember (db : Database σ β) (tables : List String) (key : String) (records : List Record) :
    Database σ β :=
  match db.cache with
  | some cache =>
    let (cache, events) := cache.set true tables key records
    { db with cache := some cache }.report events
  | none => db

/-- The runtime ends, and another one takes its place. -/
def restart (db : Database σ β) : Database σ β :=
  { db with cache := db.cache.map (·.restart) }

section Cached

variable [Cache.Backend β]

/-- The models of the rows stored under a key, if they can be read. -/
def lookUp (db : Database σ β) (plan : Plan) (key : String) :
    Option (List Json) × Database σ β :=
  match db.cache with
  | none => (none, db)
  | some cache =>
    let (records, cache, events) := cache.get key
    let db := { db with cache := some cache }.report events
    match records.map plan.decode with
    | none => (none, db)
    | some (.ok models) => (some models, db)
    -- rows that are stored but make no models are read anew
    | some (.error error) => (none, db.report [.undecodable key error.message])

/-- Waits until the cache's worker has carried out everything queued. -/
def settle (db : Database σ β) : Database σ β :=
  match db.cache with
  | some cache =>
    let (cache, events) := cache.settle
    { db with cache := some cache }.report events
  | none => db

end Cached

variable [Executor σ]

/-- Reads rows from the executor; with a key they are stored in the cache. -/
def fetch (db : Database σ β) (plan : Plan) (sql : String) (arguments : List BindValue)
    (key : Option String) : Except QueryError (List Json) × Database σ β :=
  let db := db.logSql "select" sql arguments.length
  let (rows, executor) := Executor.select sql arguments db.executor
  let db := { db with executor := executor }
  match rows with
  | .error error => (.error error, db)
  | .ok records =>
    -- rows are stored as they came, whether or not they can be decoded
    match key with
    | none => (plan.decode records, db)
    | some key => (plan.decode records, db.remember plan.touched key records)

/-- The models of a plan, from the cache where it holds them. -/
def select [Cache.Backend β] (db : Database σ β) (plan : Plan) :
    Except QueryError (List Json) × Database σ β :=
  match plan.selectStatement with
  | .error error => (.error (.plan error), db)
  | .ok statement =>
    let sql := statement.sql plan.dialect
    let arguments := statement.arguments
    if db.cache.isSome && plan.cacheable then
      let key := Cache.cacheKey sql arguments
      match db.lookUp plan key with
      | (some models, db) => (.ok models, db)
      | (none, db) => db.fetch plan sql arguments (some key)
    else db.fetch plan sql arguments none

/-- Adds the models of a plan to others; those stay as they are when the plan fails. -/
def selectInto [Cache.Backend β] (db : Database σ β) (plan : Plan) (out : List Json) :
    Except QueryError Unit × List Json × Database σ β :=
  match db.select plan with
  | (.ok models, db) => (.ok (), out ++ models, db)
  | (.error error, db) => (.error error, out, db)

/-- The number of rows of a plan. -/
def count (db : Database σ β) (plan : Plan) : Except QueryError Int × Database σ β :=
  match plan.countStatement with
  | .error error => (.error (.plan error), db)
  | .ok statement =>
    let sql := statement.sql plan.dialect
    let db := db.logSql "count" sql statement.arguments.length
    let (result, executor) := Executor.scalar sql statement.arguments db.executor
    (result, { db with executor := executor })

/-- The actions that change a table. -/
inductive Write
  | insert
  | update
  | delete
  | truncate
  deriving DecidableEq, Repr

def Write.action : Write → Action
  | .insert => .insert
  | .update => .update
  | .delete => .delete
  | .truncate => .truncate

def Write.kind : Write → String
  | .insert => "insert"
  | .update => "update"
  | .delete => "delete"
  | .truncate => "truncate"

/-- Carries out a change and removes the cached reads of the primary table; the result is the
number of rows that changed. -/
def write (db : Database σ β) (plan : Plan) (change : Write) :
    Except QueryError Nat × Database σ β :=
  match plan.statement change.action with
  | .error error => (.error (.plan error), db)
  | .ok statement =>
    let sql := statement.sql plan.dialect
    let db := db.logSql change.kind sql statement.arguments.length
    let (result, executor) := Executor.execute sql statement.arguments db.executor
    let db := { db with executor := executor }
    match result with
    | .error error => (.error error, db)
    | .ok affected => (.ok affected, db.invalidate [plan.quotedTable])

end Database

end FieldQuery
