import FieldQuery.Database
import Mathlib

/-!
# Requests that reach the executor

A plan that has a statement is run in single steps: a read looks into the cache, asks the executor
and stores the rows; a change is carried out and then invalidates cached reads.  The steps are
definitions of their own here, so that other clients can come between them.

Main definitions:

- `Read`, `Change`: plans with their statements.
- `Database.ask`, `Database.carryOut`: what the executor does.

Main statements: `Database.select_eq`, `Database.select_uncached` and `Database.write_eq` put the
steps together.
-/

namespace FieldQuery

/-- A plan with the statement that reads its models. -/
structure Read where
  plan : Plan
  statement : Statement
  compiles : plan.selectStatement = .ok statement

/-- A plan with a statement that changes its primary table. -/
structure Change where
  plan : Plan
  kind : Database.Write
  statement : Statement
  compiles : plan.statement kind.action = .ok statement

namespace Read

variable {σ : Type} [Executor σ]

def sql (read : Read) : String :=
  read.statement.sql read.plan.dialect

def arguments (read : Read) : List BindValue :=
  read.statement.arguments

def key (read : Read) : String :=
  Cache.cacheKey read.sql read.arguments

/-- The rows that the executor has for a read. -/
def rows (read : Read) (executor : σ) : Except QueryError (List Record) :=
  (Executor.select read.sql read.arguments executor).1

/-- The executor behind a read. -/
def after (read : Read) (executor : σ) : σ :=
  (Executor.select read.sql read.arguments executor).2

/-- The models that the executor has for a read. -/
def answer (read : Read) (executor : σ) : Except QueryError (List Json) :=
  read.rows executor >>= read.plan.decode

/-- The models of rows that may have been found. -/
def models? (read : Read) (found : Option (List Record)) : Option (List Json) :=
  found.bind fun records => (read.plan.decode records).toOption

end Read

namespace Change

variable {σ : Type} [Executor σ]

def sql (change : Change) : String :=
  change.statement.sql change.plan.dialect

def arguments (change : Change) : List BindValue :=
  change.statement.arguments

/-- The quoted name of the table that is changed. -/
def table (change : Change) : String :=
  change.plan.quotedTable

/-- The number of rows that a change finds. -/
def affected (change : Change) (executor : σ) : Except QueryError Nat :=
  (Executor.execute change.sql change.arguments executor).1

/-- The executor behind a change. -/
def after (change : Change) (executor : σ) : σ :=
  (Executor.execute change.sql change.arguments executor).2

end Change

namespace Database

variable {σ β : Type}

/-! ## What the steps leave alone -/

theorem executor_logSql (db : Database σ β) (kind sql : String) (arguments : Nat) :
    (db.logSql kind sql arguments).executor = db.executor := by
  unfold logSql
  split
  · rfl
  · rfl

theorem cache_logSql (db : Database σ β) (kind sql : String) (arguments : Nat) :
    (db.logSql kind sql arguments).cache = db.cache := by
  unfold logSql
  split
  · rfl
  · rfl

theorem executor_remember (db : Database σ β) (tables : List String) (key : String)
    (records : List Record) : (db.remember tables key records).executor = db.executor := by
  unfold remember
  split
  · rfl
  · rfl

theorem cache_remember {db : Database σ β} {cache : Cache.QueryCache β} (h : db.cache = some cache)
    (tables : List String) (key : String) (records : List Record) :
    (db.remember tables key records).cache = some (cache.set true tables key records).1 := by
  unfold remember
  rw [h]
  rfl

theorem executor_invalidate (db : Database σ β) (tables : List String) :
    (db.invalidate tables).executor = db.executor := by
  unfold invalidate
  split
  · rfl
  · rfl

theorem cache_invalidate {db : Database σ β} {cache : Cache.QueryCache β}
    (h : db.cache = some cache) (tables : List String) :
    (db.invalidate tables).cache = some (cache.dropEntries true tables).1 := by
  unfold invalidate
  rw [h]
  rfl

section Cached

variable [Cache.Backend β]

theorem executor_settle (db : Database σ β) : db.settle.executor = db.executor := by
  unfold settle
  split
  · rfl
  · rfl

theorem cache_settle {db : Database σ β} {cache : Cache.QueryCache β} (h : db.cache = some cache) :
    db.settle.cache = some cache.settle.1 := by
  unfold settle
  rw [h]
  rfl

/-- Looking up finds the models of the rows that the cache reads. -/
theorem lookUp_fst {db : Database σ β} {cache : Cache.QueryCache β} (h : db.cache = some cache)
    (read : Read) (key : String) :
    (db.lookUp read.plan key).1 = read.models? (cache.get key).1 := by
  unfold lookUp Read.models?
  rw [h]
  cases hfound : (cache.get key).1 with
  | none => simp [hfound]
  | some records =>
      cases hmodels : read.plan.decode records with
      | error error => simp [hfound, hmodels, Except.toOption]
      | ok models => simp [hfound, hmodels, Except.toOption]

theorem executor_lookUp (db : Database σ β) (plan : Plan) (key : String) :
    (db.lookUp plan key).2.executor = db.executor := by
  unfold lookUp
  split
  · rfl
  · dsimp only
    split
    · rfl
    · rfl
    · rfl

theorem cache_lookUp {db : Database σ β} {cache : Cache.QueryCache β} (h : db.cache = some cache)
    (plan : Plan) (key : String) :
    (db.lookUp plan key).2.cache = some (cache.get key).2.1 := by
  unfold lookUp
  rw [h]
  dsimp only
  split
  · rfl
  · rfl
  · rfl

end Cached

/-! ## Asking the executor -/

variable [Executor σ]

/-- Asks the executor for the rows of a read. -/
def ask (db : Database σ β) (read : Read) : Except QueryError (List Record) × Database σ β :=
  (read.rows db.executor,
    { db.logSql "select" read.sql read.arguments.length with executor := read.after db.executor })

/-- Has the executor carry out a change. -/
def carryOut (db : Database σ β) (change : Change) : Except QueryError Nat × Database σ β :=
  (change.affected db.executor,
    { db.logSql change.kind.kind change.sql change.arguments.length with
      executor := change.after db.executor })

theorem cache_ask (db : Database σ β) (read : Read) : (db.ask read).2.cache = db.cache :=
  cache_logSql ..

theorem cache_carryOut (db : Database σ β) (change : Change) :
    (db.carryOut change).2.cache = db.cache :=
  cache_logSql ..

/-! ## Putting the steps together -/

section Cached

variable [Cache.Backend β]

/-- A cached read looks up, asks where it finds nothing, and stores what it is given. -/
theorem select_eq {db : Database σ β} {read : Read}
    (h : (db.cache.isSome && read.plan.cacheable) = true) :
    db.select read.plan =
      match db.lookUp read.plan read.key with
      | (some models, db) => (.ok models, db)
      | (none, db) =>
        match db.ask read with
        | (.error error, db) => (.error error, db)
        | (.ok records, db) =>
          (read.plan.decode records, db.remember read.plan.touched read.key records) := by
  have hselect : db.select read.plan =
      match db.lookUp read.plan read.key with
      | (some models, db) => (.ok models, db)
      | (none, db) => db.fetch read.plan read.sql read.arguments (some read.key) := by
    unfold select
    rw [read.compiles]
    exact if_pos h
  rw [hselect]
  rcases db.lookUp read.plan read.key with ⟨found, behind⟩
  cases found with
  | some models => rfl
  | none =>
      unfold fetch ask Read.rows Read.after
      dsimp only
      rw [executor_logSql]
      rcases Executor.select read.sql read.arguments behind.executor with ⟨rows, executor⟩
      cases rows with
      | error error => rfl
      | ok records => rfl

/-- A cached read is answered with what it finds, and by the executor where it finds nothing. -/
theorem select_fst {db : Database σ β} {cache : Cache.QueryCache β} {read : Read}
    (hcache : db.cache = some cache) (hcacheable : read.plan.cacheable = true) :
    (db.select read.plan).1 =
      match read.models? (cache.get read.key).1 with
      | some models => .ok models
      | none => read.answer db.executor := by
  rw [select_eq (by rw [hcache, hcacheable]; rfl), ← lookUp_fst hcache read read.key]
  have hexecutor := executor_lookUp db read.plan read.key
  generalize db.lookUp read.plan read.key = looked at hexecutor ⊢
  rcases looked with ⟨found, behind⟩
  cases found with
  | some models => rfl
  | none =>
      unfold ask Read.answer
      dsimp only at hexecutor ⊢
      rw [hexecutor]
      cases read.rows db.executor with
      | error error => rfl
      | ok records => rfl

/-- A read that is not cached is answered by the executor. -/
theorem select_uncached {db : Database σ β} {read : Read}
    (h : (db.cache.isSome && read.plan.cacheable) = false) :
    db.select read.plan = (read.answer db.executor, (db.ask read).2) := by
  have hselect : db.select read.plan = db.fetch read.plan read.sql read.arguments none := by
    unfold select
    rw [read.compiles]
    exact if_neg (by rw [h]; exact Bool.false_ne_true)
  rw [hselect]
  unfold fetch ask Read.answer Read.rows Read.after
  dsimp only
  rw [executor_logSql]
  rcases Executor.select read.sql read.arguments db.executor with ⟨rows, executor⟩
  cases rows with
  | error error => rfl
  | ok records => rfl

/-- Behind a cached read the executor was not asked, or was asked and failed, or its rows are
stored. -/
theorem select_snd_cached {db : Database σ β} {cache : Cache.QueryCache β} {read : Read}
    (hcache : db.cache = some cache) (hcacheable : read.plan.cacheable = true) :
    let behind := (db.select read.plan).2
    let looked := (cache.get read.key).2.1
    ((behind.executor = db.executor ∨ behind.executor = read.after db.executor) ∧
        behind.cache = some looked) ∨
      ∃ records, read.rows db.executor = .ok records ∧
        behind.executor = read.after db.executor ∧
        behind.cache = some (looked.set true read.plan.touched read.key records).1 := by
  rw [select_eq (by rw [hcache, hcacheable]; rfl)]
  have hexecutor := executor_lookUp db read.plan read.key
  have hlooked := cache_lookUp hcache read.plan read.key
  generalize db.lookUp read.plan read.key = looked at hexecutor hlooked ⊢
  rcases looked with ⟨found, behind⟩
  dsimp only at hexecutor hlooked ⊢
  cases found with
  | some models => exact .inl ⟨.inl hexecutor, hlooked⟩
  | none =>
      have hasked : (behind.ask read).2.cache = some (cache.get read.key).2.1 := by
        rw [cache_ask, hlooked]
      have hafter : (behind.ask read).2.executor = read.after db.executor := by
        rw [← hexecutor]
        rfl
      have hrows : (behind.ask read).1 = read.rows db.executor := by
        rw [← hexecutor]
        rfl
      dsimp only
      generalize behind.ask read = answer at hasked hafter hrows ⊢
      rcases answer with ⟨rows, asked⟩
      dsimp only at hasked hafter hrows ⊢
      cases rows with
      | error error => exact .inl ⟨.inr hafter, hasked⟩
      | ok records =>
          refine .inr ⟨records, hrows.symm, ?_, cache_remember hasked ..⟩
          rw [executor_remember, hafter]

/-- Behind any read nothing was stored, or the executor's rows are. -/
theorem select_snd {db : Database σ β} {cache : Cache.QueryCache β} (hcache : db.cache = some cache)
    (read : Read) :
    let behind := (db.select read.plan).2
    ∃ looked, (looked = cache ∨ looked = (cache.get read.key).2.1) ∧
      (((behind.executor = db.executor ∨ behind.executor = read.after db.executor) ∧
          behind.cache = some looked) ∨
        ∃ records, read.rows db.executor = .ok records ∧
          behind.executor = read.after db.executor ∧
          behind.cache = some (looked.set true read.plan.touched read.key records).1) := by
  cases hcacheable : read.plan.cacheable with
  | true => exact ⟨_, .inr rfl, select_snd_cached hcache hcacheable⟩
  | false =>
      have huncached : (db.cache.isSome && read.plan.cacheable) = false := by
        rw [hcacheable, Bool.and_false]
      rw [select_uncached huncached]
      exact ⟨cache, .inl rfl, .inl ⟨.inr rfl, by rw [cache_ask, hcache]⟩⟩

end Cached

/-- A change is carried out, and where it succeeds cached reads of its table are invalidated. -/
theorem write_eq (db : Database σ β) (change : Change) :
    db.write change.plan change.kind =
      match db.carryOut change with
      | (.error error, db) => (.error error, db)
      | (.ok affected, db) => (.ok affected, db.invalidate [change.table]) := by
  unfold write carryOut Change.affected Change.after
  rw [change.compiles]
  dsimp only
  rw [executor_logSql]
  unfold Change.sql Change.arguments
  rcases Executor.execute (change.statement.sql change.plan.dialect) change.statement.arguments
    db.executor with ⟨result, executor⟩
  cases result with
  | error error => rfl
  | ok affected => rfl

/-- Behind a change that succeeds, the cached reads of its table are dropped. -/
theorem write_snd {db : Database σ β} {cache : Cache.QueryCache β} (hcache : db.cache = some cache)
    {change : Change} {affected : Nat} (haffected : change.affected db.executor = .ok affected) :
    let behind := (db.write change.plan change.kind).2
    behind.executor = change.after db.executor ∧
      behind.cache = some (cache.dropEntries true [change.table]).1 := by
  have hfound : (db.carryOut change).1 = .ok affected := haffected
  have hcarried : (db.carryOut change).2.cache = some cache := by
    rw [cache_carryOut, hcache]
  have hafter : (db.carryOut change).2.executor = change.after db.executor := rfl
  rw [write_eq]
  generalize db.carryOut change = carried at hfound hcarried hafter ⊢
  rcases carried with ⟨result, behind⟩
  dsimp only at hfound hcarried hafter ⊢
  rw [hfound]
  exact ⟨by rw [executor_invalidate, hafter], cache_invalidate hcarried _⟩

end Database

/-! ## A database of one table -/

/-- A table with a single row, which every change deletes. -/
structure Shelf where
  empty : Bool

instance : Executor Shelf where
  select _ _ shelf := (.ok (if shelf.empty then [] else [⟨[("book", .str "Kindred")]⟩]), shelf)
  execute _ _ _ := (.ok 1, ⟨true⟩)
  scalar _ _ shelf := (.ok (if shelf.empty then 0 else 1), shelf)

namespace Shelf

def table : Table :=
  { name := "shelf", columns := [{ name := "book", field := "book" }] }

def plan : Plan :=
  (Query.start .postgres ⟨[table]⟩ true [] (.model ⟨table, none, [⟨0⟩]⟩)).plan

def read : Read where
  plan := plan
  statement :=
    ⟨[.text "SELECT \"shelf\".\"book\" AS \"book\"", .text " FROM ", .text "\"shelf\""], [], rfl⟩
  compiles := by cbv

def clear : Change where
  plan := plan
  kind := .truncate
  statement := ⟨[.text "TRUNCATE TABLE \"shelf\""], [], rfl⟩
  compiles := by cbv

def kindred : Json := .obj [("book", .str "Kindred")]

/-- The text that the row is stored as. -/
def payload : String := "[\x7b\"columns\":[[\"book\",\"Kindred\"]]\x7d]"

/-- The row is there and the cache is fresh. -/
def database {β : Type} (backend : β) : Database Shelf β where
  config := { catalog := ⟨[table]⟩ }
  executor := ⟨false⟩
  cache := some { backend := backend }

theorem table_clear : clear.table = "\"shelf\"" := by
  cbv

theorem touched_read : read.plan.touched = ["\"shelf\""] := by
  cbv

theorem models_payload : read.models? (Record.listOfText? payload) = some [kindred] := by
  cbv

theorem answer_empty : read.answer (⟨true⟩ : Shelf) = .ok [] := by
  cbv

end Shelf

end FieldQuery
