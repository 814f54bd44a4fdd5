import FieldQuery.Proofs.Database.Requests
import FieldQuery.Proofs.Plan.Continuation

/-!
# Plans that are refused

A plan with errors has no statement for anything, and neither have some plans without: one that
assigns nothing cannot be inserted.  Whatever such a plan is run for, its error is the whole answer.
It is given before anything is reported, before the cache is looked into and before the executor is
asked, whichever executor that is; one that counts its calls would count none.

Main definitions:

- `Finalizer`: the ways to run a plan.
- `Database.finish`: runs a plan, with the models that others are added to.

Main statements: `Database.finish_refused`, `Database.refused_of_finish` and
`Database.refused_untouched`.
-/

namespace FieldQuery

theorem eq_error_of_map {α γ ε : Type} {f : α → γ} {result : Except ε α} {failure : ε}
    (h : result.map f = .error failure) : result = .error failure := by
  cases result with
  | error error => simpa [Except.map] using h
  | ok value => simp [Except.map] at h

/-- An error of a run over a list is an error at one of its members. -/
theorem error_of_mapM {α β ε : Type} {f : α → Except ε β} {items : List α} {failure : ε}
    (h : items.mapM f = .error failure) : ∃ item ∈ items, f item = .error failure := by
  induction items with
  | nil => simp [pure, Except.pure] at h
  | cons first rest ih =>
      cases hfirst : f first with
      | error error =>
          have hsame : error = failure := by
            simpa [List.mapM_cons, hfirst, bind, Except.bind] using h
          exact ⟨first, List.mem_cons_self, by rw [hfirst, hsame]⟩
      | ok value =>
          have hrest : rest.mapM f = .error failure := by
            cases hmapped : rest.mapM f with
            | error error => simpa [List.mapM_cons, hfirst, hmapped, bind, Except.bind] using h
            | ok values => simp [List.mapM_cons, hfirst, hmapped, bind, Except.bind, pure,
                Except.pure] at h
          rcases ih hrest with ⟨item, hmem, hitem⟩
          exact ⟨item, List.mem_cons_of_mem first hmem, hitem⟩

namespace Plan

variable {plan : Plan} {error : PlanError}

theorem check_of_errors (h : plan.errors.head? = some error) : plan.check = .error error := by
  cases herrors : plan.errors with
  | nil => simp [herrors] at h
  | cons first rest =>
      have hfirst : first = error := by simpa [herrors] using h
      simp [check, herrors, hfirst]

/-- The first error stands in the place of every statement. -/
theorem statement_of_errors (h : plan.errors.head? = some error) (action : Action) :
    plan.statement action = .error error := by
  have hcheck := check_of_errors h
  cases action with
  | select => simp [statement, selectStatement, hcheck, bind, Except.bind]
  | count => simp [statement, countStatement, hcheck, bind, Except.bind]
  | insert => simp [statement, insertStatement, hcheck, bind, Except.bind]
  | update => simp [statement, updateStatement, hcheck, bind, Except.bind]
  | delete => simp [statement, deleteStatement, hcheck, bind, Except.bind]
  | truncate => simp [statement, truncateStatement, hcheck, bind, Except.bind]

/-- Rows that make no models are no error of the plan. -/
theorem decode_ne_plan (plan : Plan) (records : List Record) (error : PlanError) :
    plan.decode records ≠ .error (.plan error) := by
  intro hdecode
  rcases error_of_mapM hdecode with ⟨value, -, hvalue⟩
  cases hrejects : plan.catalog.rejects? plan.model value with
  | none => simp [hrejects] at hvalue
  | some problem => simp [hrejects] at hvalue

end Plan

/-! ## Running a plan -/

/-- The ways to run a plan. -/
inductive Finalizer
  | select
  /-- Adds the models to others. -/
  | selectInto
  | count
  | write (change : Database.Write)
  deriving DecidableEq, Repr

def Finalizer.action : Finalizer → Action
  | .select | .selectInto => .select
  | .count => .count
  | .write change => change.action

/-- What running a plan gives back. -/
inductive Answer
  | models (models : List Json)
  /-- The models were added to others. -/
  | added
  | rows (number : Int)
  | affected (number : Nat)

/-- What there is once a plan has been run. -/
structure Finish (σ β : Type) where
  answer : Except QueryError Answer
  /-- The models that others were to be added to. -/
  out : List Json
  database : Database σ β

/-- The executor itself answers a statement with an error. -/
def Finalizer.Fails {σ : Type} [Executor σ] (finalizer : Finalizer) (statement : Statement)
    (dialect : Dialect) (executor : σ) (error : QueryError) : Prop :=
  let sql := statement.sql dialect
  match finalizer with
  | .select | .selectInto => (Executor.select sql statement.arguments executor).1 = .error error
  | .count => (Executor.scalar sql statement.arguments executor).1 = .error error
  | .write _ => (Executor.execute sql statement.arguments executor).1 = .error error

namespace Database

variable {σ β : Type} [Executor σ] {db : Database σ β} {error : PlanError}

theorem affected_of_write {change : Change}
    (h : (db.write change.plan change.kind).1 = .error (.plan error)) :
    change.affected db.executor = .error (.plan error) := by
  have hfst : (db.carryOut change).1 = change.affected db.executor := rfl
  rw [write_eq] at h
  rcases hcarried : db.carryOut change with ⟨result, behind⟩
  rw [hcarried] at h hfst
  cases result with
  | error failure => simpa [← hfst] using h
  | ok affected => simp at h

variable [Cache.Backend β]

/-- Runs a plan. -/
def finish (db : Database σ β) (plan : Plan) (out : List Json) (finalizer : Finalizer) :
    Finish σ β :=
  match finalizer with
  | .select =>
    let (models, db) := db.select plan
    ⟨models.map .models, out, db⟩
  | .selectInto =>
    let (added, out, db) := db.selectInto plan out
    ⟨added.map fun _ => .added, out, db⟩
  | .count =>
    let (number, db) := db.count plan
    ⟨number.map .rows, out, db⟩
  | .write change =>
    let (number, db) := db.write plan change
    ⟨number.map .affected, out, db⟩

/-- Without a statement nothing happens. -/
theorem finish_refused {plan : Plan} {finalizer : Finalizer}
    (h : plan.statement finalizer.action = .error error) (out : List Json) :
    db.finish plan out finalizer = ⟨.error (.plan error), out, db⟩ := by
  cases finalizer with
  | select =>
      have hselect : plan.selectStatement = .error error := h
      simp [finish, select, hselect, Except.map]
  | selectInto =>
      have hselect : plan.selectStatement = .error error := h
      simp [finish, selectInto, select, hselect, Except.map]
  | count =>
      have hcount : plan.countStatement = .error error := h
      simp [finish, count, hcount, Except.map]
  | write change =>
      have hwrite : plan.statement change.action = .error error := h
      simp [finish, write, hwrite, Except.map]

/-- A plan's error behind a statement is one that the executor answered with. -/
theorem rows_of_select {read : Read} (h : (db.select read.plan).1 = .error (.plan error)) :
    read.rows db.executor = .error (.plan error) := by
  have hanswer : read.answer db.executor = .error (.plan error) := by
    cases hcached : db.cache.isSome && read.plan.cacheable with
    | false => simpa [select_uncached hcached] using h
    | true =>
        rcases Bool.and_eq_true_iff.1 hcached with ⟨hsome, hcacheable⟩
        rcases Option.isSome_iff_exists.1 hsome with ⟨cache, hcache⟩
        rw [select_fst hcache hcacheable] at h
        -- what the cache answers is never an error
        cases hmodels : read.models? (cache.get read.key).1 with
        | some models => simp [hmodels] at h
        | none => simpa [hmodels] using h
  cases hrows : read.rows db.executor with
  | error failure => simpa [Read.answer, hrows, bind, Except.bind] using hanswer
  | ok records =>
      have hdecode : read.plan.decode records = .error (.plan error) := by
        simpa [Read.answer, hrows, bind, Except.bind] using hanswer
      exact absurd hdecode (read.plan.decode_ne_plan records error)

theorem fst_selectInto (db : Database σ β) (plan : Plan) (out : List Json) :
    (db.selectInto plan out).1 = (db.select plan).1.map fun _ => () := by
  unfold selectInto
  rcases db.select plan with ⟨models, behind⟩
  cases models <;> rfl

/-- An error of the plan is answered because there is no statement, unless the executor makes it up
itself. -/
theorem refused_of_finish {plan : Plan} {out : List Json} {finalizer : Finalizer}
    (h : (db.finish plan out finalizer).answer = .error (.plan error)) :
    plan.statement finalizer.action = .error error ∨
      ∃ statement, plan.statement finalizer.action = .ok statement ∧
        finalizer.Fails statement plan.dialect db.executor (.plan error) := by
  cases hstatement : plan.statement finalizer.action with
  | error failure =>
      have hsame : failure = error := by simpa [finish_refused hstatement out] using h
      exact .inl (by rw [hsame])
  | ok statement =>
      refine .inr ⟨statement, rfl, ?_⟩
      cases finalizer with
      | select =>
          let read : Read := ⟨plan, statement, hstatement⟩
          have hselect : (db.select read.plan).1 = .error (.plan error) := eq_error_of_map h
          exact rows_of_select hselect
      | selectInto =>
          let read : Read := ⟨plan, statement, hstatement⟩
          have hadded : (db.selectInto read.plan out).1 = .error (.plan error) := eq_error_of_map h
          have hselect : (db.select read.plan).1 = .error (.plan error) :=
            eq_error_of_map ((fst_selectInto db read.plan out).symm.trans hadded)
          exact rows_of_select hselect
      | count =>
          have hcount : (db.count plan).1 = .error (.plan error) := eq_error_of_map h
          have hcompiles : plan.countStatement = .ok statement := hstatement
          simpa [Finalizer.Fails, count, hcompiles, executor_logSql] using hcount
      | write kind =>
          let change : Change := ⟨plan, kind, statement, hstatement⟩
          have hwrite : (db.write change.plan change.kind).1 = .error (.plan error) :=
            eq_error_of_map h
          exact affected_of_write hwrite

/-- Whatever calls were made, errors are only ever added behind the others, the first one is the
answer to everything, and where an error of the plan is answered nothing has happened: the executor,
the cache, what was reported and the models to add to are as they were. -/
theorem refused_untouched (db : Database σ β) (plan : Plan) (calls : List Call) (out : List Json) :
    let built := calls.foldl Plan.apply plan
    plan.errors <+: built.errors ∧
      (∀ error, built.errors.head? = some error →
        (∀ action, built.statement action = .error error) ∧
          ∀ finalizer, (db.finish built out finalizer).answer = .error (.plan error)) ∧
      (∀ finalizer error, built.statement finalizer.action = .error error →
        db.finish built out finalizer = ⟨.error (.plan error), out, db⟩) ∧
      ∀ finalizer error, (db.finish built out finalizer).answer = .error (.plan error) →
        built.statement finalizer.action = .error error ∨
          ∃ statement, built.statement finalizer.action = .ok statement ∧
            finalizer.Fails statement built.dialect db.executor (.plan error) := by
  intro built
  have hcontinues : plan.Continues built := Plan.continues_calls calls plan
  refine ⟨hcontinues.errors, ?_, fun _ _ h => finish_refused h out, fun _ _ => refused_of_finish⟩
  intro error hfirst
  have hrefused : ∀ action, built.statement action = .error error :=
    Plan.statement_of_errors hfirst
  refine ⟨hrefused, fun finalizer => ?_⟩
  rw [finish_refused (hrefused finalizer.action) out]

end Database

namespace Shelf

/-- An order that there is none of, and a field that is not known. -/
def misguided : List Call :=
  [.orderBy (.field ⟨0⟩) "sideways", .groupBy ⟨9⟩, .limit 3]

theorem errors_misguided : (misguided.foldl Plan.apply plan).errors =
    [.invalidOrderDirection "sideways", .unresolvedField ⟨9⟩] := by
  decide +kernel

/-- A plan with two errors is refused for the first one, and a plan without assignments is refused
as an insert; both leave a database with a cache alone. -/
theorem refused_untouched_misguided :
    let db : Database Shelf Cache.MemoryCache := database (.empty 1)
    let built := misguided.foldl Plan.apply plan
    built.errors.head? = some (.invalidOrderDirection "sideways") ∧
      (∀ finalizer, db.finish built [kindred] finalizer =
        ⟨.error (.plan (.invalidOrderDirection "sideways")), [kindred], db⟩) ∧
      db.finish plan [kindred] (.write .insert) =
        ⟨.error (.plan (.noAssignments "INSERT")), [kindred], db⟩ := by
  intro db built
  have hfirst : built.errors.head? = some (.invalidOrderDirection "sideways") := by
    rw [errors_misguided]
    rfl
  have hbuilt := Database.refused_untouched db plan misguided [kindred]
  have hplan := Database.refused_untouched db plan [] [kindred]
  refine ⟨hfirst, fun finalizer => ?_, hplan.2.2.1 (.write .insert) _ (by cbv)⟩
  exact hbuilt.2.2.1 finalizer _ ((hbuilt.2.1 _ hfirst).1 finalizer.action)

end Shelf

end FieldQuery
