import FieldQuery.Proofs.Plan.Calls
import FieldQuery.Proofs.Plan.Columns

/-!
# What no call takes back

Whatever call is made, with errors or without: a plan keeps what it was started on, notes errors
behind those met before, and adds fields behind the known ones.

Main definitions:

- `Plan.grounds`: what a plan is started with.
- `Plan.Continues`: what every call keeps.
- `Query.calls?`: a run of calls; `Query.On`: a query behind calls on a primary target.

Main statements: `Plan.continues_apply` for one call and `Plan.continues_calls` for a run of them.
-/

namespace FieldQuery

/-- What a plan is started with and keeps: how it is written, and what it reads from. -/
structure Grounds where
  dialect : Dialect
  catalog : Catalog
  model : Table
  lazyJoins : List JoinRule
  table : Option Table
  quotedTable : String
  source : Option Source

namespace Plan

def grounds (plan : Plan) : Grounds where
  dialect := plan.dialect
  catalog := plan.catalog
  model := plan.model
  lazyJoins := plan.lazyJoins
  table := plan.table
  quotedTable := plan.quotedTable
  source := plan.source

/-- A plan behind calls. -/
structure Continues (plan next : Plan) : Prop where
  grounds : next.grounds = plan.grounds
  errors : plan.errors <+: next.errors
  columns : plan.columns.Extends next.columns

variable {plan next last : Plan}

/-- A change that meets no error and leaves the fields alone. -/
theorem Continues.of_same (hgrounds : next.grounds = plan.grounds)
    (herrors : next.errors = plan.errors) (hcolumns : next.columns = plan.columns) :
    Continues plan next where
  grounds := hgrounds
  errors := by simp [herrors]
  columns := by simpa [hcolumns] using ColumnMap.Extends.refl plan.columns

theorem Continues.of_columns (hgrounds : next.grounds = plan.grounds)
    (herrors : next.errors = plan.errors) (hcolumns : plan.columns.Extends next.columns) :
    Continues plan next where
  grounds := hgrounds
  errors := by simp [herrors]
  columns := hcolumns

theorem Continues.refl (plan : Plan) : Continues plan plan :=
  .of_same rfl rfl rfl

theorem Continues.trans (h : Continues plan next) (h' : Continues next last) :
    Continues plan last where
  grounds := h'.grounds.trans h.grounds
  errors := h.errors.trans h'.errors
  columns := h.columns.trans h'.columns

/-- A plan without errors has come from plans without errors. -/
theorem Continues.errors_nil (h : Continues plan next) (herrors : next.errors = []) :
    plan.errors = [] :=
  List.prefix_nil.1 (by simpa [herrors] using h.errors)

theorem continues_fail (plan : Plan) (error : PlanError) : Continues plan (plan.fail error) where
  grounds := rfl
  errors := List.prefix_append _ _
  columns := .refl _

theorem continues_touch (plan : Plan) (quoted : String) : Continues plan (plan.touch quoted) := by
  rw [touch_eq]
  exact .of_same rfl rfl rfl

end Plan

/-! ## Targets -/

namespace MappingScope

theorem extends_mapColumn (scope : MappingScope) (mapped : ColumnMap × List Filter)
    (column : Column) (token : Token) :
    mapped.1.Extends (scope.mapColumn mapped column token).1 := by
  unfold mapColumn
  dsimp only
  split
  -- the other end of a mapped column only leaves a copy
  · exact ColumnMap.extends_modify _ _ fun entry => entry.fixed_addCopy _
  · exact ColumnMap.extends_push _ _

theorem extends_mapColumns (scope : MappingScope) (columns : List (Column × Token))
    (mapped : ColumnMap × List Filter) :
    mapped.1.Extends (scope.mapColumns columns mapped).1 := by
  induction columns generalizing mapped with
  | nil => exact .refl _
  | cons first rest ih =>
      exact (extends_mapColumn scope mapped first.1 first.2).trans
        (ih (scope.mapColumn mapped first.1 first.2))

end MappingScope

namespace Plan

variable {plan next last : Plan}

theorem continues_mapModel (plan : Plan) (target : ModelTarget) :
    Continues plan (plan.mapModel target).1 := by
  unfold mapModel
  dsimp only
  rw [touch_eq]
  split
  · exact .of_same rfl rfl rfl
  · split <;> exact .of_columns rfl rfl (MappingScope.extends_mapColumns _ _ (_, _))

theorem continues_mapPlan (plan sub : Plan) : Continues plan (plan.mapPlan sub).1 := by
  unfold mapPlan
  dsimp only
  rw [foldl_touch_eq]
  -- errors of the other plan come in behind those of this one, and so may the one it is refused for
  cases sub.selectStatement with
  | ok query => exact ⟨rfl, List.prefix_append _ _, ColumnMap.extends_pushAll _ _⟩
  | error error =>
      refine ⟨rfl, ?_, ColumnMap.extends_pushAll _ _⟩
      exact (List.prefix_append _ sub.errors).trans (List.prefix_append _ [error])

theorem continues_mapRaw (plan : Plan) (target : ModelTarget) (query : RawQuery) :
    Continues plan (plan.mapRaw target query).1 := by
  unfold mapRaw
  dsimp only
  split
  · exact .refl plan
  · split
    · exact .of_columns rfl rfl (ColumnMap.extends_pushAll _ _)
    · rw [foldl_touch_reads, foldl_touch_eq]
      exact .of_columns rfl rfl (ColumnMap.extends_pushAll _ _)

theorem continues_mapTarget (plan : Plan) (target : Target) :
    Continues plan (plan.mapTarget target).1 := by
  cases target with
  | model target => exact continues_mapModel plan target
  | plan sub => exact continues_mapPlan plan sub
  | raw target query => exact continues_mapRaw plan target query

theorem continues_of_mapTarget {target : Target} {result : Except PlanError MappedTarget}
    (h : plan.mapTarget target = (next, result)) : Continues plan next := by
  simpa [h] using continues_mapTarget plan target

theorem extends_mapRoot (plan : Plan) (target : Target) :
    plan.columns.Extends (plan.mapRoot target).columns := by
  have hmapped := (continues_mapTarget plan target).columns
  unfold mapRoot
  split <;> rename_i hresult <;> rw [hresult] at hmapped <;> exact hmapped

theorem continues_openJoinOn (plan : Plan) (kind : JoinKind) (target : Target) :
    Continues plan (plan.openJoinOn kind target) := by
  have hclosed : Continues plan plan.closeJoin := .of_same rfl rfl rfl
  have hmapped := hclosed.trans (continues_mapTarget plan.closeJoin target)
  unfold openJoinOn
  split <;> rename_i hresult <;> rw [hresult] at hmapped
  · exact hmapped.trans (.of_same rfl rfl rfl)
  · exact hmapped.trans (continues_fail _ _)

/-! ## Conditions -/

theorem continues_addOn (plan : Plan) (filters : List Filter) :
    Continues plan (plan.addOn filters) := by
  unfold addOn
  split
  · exact .of_same rfl rfl rfl
  · exact continues_fail plan _

theorem continues_addReferences (plan : Plan) : Continues plan plan.addReferences := by
  unfold addReferences
  split
  · exact continues_fail plan _
  · have hcleared : Continues plan { plan with links := [] } := .of_same rfl rfl rfl
    exact hcleared.trans (continues_addOn _ _)

theorem continues_addFilter (plan : Plan) (filter : Filter) :
    Continues plan (plan.addFilter filter) := by
  unfold addFilter
  split <;> exact .of_same rfl rfl rfl

theorem continues_addFilters (filters : List Filter) (plan : Plan) :
    Continues plan (filters.foldl addFilter plan) := by
  induction filters generalizing plan with
  | nil => exact .refl plan
  | cons first rest ih => exact (continues_addFilter plan first).trans (ih (plan.addFilter first))

/-! ## Fields -/

theorem continues_assign (plan : Plan) (token : Token) (value : BindValue) :
    Continues plan (plan.assign token value) := by
  unfold assign
  split
  · exact .of_same rfl rfl rfl
  · exact continues_fail plan _

theorem continues_orderBy (plan : Plan) (operand : Operand) (direction : String) :
    Continues plan (plan.orderBy operand direction) := by
  unfold orderBy
  split
  · exact continues_fail plan _
  · split
    · exact .of_same rfl rfl rfl
    · exact continues_fail plan _

theorem continues_groupBy (plan : Plan) (token : Token) : Continues plan (plan.groupBy token) := by
  unfold groupBy
  split
  · exact .of_same rfl rfl rfl
  · exact continues_fail plan _

theorem continues_openLazyJoin (plan : Plan) (entry : Entry) (join : JoinSite → LazyJoin) :
    Continues plan (plan.openLazyJoin entry join) := by
  unfold openLazyJoin
  dsimp only
  refine Continues.trans ?_ (continues_touch _ _)
  exact .of_columns rfl rfl (ColumnMap.extends_modify _ _ fun _ => rfl)

theorem continues_addField (plan : Plan) (token : Token) :
    Continues plan (plan.addField token) := by
  unfold addField
  split
  · exact continues_fail plan _
  · split
    · exact continues_openLazyJoin plan _ _
    · split
      · exact continues_fail plan _
      · exact .of_columns rfl rfl (ColumnMap.extends_modify _ _ fun _ => rfl)

theorem continues_addFields (tokens : List Token) (plan : Plan) :
    Continues plan (tokens.foldl addField plan) := by
  induction tokens generalizing plan with
  | nil => exact .refl plan
  | cons first rest ih => exact (continues_addField plan first).trans (ih (plan.addField first))

/-- Asking for a field changes nothing that stays of it. -/
theorem fixed_addField (plan : Plan) (token : Token) :
    (plan.addField token).columns.fixed = plan.columns.fixed := by
  unfold addField
  split
  · rfl
  · split
    · unfold openLazyJoin
      dsimp only
      rw [touch_eq]
      exact ColumnMap.fixed_modify _ _ fun _ => rfl
    · split
      · rfl
      · exact ColumnMap.fixed_modify _ _ fun _ => rfl

theorem fixed_addFields (tokens : List Token) (plan : Plan) :
    (tokens.foldl addField plan).columns.fixed = plan.columns.fixed := by
  induction tokens generalizing plan with
  | nil => rfl
  | cons first rest ih => exact (ih (plan.addField first)).trans (fixed_addField plan first)

theorem fixed_unwanted (plan : Plan) : plan.unwanted.columns.fixed = plan.columns.fixed := by
  have hfixed : ∀ entry : Entry, ({ entry with wanted := false } : Entry).fixed = entry.fixed :=
    fun _ => rfl
  simp [unwanted, ColumnMap.fixed, hfixed]

theorem continues_restrictFields (plan : Plan) (tokens : List Token) :
    Continues plan (plan.restrictFields tokens) := by
  have hcleared : Continues plan plan.unwanted :=
    .of_columns rfl rfl (ColumnMap.extends_of_fixed (fixed_unwanted plan))
  rw [restrictFields_eq]
  exact hcleared.trans (continues_addFields tokens _)

/-! ## Calls -/

end Plan

/-- The calls that change what is known of the fields. -/
def Call.changesFields : Call → Bool
  | .join _ _ | .fields _ | .addField _ => true
  | _ => false

namespace Plan

variable {plan next last : Plan}

theorem columns_addOn (plan : Plan) (filters : List Filter) :
    (plan.addOn filters).columns = plan.columns := by
  unfold addOn
  split <;> rfl

theorem columns_addFilters (filters : List Filter) (plan : Plan) :
    (filters.foldl addFilter plan).columns = plan.columns := by
  induction filters generalizing plan with
  | nil => rfl
  | cons filter rest ih =>
      have hone : (plan.addFilter filter).columns = plan.columns := by
        unfold addFilter
        split <;> rfl
      exact (ih (plan.addFilter filter)).trans hone

/-- The other calls leave the fields alone. -/
theorem columns_apply {call : Call} (hcall : call.changesFields = false) :
    (plan.apply call).columns = plan.columns := by
  cases call with
  | join kind target => cases hcall
  | fields tokens => cases hcall
  | addField token => cases hcall
  | on filters => exact plan.columns_addOn filters
  | filter filters => exact columns_addFilters filters plan
  | references =>
      show plan.addReferences.columns = plan.columns
      unfold addReferences
      split
      · rfl
      · exact columns_addOn _ _
  | assign token value =>
      show (plan.assign token value).columns = plan.columns
      unfold assign
      split <;> rfl
  | orderBy operand direction =>
      show (plan.orderBy operand direction).columns = plan.columns
      unfold orderBy
      split
      · rfl
      · split <;> rfl
  | groupBy token =>
      show (plan.groupBy token).columns = plan.columns
      unfold groupBy
      split <;> rfl
  | startWhere => rfl
  | discardOrder => rfl
  | limit count => rfl
  | offset count => rfl
  | withoutCache => rfl

/-- Only a target brings in fields. -/
theorem fixed_apply {call : Call} (hcall : call.target? = none) :
    (plan.apply call).columns.fixed = plan.columns.fixed := by
  cases hchanges : call.changesFields with
  | false => rw [columns_apply hchanges]
  | true =>
    cases call with
    | join kind target => cases hcall
    | fields tokens =>
        show (plan.restrictFields tokens).columns.fixed = plan.columns.fixed
        rw [restrictFields_eq, fixed_addFields, fixed_unwanted]
    | addField token => exact fixed_addField plan token
    | _ => cases hchanges

/-- So each of its entries was known before. -/
theorem known_apply {call : Call} (hcall : call.target? = none) {entry : Entry}
    (hentry : entry ∈ (plan.apply call).columns.entries) :
    ∃ known ∈ plan.columns.entries, entry.fixed = known.fixed := by
  have hmem : entry.fixed ∈ plan.columns.fixed := by
    rw [← fixed_apply hcall]
    exact List.mem_map_of_mem hentry
  rcases List.mem_map.1 hmem with ⟨known, hknown, hfixed⟩
  exact ⟨known, hknown, hfixed.symm⟩

theorem continues_apply (plan : Plan) (call : Call) : Continues plan (plan.apply call) := by
  cases call with
  | join kind target => exact continues_openJoinOn plan kind target
  | startWhere => exact .of_same rfl rfl rfl
  | on filters => exact continues_addOn plan filters
  | references => exact continues_addReferences plan
  | filter filters => exact continues_addFilters filters plan
  | assign token value => exact continues_assign plan token value
  | orderBy operand direction => exact continues_orderBy plan operand direction
  | discardOrder => exact .of_same rfl rfl rfl
  | groupBy token => exact continues_groupBy plan token
  | limit count => exact .of_same rfl rfl rfl
  | offset count => exact .of_same rfl rfl rfl
  | fields tokens => exact continues_restrictFields plan tokens
  | addField token => exact continues_addField plan token
  | withoutCache => exact .of_same rfl rfl rfl

/-- A run of calls takes nothing back. -/
theorem continues_calls (calls : List Call) (plan : Plan) :
    Continues plan (calls.foldl apply plan) := by
  induction calls generalizing plan with
  | nil => exact .refl plan
  | cons call rest ih => exact (continues_apply plan call).trans (ih (plan.apply call))

/-- Without further targets it brings in no fields. -/
theorem fixed_calls {calls : List Call} (hcalls : ∀ call ∈ calls, call.target? = none)
    (plan : Plan) : (calls.foldl apply plan).columns.fixed = plan.columns.fixed := by
  induction calls generalizing plan with
  | nil => rfl
  | cons call rest ih =>
      have hrest : ∀ later ∈ rest, later.target? = none := fun later hlater =>
        hcalls later (List.mem_cons_of_mem call hlater)
      calc (rest.foldl apply (plan.apply call)).columns.fixed
          = (plan.apply call).columns.fixed := ih hrest (plan.apply call)
        _ = plan.columns.fixed := fixed_apply (hcalls call List.mem_cons_self)

end Plan

namespace Query

/-- Makes calls in turn, as long as the stages admit them. -/
def calls? (query : Query) : List Call → Option Query
  | [] => some query
  | call :: rest => (query.call? call).bind fun next => next.calls? rest

theorem plan_calls? {query next : Query} {calls : List Call} (h : query.calls? calls = some next) :
    next.plan = calls.foldl Plan.apply query.plan := by
  induction calls generalizing query with
  | nil =>
      cases h
      rfl
  | cons call rest ih =>
      rcases Option.bind_eq_some_iff.1 h with ⟨middle, hmiddle, hrest⟩
      rw [List.foldl_cons, ← (call?_eq_some.1 hmiddle).2]
      exact ih hrest

/-- A query behind calls on its primary target. -/
inductive On (target : Target) : Query → Prop
  | start {dialect : Dialect} {catalog : Catalog} {cacheable : Bool} {lazyJoins : List JoinRule} :
      On target (.start dialect catalog cacheable lazyJoins target)
  | call {query next : Query} {call : Call} (h : On target query)
      (hnext : query.call? call = some next) : On target next

theorem continues_call? {query next : Query} {call : Call} (h : query.call? call = some next) :
    query.plan.Continues next.plan := by
  rw [(call?_eq_some.1 h).2]
  exact Plan.continues_apply query.plan call

/-- No token has two entries. -/
theorem On.distinct {target : Target} {query : Query} (h : query.On target) :
    query.plan.columns.Distinct := by
  induction h with
  | start => exact (Plan.extends_mapRoot _ target).distinct List.nodup_nil
  | call _ hnext ih => exact (continues_call? hnext).columns.distinct ih

end Query

end FieldQuery
