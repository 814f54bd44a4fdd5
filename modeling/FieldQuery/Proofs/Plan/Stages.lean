import FieldQuery.Proofs.Plan.Entries
import FieldQuery.Proofs.Plan.Failures
import FieldQuery.Proofs.Plan.Links

/-!
# What a stage says about its plan

The stage of a query is known before it runs, and a call that cannot be carried out changes the
stage all the same: it leaves an error behind instead.  So what a stage promises holds of its plan
unless there is an error: a join is open, the `WHERE` clause has begun, or something is assigned.

Main definitions:

- `Query.Legal`: a query behind calls that the stages admit, nested to any depth.
- `Query.Steady`: what a stage says about a plan without errors.
- `Query.Sound`: what it says about any plan.

Main statements: `Query.Sound.of_call` for one call, `Query.Legal.sound` for a run of them, and
`Query.Legal.keeps_stage`.
-/

namespace FieldQuery

/-! ## Legal calls -/

mutual

/-- A query behind calls that the stages admit. -/
inductive Query.Legal : Query → Prop
  | start {dialect : Dialect} {catalog : Catalog} {cacheable : Bool} {lazyJoins : List JoinRule}
      {target : Target} (h : Target.Legal target) :
      Query.Legal (.start dialect catalog cacheable lazyJoins target)
  | call {query next : Query} {call : Call} (h : Query.Legal query)
      (htarget : ∀ target, call.target? = some target → Target.Legal target)
      (hconditions : ∀ filter ∈ call.conditions, Filter.Legal filter)
      (hnext : query.call? call = some next) : Query.Legal next

inductive Target.Legal : Target → Prop
  | model (target : ModelTarget) : Target.Legal (.model target)
  | plan {sub : Query} (h : Query.Legal sub) : Target.Legal (.plan sub.plan)
  | raw (target : ModelTarget) (query : RawQuery) : Target.Legal (.raw target query)

/-- A condition, in which a caller has planted none of the errors that are ruled out. -/
inductive Filter.Legal : Filter → Prop
  | and {filters : List Filter} (h : ∀ filter ∈ filters, Filter.Legal filter) :
      Filter.Legal (.and filters)
  | or {filters : List Filter} (h : ∀ filter ∈ filters, Filter.Legal filter) :
      Filter.Legal (.or filters)
  | not {filter : Filter} (h : Filter.Legal filter) : Filter.Legal (.not filter)
  | inPlan {sub : Query} (operand : Operand) (h : Query.Legal sub) :
      Filter.Legal (.inPlan operand sub.plan)
  | single {filter : Filter} (hsingle : filter.Single)
      (hplanted : ∀ error ∈ filter.planted, ¬ error.RuledOut) : Filter.Legal filter

end

/-- A plan that is taken as a target is not refused for an error that is ruled out. -/
def Target.Harmless : Target → Prop
  | .plan sub => Admissible sub.selectStatement
  | _ => True

/-! ## Errors -/

namespace Plan

variable {plan next : Plan}

theorem Blameless.append {added : List PlanError} (h : plan.Blameless)
    (herrors : next.errors = plan.errors ++ added)
    (hadded : plan.errors = [] → ∀ error, added.head? = some error → ¬ error.RuledOut) :
    next.Blameless := by
  intro error hfirst
  rw [herrors] at hfirst
  -- the first error is an old one, unless there was none
  cases hplan : plan.errors with
  | nil =>
      rw [hplan, List.nil_append] at hfirst
      exact hadded hplan error hfirst
  | cons first rest =>
      refine h error ?_
      rw [hplan, List.cons_append] at hfirst
      rw [hplan]
      exact hfirst

theorem Blameless.of_errors (h : plan.Blameless) (herrors : next.errors = plan.errors) :
    next.Blameless := by
  intro error hfirst
  exact h error (by rw [← herrors]; exact hfirst)

theorem Blameless.fail (h : plan.Blameless) {error : PlanError}
    (herror : plan.errors = [] → ¬ error.RuledOut) : (plan.fail error).Blameless := by
  have herrors : (plan.fail error).errors = plan.errors ++ [error] := rfl
  refine h.append herrors ?_
  rintro hclean _ ⟨⟩
  exact herror hclean

theorem errors_mapModel (plan : Plan) (target : ModelTarget) :
    (plan.mapModel target).1.errors = plan.errors := by
  unfold mapModel
  dsimp only
  rw [touch_eq]
  split
  · rfl
  · split <;> rfl

theorem errors_mapRaw (plan : Plan) (target : ModelTarget) (query : RawQuery) :
    (plan.mapRaw target query).1.errors = plan.errors := by
  unfold mapRaw
  dsimp only
  split
  · rfl
  · split
    · rfl
    · rw [foldl_touch_reads, foldl_touch_eq]

theorem admissible_checkTokens (target : ModelTarget) : Admissible target.checkTokens := by
  unfold ModelTarget.checkTokens
  split
  · exact admissible_ok _
  · exact admissible_error (PlanError.not_ruledOut_fieldCount _ _ _)

theorem admissible_mapModel (plan : Plan) (target : ModelTarget) :
    Admissible (plan.mapModel target).2 := by
  have hchecked := admissible_checkTokens target
  unfold mapModel
  dsimp only
  split
  · rename_i error herror
    exact admissible_error (hchecked error herror)
  · split
    · exact admissible_ok _
    · exact admissible_error (PlanError.not_ruledOut_nothingQueryable _)

theorem admissible_mapRaw (plan : Plan) (target : ModelTarget) (query : RawQuery) :
    Admissible (plan.mapRaw target query).2 := by
  have hchecked := admissible_checkTokens target
  unfold mapRaw
  dsimp only
  split
  · rename_i error herror
    exact admissible_error (hchecked error herror)
  · split
    · exact admissible_error (PlanError.not_ruledOut_nothingReturned _)
    · exact admissible_ok _

/-- A plan that is taken over brings its errors along, and the one that it is refused for. -/
theorem Blameless.mapPlan (h : plan.Blameless) {sub : Plan} (hsub : Admissible sub.selectStatement) :
    (plan.mapPlan sub).1.Blameless := by
  unfold Plan.mapPlan
  dsimp only
  rw [foldl_touch_eq]
  cases hquery : sub.selectStatement with
  | ok query =>
      refine h.append rfl fun _ error hfirst => ?_
      exact hsub error (statement_of_errors hfirst .select)
  | error error =>
      -- its own errors come in front of the one that it is refused for
      refine h.append (List.append_assoc _ _ _) fun _ other hfirst => ?_
      rw [List.head?_append, Option.or_eq_some_iff] at hfirst
      rcases hfirst with hbrought | ⟨-, hrefused⟩
      · exact hsub other (statement_of_errors hbrought .select)
      · cases hrefused
        exact hsub error hquery

theorem Blameless.mapTarget (h : plan.Blameless) {target : Target} (htarget : target.Harmless) :
    (plan.mapTarget target).1.Blameless ∧ Admissible (plan.mapTarget target).2 := by
  cases target with
  | model target =>
      exact ⟨h.of_errors (plan.errors_mapModel target), plan.admissible_mapModel target⟩
  | plan sub => exact ⟨h.mapPlan htarget, admissible_ok _⟩
  | raw target query =>
      exact ⟨h.of_errors (plan.errors_mapRaw target query), plan.admissible_mapRaw target query⟩

theorem Blameless.mapRoot (h : plan.Blameless) {target : Target} (htarget : target.Harmless) :
    (plan.mapRoot target).Blameless := by
  have hmapped := h.mapTarget htarget
  unfold Plan.mapRoot
  split <;> rename_i hresult <;> rw [hresult] at hmapped
  · exact hmapped.1.of_errors rfl
  · exact hmapped.1.fail fun _ => hmapped.2 _ rfl

theorem Blameless.openJoinOn (h : plan.Blameless) {target : Target} (htarget : target.Harmless)
    (kind : JoinKind) : (plan.openJoinOn kind target).Blameless := by
  have hclosed : plan.closeJoin.Blameless := h.of_errors rfl
  have hmapped := hclosed.mapTarget htarget
  unfold Plan.openJoinOn
  split <;> rename_i hresult <;> rw [hresult] at hmapped
  · exact hmapped.1.of_errors rfl
  · exact hmapped.1.fail fun _ => hmapped.2 _ rfl

/-- A plan may be blamed for conditions without an open join only if it has been blamed before. -/
theorem Blameless.addOn (h : plan.Blameless) (hopen : plan.errors = [] → plan.openJoin.isSome)
    (filters : List Filter) : (plan.addOn filters).Blameless := by
  unfold Plan.addOn
  split
  · exact h.of_errors rfl
  · rename_i hnone
    refine h.fail fun hclean => ?_
    rw [hnone] at hopen
    cases hopen hclean

theorem Blameless.addReferences (h : plan.Blameless)
    (hopen : plan.errors = [] → plan.openJoin.isSome) : plan.addReferences.Blameless := by
  unfold Plan.addReferences
  split
  · exact h.fail fun _ => by decide
  · have hcleared : ({ plan with links := [] } : Plan).Blameless := h.of_errors rfl
    exact hcleared.addOn hopen _

theorem Blameless.addField (h : plan.Blameless) (token : Token) :
    (plan.addField token).Blameless := by
  unfold Plan.addField ColumnMap.locate
  cases plan.columns.find? token with
  | none => exact h.fail fun _ => id
  | some entry =>
      dsimp only
      split
      · unfold openLazyJoin
        dsimp only
        rw [touch_eq]
        exact h.of_errors rfl
      · split
        · exact h.fail fun _ => id
        · exact h.of_errors rfl

theorem Blameless.addFields (h : plan.Blameless) (tokens : List Token) :
    (tokens.foldl Plan.addField plan).Blameless := by
  induction tokens generalizing plan with
  | nil => exact h
  | cons first rest ih => exact ih (h.addField first)

/-- A call is refused for an error that is ruled out only if it adds to a join where none is
open. -/
theorem Blameless.apply (h : plan.Blameless) {call : Call}
    (htarget : ∀ target, call.target? = some target → target.Harmless)
    (hopen : call.kind = .on ∨ call.kind = .references → plan.errors = [] →
      plan.openJoin.isSome) : (plan.apply call).Blameless := by
  cases call with
  | join kind target => exact h.openJoinOn (htarget target rfl) kind
  | startWhere => exact h.of_errors rfl
  | on filters => exact h.addOn (hopen (.inl rfl)) filters
  | references => exact h.addReferences (hopen (.inr rfl))
  | filter filters => exact h.of_errors (errors_addFilters filters plan)
  | assign token value =>
      have hcolumn := plan.columns.admissible_bareColumn token
      show (plan.assign token value).Blameless
      unfold assign
      split
      · exact h.of_errors rfl
      · rename_i error herror
        exact h.fail fun _ => hcolumn error herror
  | orderBy operand direction =>
      show (plan.orderBy operand direction).Blameless
      unfold orderBy Direction.parse
      dsimp only
      split
      · rename_i error herror
        refine h.fail fun _ => ?_
        split_ifs at herror
        cases herror
        exact id
      · split
        · exact h.of_errors rfl
        · exact h.fail fun _ => id
  | groupBy token =>
      have hcolumn := plan.columns.admissible_qualifiedColumn token
      show (plan.groupBy token).Blameless
      unfold groupBy
      split
      · exact h.of_errors rfl
      · rename_i error herror
        exact h.fail fun _ => hcolumn error herror
  | discardOrder => exact h.of_errors rfl
  | limit count => exact h.of_errors rfl
  | offset count => exact h.of_errors rfl
  | fields tokens =>
      have hcleared : plan.unwanted.Blameless := h.of_errors rfl
      exact hcleared.addFields tokens
  | addField token => exact h.addField token
  | withoutCache => exact h.of_errors rfl

end Plan

/-! ## Conditions -/

namespace Plan

variable {plan next : Plan}

/-- All conditions of a plan are harmless, and so are the links that become conditions. -/
structure Writable (plan : Plan) : Prop where
  conditions : ∀ filter ∈ plan.allConditions, filter.Harmless
  links : ∀ filter ∈ plan.links, filter.Harmless

theorem Writable.of_eq (h : plan.Writable) (hconditions : next.conditions = plan.conditions)
    (hjoins : next.allJoins = plan.allJoins) (hlinks : next.links = plan.links) :
    next.Writable where
  conditions := by
    rw [allConditions, hconditions, hjoins]
    exact h.conditions
  links := by
    rw [hlinks]
    exact h.links

theorem Writable.addOn (h : plan.Writable) {filters : List Filter}
    (hfilters : ∀ filter ∈ filters, filter.Harmless) : (plan.addOn filters).Writable := by
  unfold Plan.addOn
  split
  · rename_i join hopen
    refine ⟨?_, h.links⟩
    intro filter hfilter
    have hcases : filter ∈ plan.allConditions ∨ filter ∈ filters := by
      simp only [allConditions, allJoins, hopen, Option.toList_some, List.flatMap_append,
        List.flatMap_singleton, List.mem_append] at hfilter ⊢
      tauto
    exact hcases.elim (h.conditions filter) (hfilters filter)
  · exact h.of_eq rfl rfl rfl

theorem Writable.addReferences (h : plan.Writable) : plan.addReferences.Writable := by
  unfold Plan.addReferences
  split
  · exact h.of_eq rfl rfl rfl
  · have hcleared : ({ plan with links := [] } : Plan).Writable :=
      ⟨h.conditions, fun filter hfilter => by cases hfilter⟩
    exact hcleared.addOn h.links

theorem Writable.addFilter (h : plan.Writable) {filter : Filter} (hfilter : filter.Harmless) :
    (plan.addFilter filter).Writable := by
  refine ⟨?_, ?_⟩
  · intro other hother
    -- it goes into the `WHERE` clause or the open join, or begins the clause
    have hcases : other ∈ plan.allConditions ∨ other = filter := by
      unfold Plan.addFilter at hother
      cases hconditions : plan.conditions with
      | some filters =>
          simp only [hconditions, allConditions, allJoins, Option.getD_some, List.mem_append,
            List.mem_singleton] at hother ⊢
          tauto
      | none =>
          cases hopen : plan.openJoin with
          | some join =>
              simp only [hconditions, hopen, allConditions, allJoins, Option.getD_none,
                Option.toList_some, List.flatMap_append, List.flatMap_singleton, List.mem_append,
                List.mem_singleton] at hother ⊢
              tauto
          | none =>
              simp only [hconditions, hopen, allConditions, allJoins, Option.getD_none,
                Option.getD_some, List.mem_append, List.mem_singleton] at hother ⊢
              tauto
    rcases hcases with hold | rfl
    · exact h.conditions other hold
    · exact hfilter
  · unfold Plan.addFilter
    split <;> exact h.links

theorem Writable.addFilters (h : plan.Writable) {filters : List Filter}
    (hfilters : ∀ filter ∈ filters, filter.Harmless) :
    (filters.foldl Plan.addFilter plan).Writable := by
  induction filters generalizing plan with
  | nil => exact h
  | cons first rest ih =>
      rcases List.forall_mem_cons.1 hfilters with ⟨hfirst, hrest⟩
      exact ih (h.addFilter hfirst) hrest

/-- The links of a target compare columns. -/
theorem harmless_links {target : Target} {mapped : MappedTarget}
    (hmap : plan.mapTarget target = (next, .ok mapped)) :
    ∀ filter ∈ next.links, filter.Harmless := by
  intro filter hfilter
  cases target with
  | model target =>
      rw [(mapModel_eq hmap).2.1] at hfilter
      rcases MappingScope.mem_links_mapColumns hfilter with hold | ⟨pair, -, entry, -, -, rfl⟩
      · cases hold
      · exact Filter.harmless_verbatim _
  | plan sub =>
      rcases plan.mapPlan_result sub with ⟨errors, touched, query, hresult, -⟩
      have hnext : next = (plan.mapPlan sub).1 := (congrArg Prod.fst hmap).symm
      rw [hnext, hresult] at hfilter
      cases hfilter
  | raw target query =>
      rcases (mapRaw_result hmap).1 with ⟨touched, rfl⟩
      cases hfilter

theorem Writable.mapTarget (h : plan.Writable) {target : Target} {mapped : MappedTarget}
    (hmap : plan.mapTarget target = (next, .ok mapped)) (herrors : next.errors = []) :
    next.Writable := by
  have hmaps := maps_mapTarget hmap herrors
  refine ⟨?_, harmless_links hmap⟩
  rw [allConditions, allJoins, hmaps.conditions, hmaps.joins, hmaps.openJoin]
  exact h.conditions

theorem Writable.openJoinOn (h : plan.Writable) {kind : JoinKind} {target : Target}
    (herrors : (plan.openJoinOn kind target).errors = []) :
    (plan.openJoinOn kind target).Writable := by
  rcases mapTarget_of_openJoinOn herrors with ⟨next, mapped, hmap, hclean⟩
  have hclosed : plan.closeJoin.Writable := h.of_eq rfl (List.append_nil _) rfl
  have hmapped := hclosed.mapTarget hmap hclean
  have hmaps := maps_mapTarget hmap hclean
  rw [openJoinOn_of_ok hmap]
  refine ⟨?_, hmapped.links⟩
  -- the join that is opened has no conditions yet
  intro filter hfilter
  refine hmapped.conditions filter ?_
  have hopen : next.openJoin = none := hmaps.openJoin
  simpa [allConditions, allJoins, hopen] using hfilter

theorem Writable.addField (h : plan.Writable) (token : Token) :
    (plan.addField token).Writable := by
  unfold Plan.addField
  split
  · exact h.of_eq rfl rfl rfl
  · split
    · unfold openLazyJoin
      dsimp only
      rw [touch_eq]
      refine ⟨?_, h.links⟩
      intro filter hfilter
      simp only [allConditions, allJoins, List.flatMap_append, List.flatMap_singleton,
        List.mem_append, List.mem_singleton] at hfilter
      by_cases hold : filter ∈ plan.allConditions
      · exact h.conditions filter hold
      · -- the condition of the lazy join is SQL
        simp only [allConditions, allJoins, List.flatMap_append, List.mem_append] at hold
        have hnew : ∃ condition, filter = .verbatim condition := ⟨_, by tauto⟩
        rcases hnew with ⟨condition, rfl⟩
        exact Filter.harmless_verbatim condition
    · split <;> exact h.of_eq rfl rfl rfl

theorem Writable.addFields (h : plan.Writable) (tokens : List Token) :
    (tokens.foldl Plan.addField plan).Writable := by
  induction tokens generalizing plan with
  | nil => exact h
  | cons first rest ih => exact ih (h.addField first)

theorem Writable.apply (h : plan.Writable) {call : Call}
    (hconditions : ∀ filter ∈ call.conditions, filter.Harmless)
    (herrors : (plan.apply call).errors = []) : (plan.apply call).Writable := by
  cases call with
  | join kind target => exact h.openJoinOn herrors
  | startWhere =>
      refine ⟨?_, h.links⟩
      intro filter hfilter
      refine h.conditions filter (List.mem_append_right _ ?_)
      simpa [Plan.apply, startWhere, closeJoin, allConditions, allJoins] using hfilter
  | on filters => exact h.addOn hconditions
  | references => exact h.addReferences
  | filter filters => exact h.addFilters hconditions
  | assign token value =>
      show (plan.assign token value).Writable
      unfold assign
      split <;> exact h.of_eq rfl rfl rfl
  | orderBy operand direction =>
      show (plan.orderBy operand direction).Writable
      unfold orderBy
      split
      · exact h.of_eq rfl rfl rfl
      · split <;> exact h.of_eq rfl rfl rfl
  | groupBy token =>
      show (plan.groupBy token).Writable
      unfold groupBy
      split <;> exact h.of_eq rfl rfl rfl
  | discardOrder => exact h.of_eq rfl rfl rfl
  | limit count => exact h.of_eq rfl rfl rfl
  | offset count => exact h.of_eq rfl rfl rfl
  | fields tokens =>
      have hcleared : plan.unwanted.Writable := h.of_eq rfl rfl rfl
      exact hcleared.addFields tokens
  | addField token => exact h.addField token
  | withoutCache => exact h.of_eq rfl rfl rfl

end Plan

/-! ## Stages -/

namespace Stage

variable {stage next : Stage} {kind : CallKind} {action : Action}

/-- Whether the `WHERE` clause has begun and takes conditions. -/
def filters : Stage → Bool
  | .filtering | .updating => true
  | _ => false

/-- Conditions leave the stage that the begin of the `WHERE` clause leads to as it is. -/
theorem filters_of_after (h : stage.after? kind = some next) (hnext : next.filters) :
    kind = .startWhere ∨ stage.filters ∧ (kind = .filter ∨ kind = .withoutCache) := by
  cases stage <;> cases kind <;> cases h <;> first | decide | cases hnext

/-- The first assignment leads from the stages of a query to those of a write, and nothing leads
back. -/
theorem assigns_of_after (h : stage.after? kind = some next) (hnext : next.selects = false) :
    kind = .assign ∨ stage.selects = false := by
  cases stage <;> cases kind <;> cases h <;> first | decide | cases hnext

theorem assigns_of_offers (h : stage.offers action) (haction : action = .insert ∨ action = .update) :
    stage.selects = false := by
  rcases haction with rfl | rfl <;> cases stage <;> first | rfl | cases h

theorem joins_of_on (h : stage.after? kind = some next) (hkind : kind = .on ∨ kind = .references) :
    stage.joins := by
  rcases hkind with rfl | rfl <;> cases stage <;> first | rfl | cases h

end Stage

namespace Plan

variable {plan next : Plan}

theorem assignments_mapTarget {target : Target} {mapped : MappedTarget}
    (hmap : plan.mapTarget target = (next, .ok mapped)) :
    next.assignments = plan.assignments := by
  cases target with
  | model target =>
      rcases (mapModel_result hmap).1 with ⟨touched, rfl⟩
      rfl
  | plan sub =>
      rcases plan.mapPlan_result sub with ⟨errors, touched, query, hresult, -⟩
      have hnext : next = (plan.mapPlan sub).1 := (congrArg Prod.fst hmap).symm
      rw [hnext, hresult]
  | raw target query =>
      rcases (mapRaw_result hmap).1 with ⟨touched, rfl⟩
      rfl

theorem assignments_addOn (plan : Plan) (filters : List Filter) :
    (plan.addOn filters).assignments = plan.assignments := by
  unfold addOn
  split <;> rfl

theorem assignments_addFilters (filters : List Filter) (plan : Plan) :
    (filters.foldl addFilter plan).assignments = plan.assignments := by
  induction filters generalizing plan with
  | nil => rfl
  | cons first rest ih =>
      have hone : (plan.addFilter first).assignments = plan.assignments := by
        unfold addFilter
        split <;> rfl
      exact (ih (plan.addFilter first)).trans hone

theorem assignments_addFields (tokens : List Token) (plan : Plan) :
    (tokens.foldl addField plan).assignments = plan.assignments := by
  induction tokens generalizing plan with
  | nil => rfl
  | cons first rest ih =>
      have hone : (plan.addField first).assignments = plan.assignments := by
        unfold addField
        split
        · rfl
        · split
          · unfold openLazyJoin
            dsimp only
            rw [touch_eq]
          · split <;> rfl
      exact (ih (plan.addField first)).trans hone

/-- Only an assignment changes what is assigned. -/
theorem assignments_apply {call : Call} (herrors : (plan.apply call).errors = [])
    (hkind : call.kind ≠ .assign) : (plan.apply call).assignments = plan.assignments := by
  cases call with
  | join kind target =>
      rcases mapTarget_of_openJoinOn herrors with ⟨mappedPlan, mapped, hmap, -⟩
      have hmapped : mappedPlan.assignments = plan.closeJoin.assignments :=
        assignments_mapTarget hmap
      show (plan.openJoinOn kind target).assignments = plan.assignments
      rw [openJoinOn_of_ok hmap]
      exact hmapped
  | startWhere => rfl
  | on filters => exact plan.assignments_addOn filters
  | references =>
      show plan.addReferences.assignments = plan.assignments
      unfold addReferences
      split
      · rfl
      · exact assignments_addOn _ _
  | filter filters => exact assignments_addFilters filters plan
  | assign token value => exact absurd rfl hkind
  | orderBy operand direction =>
      show (plan.orderBy operand direction).assignments = plan.assignments
      unfold orderBy
      split
      · rfl
      · split <;> rfl
  | groupBy token =>
      show (plan.groupBy token).assignments = plan.assignments
      unfold groupBy
      split <;> rfl
  | discardOrder => rfl
  | limit count => rfl
  | offset count => rfl
  | fields tokens => exact assignments_addFields tokens plan.unwanted
  | addField token => exact assignments_addFields [token] plan
  | withoutCache => rfl

/-- An assignment that is not refused notes the column of its field. -/
theorem assign_eq {token : Token} {value : BindValue}
    (herrors : (plan.assign token value).errors = []) : ∃ column,
      plan.columns.bareColumn token = .ok column ∧ plan.assign token value =
        { plan with assignments := plan.assignments ++ [(column, value)] } := by
  unfold assign at herrors ⊢
  -- a field that cannot be assigned to leaves an error
  split at herrors
  · rename_i column hcolumn
    exact ⟨column, hcolumn, rfl⟩
  · exact absurd herrors (errors_fail _ _)

/-- What is assigned stays assigned, and an assignment that is refused leaves an error. -/
theorem assigned_apply {call : Call} (herrors : (plan.apply call).errors = [])
    (h : call.kind = .assign ∨ plan.assignments ≠ []) : (plan.apply call).assignments ≠ [] := by
  by_cases hkind : call.kind = .assign
  · cases call with
    | assign token value =>
        have hclean : (plan.assign token value).errors = [] := herrors
        rcases assign_eq hclean with ⟨column, -, hassigned⟩
        show (plan.assign token value).assignments ≠ []
        rw [hassigned]
        exact List.append_ne_nil_of_right_ne_nil _ (List.cons_ne_nil _ _)
    | _ => cases hkind
  · rw [assignments_apply herrors hkind]
    exact h.resolve_left hkind

/-- Once the `WHERE` clause has begun, conditions are added to it. -/
theorem begun_addFilters (filters : List Filter) (hopen : plan.openJoin = none)
    (hbegun : plan.conditions.isSome) : (filters.foldl addFilter plan).openJoin = none ∧
      (filters.foldl addFilter plan).conditions.isSome := by
  induction filters generalizing plan with
  | nil => exact ⟨hopen, hbegun⟩
  | cons first rest ih =>
      rcases Option.isSome_iff_exists.1 hbegun with ⟨conditions, hconditions⟩
      have hone : plan.addFilter first =
          { plan with conditions := some (conditions ++ [first]) } := by
        unfold addFilter
        rw [hconditions]
      rw [List.foldl_cons, hone]
      exact ih hopen rfl

end Plan

namespace Query

variable {query next : Query} {call : Call}

/-- What a stage says about a plan without errors. -/
structure Steady (query : Query) : Prop where
  table : query.plan.table.isSome
  ready : query.Ready
  begun : query.stage.filters → query.plan.openJoin = none ∧ query.plan.conditions.isSome
  writable : query.plan.Writable

/-- What a stage says about its plan. -/
structure Sound (query : Query) : Prop where
  blameless : query.plan.Blameless
  assigned : query.stage.selects = false →
    query.plan.assignments ≠ [] ∨ query.plan.errors ≠ []
  steady : query.plan.errors = [] → query.Steady

theorem sound_start {dialect : Dialect} {catalog : Catalog} {cacheable : Bool}
    {lazyJoins : List JoinRule} {target : Target} (htarget : target.Harmless) :
    (start dialect catalog cacheable lazyJoins target).Sound := by
  let empty : Plan :=
    { dialect := dialect, catalog := catalog, model := target.toModel.table, cacheable := cacheable
      lazyJoins := lazyJoins }
  have hempty : empty.Blameless := by
    rintro error ⟨⟩
  have hwritable : empty.Writable :=
    ⟨List.forall_mem_nil _, List.forall_mem_nil _⟩
  refine ⟨hempty.mapRoot htarget, nofun, fun herrors => ?_⟩
  rcases Plan.mapTarget_of_mapRoot herrors with ⟨mappedPlan, mapped, hmap, hclean⟩
  have hmaps := Plan.maps_mapTarget hmap hclean
  have hroot : (start dialect catalog cacheable lazyJoins target).plan = { mappedPlan with
      table := some mapped.table, quotedTable := mapped.quotedTable
      source := some mapped.source } := Plan.mapRoot_of_ok hmap
  -- the first stage promises neither an open join nor a `WHERE` clause
  refine ⟨?_, ⟨fun _ => ?_, nofun⟩, nofun, ?_⟩
  · rw [hroot]
    rfl
  · rw [hroot]
    exact hmaps.conditions
  · rw [hroot]
    exact (hwritable.mapTarget hmap hclean).of_eq rfl rfl rfl

theorem Steady.of_call (h : query.Steady) (hnext : query.call? call = some next)
    (hconditions : ∀ filter ∈ call.conditions, filter.Harmless)
    (herrors : next.plan.errors = []) : next.Steady := by
  rcases call?_eq_some.1 hnext with ⟨hstage, hplan⟩
  have hgrounds := (continues_call? hnext).grounds
  have htable : next.plan.table = query.plan.table := congrArg Grounds.table hgrounds
  refine ⟨by rw [htable]; exact h.table, h.ready.of_call hnext herrors, fun hfilters => ?_, ?_⟩
  · -- the `WHERE` clause begins with this call, or has begun before
    rcases Stage.filters_of_after hstage hfilters with hkind | ⟨hfiltered, hkind⟩
    · cases call with
      | startWhere =>
          rw [hplan]
          exact ⟨rfl, rfl⟩
      | _ => cases hkind
    · have hbegun := h.begun hfiltered
      rw [hplan]
      cases call with
      | filter filters => exact Plan.begun_addFilters filters hbegun.1 hbegun.2
      | withoutCache => exact hbegun
      | _ => rcases hkind with hkind | hkind <;> cases hkind
  · rw [hplan] at herrors ⊢
    exact h.writable.apply hconditions herrors

/-- One call keeps what the stages say. -/
theorem Sound.of_call (h : query.Sound) (hnext : query.call? call = some next)
    (htarget : ∀ target, call.target? = some target → target.Harmless)
    (hconditions : ∀ filter ∈ call.conditions, filter.Harmless) : next.Sound := by
  rcases call?_eq_some.1 hnext with ⟨hstage, hplan⟩
  have hcontinues := continues_call? hnext
  refine ⟨?_, fun hassigns => ?_, fun herrors => ?_⟩
  · -- conditions of a join are taken where the stage has one open
    rw [hplan]
    refine h.blameless.apply htarget fun hkind hclean => ?_
    exact (h.steady hclean).ready.openJoin (Stage.joins_of_on hstage hkind)
  · by_cases herrors : next.plan.errors = []
    · refine .inl ?_
      -- errors stay, so there were none before either
      have hclean : query.plan.errors = [] := hcontinues.errors_nil herrors
      have hbefore : call.kind = .assign ∨ query.plan.assignments ≠ [] :=
        (Stage.assigns_of_after hstage hassigns).imp_right fun hselects =>
          (h.assigned hselects).resolve_right (not_not.2 hclean)
      rw [hplan] at herrors ⊢
      exact Plan.assigned_apply herrors hbefore
    · exact .inr herrors
  · exact (h.steady (hcontinues.errors_nil herrors)).of_call hnext hconditions herrors

/-- What the stages say keeps a plan from being refused for an error that is ruled out. -/
theorem Sound.admissible (h : query.Sound) {action : Action}
    (haction : action = .insert ∨ action = .update → query.stage.selects = false) :
    Admissible (query.plan.statement action) :=
  Plan.admissible_statement h.blameless (fun hclean => (h.steady hclean).table)
    (fun hclean => (h.steady hclean).writable.conditions) fun hassigns =>
      h.assigned (haction hassigns)

end Query

/-! ## Runs -/

/-- The `SELECT` of a plan assigns nothing. -/
theorem Query.Sound.select {query : Query} (h : query.Sound) :
    Admissible query.plan.selectStatement := by
  have hreads : Action.select = .insert ∨ Action.select = .update →
      query.stage.selects = false := by
    rintro (haction | haction) <;> cases haction
  exact h.admissible hreads

mutual

theorem Query.Legal.sound : ∀ {query : Query}, query.Legal → query.Sound
  | _, .start h => Query.sound_start h.harmless
  | _, .call h htarget hconditions hnext =>
      h.sound.of_call hnext (fun target htaken => (htarget target htaken).harmless)
        fun filter hfilter => (hconditions filter hfilter).harmless

theorem Target.Legal.harmless : ∀ {target : Target}, target.Legal → target.Harmless
  | _, .model _ => trivial
  | _, .plan h => h.sound.select
  | _, .raw _ _ => trivial

theorem Filter.Legal.harmless : ∀ {filter : Filter}, filter.Legal → filter.Harmless
  | _, .and h => Filter.harmless_and fun filter hfilter => (h filter hfilter).harmless
  | _, .or h => Filter.harmless_or fun filter hfilter => (h filter hfilter).harmless
  | _, .not h => h.harmless.not
  | _, .inPlan operand h => Filter.harmless_inPlan h.sound.select operand
  | _, .single hsingle hplanted => Filter.harmless_of_planted hsingle hplanted

end

namespace Query.Legal

variable {query : Query}

/-- A run of legal calls. -/
theorem of_calls? (h : query.Legal) {calls : List Call} {next : Query}
    (htargets : ∀ call ∈ calls, ∀ target, call.target? = some target → target.Legal)
    (hconditions : ∀ call ∈ calls, ∀ filter ∈ call.conditions, filter.Legal)
    (hcalls : query.calls? calls = some next) : next.Legal := by
  induction calls generalizing query with
  | nil =>
      cases hcalls
      exact h
  | cons first rest ih =>
      rcases Option.bind_eq_some_iff.1 hcalls with ⟨middle, hmiddle, hrest⟩
      rcases List.forall_mem_cons.1 htargets with ⟨hfirst, htargets⟩
      rcases List.forall_mem_cons.1 hconditions with ⟨hadded, hconditions⟩
      exact ih (.call h hfirst hadded hmiddle) htargets hconditions hrest

/-- A write has something to assign or an error; without errors there is a table, and a join is open
or the `WHERE` clause has begun, as the stage says; so no action that the stage offers is ever
refused for want of a table, an open join or an assignment. -/
theorem keeps_stage (h : query.Legal) :
    (query.stage.selects = false → query.plan.assignments ≠ [] ∨ query.plan.errors ≠ []) ∧
      (query.plan.errors = [] →
        (query.stage.joins → query.plan.openJoin.isSome ∧ query.plan.conditions = none) ∧
          (query.stage.filters → query.plan.openJoin = none ∧ query.plan.conditions.isSome) ∧
            query.plan.table.isSome) ∧
        ∀ action, query.stage.offers action → ∀ error,
          query.plan.statement action = .error error → ¬ error.RuledOut := by
  have hsound := h.sound
  refine ⟨hsound.assigned, fun hclean => ?_, fun action hoffers error herror => ?_⟩
  · have hsteady := hsound.steady hclean
    refine ⟨fun hjoins => ?_, hsteady.begun, hsteady.table⟩
    exact ⟨hsteady.ready.openJoin hjoins,
      hsteady.ready.conditions (Stage.widened_of_joins hjoins)⟩
  · exact hsound.admissible (Stage.assigns_of_offers hoffers) error herror

/-- Run on a database, such a plan is refused for one of these errors only by the executor. -/
theorem finish_admissible (h : query.Legal) {σ β : Type} [Executor σ] [Cache.Backend β]
    (db : Database σ β) (out : List Json) {finalizer : Finalizer}
    (hoffers : query.stage.offers finalizer.action) {error : PlanError}
    (hanswer : (db.finish query.plan out finalizer).answer = .error (.plan error))
    (hruled : error.RuledOut) : ∃ statement,
      query.plan.statement finalizer.action = .ok statement ∧
        finalizer.Fails statement query.plan.dialect db.executor (.plan error) := by
  refine (Database.refused_of_finish hanswer).resolve_left fun hrefused => ?_
  exact h.sound.admissible (Stage.assigns_of_offers hoffers) error hrefused hruled

end Query.Legal

namespace Squads

/-- A team with players takes another key, if it is one of the teams. -/
def renumbering : List Call :=
  [.assign ⟨2⟩ (.int 7), .join .inner (.model (entered.1.target catalog)), .references, .startWhere,
    .filter [.inPlan (.field ⟨2⟩) start.plan]]

def renumbered : Query :=
  ⟨.updating, renumbering.foldl Plan.apply start.plan⟩

/-- The key is assigned, the join is closed and the `WHERE` clause has begun; nothing that is ruled out
keeps the update from being written. -/
theorem keeps_stage_renumbered :
    start.calls? renumbering = some renumbered ∧ renumbered.plan.assignments ≠ [] ∧
      renumbered.plan.openJoin = none ∧ renumbered.plan.conditions.isSome ∧
      renumbered.plan.table.isSome ∧
      ∀ error, renumbered.plan.statement .update = .error error → ¬ error.RuledOut := by
  have hstart : start.Legal := .start (.model _)
  have hcalls : start.calls? renumbering = some renumbered := rfl
  have htargets : ∀ call ∈ renumbering, ∀ target, call.target? = some target → target.Legal := by
    intro call hcall target htarget
    have hmodel : ∃ reference, target = .model reference := by
      simp only [renumbering, List.mem_cons, List.not_mem_nil, or_false] at hcall
      rcases hcall with rfl | rfl | rfl | rfl | rfl <;> cases htarget
      exact ⟨_, rfl⟩
    rcases hmodel with ⟨reference, rfl⟩
    exact .model reference
  have hconditions : ∀ call ∈ renumbering, ∀ filter ∈ call.conditions, filter.Legal := by
    intro call hcall filter hfilter
    have hmember : filter = .inPlan (.field ⟨2⟩) start.plan := by
      simp only [renumbering, List.mem_cons, List.not_mem_nil, or_false] at hcall
      rcases hcall with rfl | rfl | rfl | rfl | rfl <;>
        first | exact List.mem_singleton.1 hfilter | cases hfilter
    rw [hmember]
    exact .inPlan _ hstart
  have hlegal : renumbered.Legal := hstart.of_calls? htargets hconditions hcalls
  have hclean : renumbered.plan.errors = [] := rfl
  have hstage := hlegal.keeps_stage
  have hassigned := (hstage.1 rfl).resolve_right (not_not.2 hclean)
  rcases hstage.2.1 hclean with ⟨-, hfilters, htable⟩
  exact ⟨hcalls, hassigned, (hfilters rfl).1, (hfilters rfl).2, htable, hstage.2.2 .update rfl⟩

end Squads

end FieldQuery
