import FieldQuery.Proofs.Condition.Layout
import FieldQuery.Proofs.Database.Refusals

/-!
# Errors that a statement is never refused for

Three errors have a place in the code that builds and writes plans, and no legal run of calls leads
there: a plan without a table, conditions for a join that is not open, and an insert or update that
assigns nothing.  Writing a statement passes on the errors of its parts, and the parts look fields
up, which fails otherwise.  What is left are the errors that a caller plants in a condition.

Main definitions:

- `PlanError.RuledOut`: the three errors.
- `Admissible`: a result that is none of them.
- `Filter.Harmless`: a condition that is never refused for one of them.

Main statement: `Plan.admissible_statement`.
-/

namespace FieldQuery

/-- The errors that legal calls do not lead to, by their texts. -/
def PlanError.RuledOut : PlanError → Prop
  | .mapping problem => problem.message = MappingProblem.noTable.message
  | .malformedJoin problem => problem.message = JoinProblem.notOpen.message
  | .noAssignments _ => True
  | _ => False

instance : DecidablePred PlanError.RuledOut
  | .mapping problem => inferInstanceAs (Decidable (problem.message = _))
  | .malformedJoin problem => inferInstanceAs (Decidable (problem.message = _))
  | .noAssignments _ => .isTrue trivial
  | .unresolvedField _ | .transientField _ | .invalidOrderDirection _ | .orderWithoutField =>
    .isFalse id

namespace PlanError

/-- The text that is ruled out begins with another letter. -/
theorem not_ruledOut_mapping {problem : MappingProblem} (letter : Char)
    (h : problem.message.toList.head? = some letter) (hletter : letter ≠ 'p') :
    ¬ (PlanError.mapping problem).RuledOut := by
  intro hsame
  rw [show problem.message = MappingProblem.noTable.message from hsame] at h
  cases h
  exact hletter rfl

theorem not_ruledOut_fieldCount (table : String) (fields columns : Nat) :
    ¬ (PlanError.mapping (.fieldCount table fields columns)).RuledOut := by
  -- the names in the text stand behind its beginning
  refine not_ruledOut_mapping 'r' ?_ (by decide)
  show ("reference for `" ++ table ++ "` has " ++ toString fields ++ " fields but the table has " ++
    toString columns ++ " columns").toList.head? = some 'r'
  simp only [String.toList_append, List.head?_append]
  rfl

theorem not_ruledOut_nothingQueryable (table : String) :
    ¬ (PlanError.mapping (.nothingQueryable table)).RuledOut := by
  refine not_ruledOut_mapping 'n' ?_ (by decide)
  show ("no fields in `" ++ table ++ "` are queryable").toList.head? = some 'n'
  simp only [String.toList_append, List.head?_append]
  rfl

theorem not_ruledOut_nothingReturned (table : String) :
    ¬ (PlanError.mapping (.nothingReturned table)).RuledOut := by
  refine not_ruledOut_mapping 's' ?_ (by decide)
  show ("sub-query for `" ++ table ++ "` returns none of its columns").toList.head? = some 's'
  simp only [String.toList_append, List.head?_append]
  rfl

end PlanError

/-- A result, or an error that is not ruled out. -/
def Admissible {α : Type} (result : Except PlanError α) : Prop :=
  ∀ error, result = .error error → ¬ error.RuledOut

section Results

variable {α β : Type} {first : Except PlanError α}

theorem admissible_ok (value : α) : Admissible (.ok value) := by
  intro error h
  cases h

theorem admissible_error {error : PlanError} (h : ¬ error.RuledOut) :
    Admissible (.error error : Except PlanError α) := by
  intro other heq
  cases heq
  exact h

theorem Admissible.bind {next : α → Except PlanError β} (h : Admissible first)
    (hnext : ∀ value, first = .ok value → Admissible (next value)) :
    Admissible (first >>= next) := by
  cases first with
  | error error => exact admissible_error (h error rfl)
  | ok value => exact hnext value rfl

theorem Admissible.map (h : Admissible first) (f : α → β) : Admissible (first.map f) := by
  intro error herror
  exact h error (eq_error_of_map herror)

end Results

/-! ## Fields -/

theorem ColumnMap.admissible_queryable (columns : ColumnMap) (token : Token) :
    Admissible (columns.queryable token) := by
  unfold queryable locate
  cases columns.find? token with
  | none => exact admissible_error id
  | some entry =>
      cases htransient : entry.column.transient with
      | true => simpa [htransient] using admissible_error id
      | false => simpa [htransient] using admissible_ok entry

theorem ColumnMap.admissible_qualifiedColumn (columns : ColumnMap) (token : Token) :
    Admissible (columns.qualifiedColumn token) :=
  (columns.admissible_queryable token).map _

theorem ColumnMap.admissible_bareColumn (columns : ColumnMap) (token : Token) :
    Admissible (columns.bareColumn token) :=
  (columns.admissible_queryable token).map _

namespace Operand

mutual

theorem admissible_render (columns : ColumnMap) : ∀ operand : Operand,
    Admissible (operand.render columns)
  | .field token => by
      rw [render]
      exact (columns.admissible_qualifiedColumn token).map _
  | .value v => by
      rw [render]
      exact admissible_ok _
  | .wrapped template operands => by
      rw [render]
      exact (admissible_renderMarks columns operands _).bind fun _ _ => admissible_ok _

theorem admissible_renderMarks (columns : ColumnMap) : ∀ (operands : List Operand)
    (parts : List String), Admissible (renderMarks columns operands parts)
  | _, [] => by
      rw [renderMarks]
      exact admissible_ok _
  | [], _ :: _ => by
      rw [renderMarks]
      · exact admissible_ok _
      · simp
  -- an operand between two parts of the template
  | operand :: operands, part :: parts => by
      rw [renderMarks]
      refine (admissible_render columns operand).bind fun _ _ => ?_
      exact (admissible_renderMarks columns operands parts).bind fun _ _ => admissible_ok _

end

end Operand

/-! ## Conditions -/

namespace Filter

/-- Wherever the condition is written, no error is met that is ruled out. -/
def Harmless (filter : Filter) : Prop :=
  ∀ columns, Admissible (filter.render columns)

theorem admissible_renderEach {filters : List Filter} (h : ∀ filter ∈ filters, filter.Harmless)
    (columns : ColumnMap) : Admissible (renderEach columns filters) := by
  induction filters with
  | nil =>
      rw [renderEach]
      exact admissible_ok _
  | cons first rest ih =>
      -- the first error of the list is that of its first condition, or of the rest
      rcases List.forall_mem_cons.1 h with ⟨hfirst, hrest⟩
      rw [renderEach]
      exact (hfirst columns).bind fun _ _ => (ih hrest).bind fun _ _ => admissible_ok _

/-- A list of conditions is refused for what one of them is refused for. -/
theorem harmless_group {group : List Filter → Filter} {separator : String} {empty : Statement}
    (hgroup : ∀ columns, WritesGroup columns group separator empty) {filters : List Filter}
    (h : ∀ filter ∈ filters, filter.Harmless) : (group filters).Harmless := by
  intro columns
  match filters, h with
  | [], _ =>
      rw [(hgroup columns).none]
      exact admissible_ok _
  | [only], h =>
      rw [(hgroup columns).one]
      exact h only List.mem_cons_self columns
  | first :: second :: rest, h =>
      rw [(hgroup columns).many]
      exact (admissible_renderEach h columns).map _

theorem harmless_and {filters : List Filter} (h : ∀ filter ∈ filters, filter.Harmless) :
    (Filter.and filters).Harmless :=
  harmless_group writesGroup_and h

theorem harmless_or {filters : List Filter} (h : ∀ filter ∈ filters, filter.Harmless) :
    (Filter.or filters).Harmless :=
  harmless_group writesGroup_or h

theorem Harmless.not {filter : Filter} (h : filter.Harmless) : (Filter.not filter).Harmless := by
  intro columns
  rw [render]
  exact (h columns).bind fun _ _ => admissible_ok _

theorem harmless_verbatim (condition : String) : (Filter.verbatim condition).Harmless := by
  intro columns
  rw [render]
  exact admissible_ok _

theorem harmless_inQuery (operand : Operand) (query : Statement) :
    (Filter.inQuery operand query).Harmless := by
  intro columns
  rw [render]
  exact (operand.admissible_render columns).bind fun _ _ => admissible_ok _

end Filter

/-! ## Planted errors -/

/-- The errors that a caller plants in a condition; one that is written by hand may fail in some
column maps only. -/
def Filter.planted : Filter → Set PlanError
  | .invalid error => {error}
  | .custom steps => {error | ∃ columns, .fail error ∈ steps columns}
  | _ => ∅

/-- A condition that holds no other conditions. -/
def Filter.Single : Filter → Prop
  | .and _ | .or _ | .not _ => False
  | _ => True

theorem Fragment.admissible_render {fragment : Fragment}
    (h : ∀ error, .fail error = fragment → ¬ error.RuledOut) (columns : ColumnMap) :
    Admissible (fragment.render columns) := by
  cases fragment with
  | sql text => exact admissible_ok _
  | value value => exact admissible_ok _
  | qualifiedColumn token => exact (columns.admissible_qualifiedColumn token).map _
  | bareColumn token => exact (columns.admissible_bareColumn token).map _
  | fail error => exact admissible_error (h error rfl)

theorem Fragment.admissible_renderAll {fragments : List Fragment}
    (h : ∀ error, .fail error ∈ fragments → ¬ error.RuledOut) (columns : ColumnMap) :
    Admissible (Fragment.renderAll columns fragments) := by
  induction fragments with
  | nil => exact admissible_ok _
  | cons first rest ih =>
      have hfirst : Admissible (first.render columns) :=
        first.admissible_render (fun error herror => h error (List.mem_cons.2 (.inl herror))) columns
      have hrest : Admissible (Fragment.renderAll columns rest) :=
        ih fun error herror => h error (List.mem_cons_of_mem first herror)
      exact hfirst.bind fun _ _ => hrest.bind fun _ _ => admissible_ok _

/-- What a caller plants in a condition is all that it can be refused for, besides its fields. -/
theorem Filter.harmless_of_planted {filter : Filter} (hsingle : filter.Single)
    (h : ∀ error ∈ filter.planted, ¬ error.RuledOut) : filter.Harmless := by
  intro columns
  cases filter with
  | and filters => cases hsingle
  | or filters => cases hsingle
  | not filter => cases hsingle
  | verbatim condition => exact harmless_verbatim condition columns
  | inQuery operand query => exact harmless_inQuery operand query columns
  | compare left comparison right =>
      rw [render]
      exact (left.admissible_render columns).bind fun _ _ =>
        (right.admissible_render columns).bind fun _ _ => admissible_ok _
  | null operand negated =>
      rw [render]
      exact (operand.admissible_render columns).bind fun _ _ => admissible_ok _
  | truth operand negated =>
      rw [render]
      exact (operand.admissible_render columns).bind fun _ _ => admissible_ok _
  | inList operand values =>
      cases values with
      | nil =>
          rw [render]
          exact admissible_ok _
      | cons value rest =>
          rw [render]
          · exact (operand.admissible_render columns).bind fun _ _ => admissible_ok _
          · simp
  | invalid error =>
      rw [render]
      exact admissible_error (h error rfl)
  | custom steps =>
      rw [render]
      exact Fragment.admissible_renderAll (fun error herror => h error ⟨columns, herror⟩) columns

/-- Membership in a plan is refused for what the plan is refused for. -/
theorem Filter.harmless_inPlan {sub : Plan} (h : Admissible sub.selectStatement)
    (operand : Operand) : (Filter.inPlan operand sub).Harmless := by
  intro columns
  unfold Filter.inPlan
  cases herrors : sub.errors with
  -- a plan with errors is refused for the first of them
  | cons error rest =>
      have hrefused : sub.selectStatement = .error error :=
        Plan.statement_of_errors (by rw [herrors]; rfl) .select
      simpa [render] using admissible_error (h error hrefused)
  | nil =>
      cases hquery : sub.selectStatement with
      | error error => simpa [render] using admissible_error (h error hquery)
      | ok query => exact harmless_inQuery operand query columns

/-! ## Statements -/

namespace Plan

variable {plan : Plan}

theorem admissible_joinClauses {joins : List JoinClause}
    (h : ∀ filter ∈ joins.flatMap (·.on), filter.Harmless) (columns : ColumnMap) :
    Admissible (joinClauses columns joins) := by
  induction joins with
  | nil => exact admissible_ok _
  | cons join rest ih =>
      rw [List.flatMap_cons] at h
      rcases List.forall_mem_append.1 h with ⟨hjoin, hrest⟩
      have hclause : Admissible (join.render columns) :=
        (Filter.harmless_and hjoin columns).bind fun _ _ => admissible_ok _
      exact hclause.bind fun _ _ => (ih hrest).bind fun _ _ => admissible_ok _

theorem admissible_whereClause {filters : List Filter} (h : ∀ filter ∈ filters, filter.Harmless)
    (columns : ColumnMap) : Admissible (whereClause columns filters) := by
  unfold whereClause
  split
  · exact admissible_ok _
  · exact (Filter.harmless_and h columns).map _

theorem admissible_orderTerms (columns : ColumnMap) (terms : List OrderTerm) :
    Admissible (orderTerms columns terms) := by
  induction terms with
  | nil => exact admissible_ok _
  | cons term rest ih =>
      exact (term.operand.admissible_render columns).bind fun _ _ =>
        ih.bind fun _ _ => admissible_ok _

theorem admissible_orderClause (plan : Plan) : Admissible plan.orderClause := by
  unfold orderClause
  split
  · exact admissible_ok _
  · exact (admissible_orderTerms _ _).map _

theorem admissible_queryClauses (h : ∀ filter ∈ plan.allConditions, filter.Harmless) :
    Admissible plan.queryClauses := by
  -- the clauses are written one after the other, each with conditions of its own
  rcases List.forall_mem_append.1 h with ⟨hwhere, hjoins⟩
  refine (admissible_joinClauses hjoins plan.columns).bind fun _ _ => ?_
  refine (admissible_whereClause hwhere plan.columns).bind fun _ _ => ?_
  exact plan.admissible_orderClause.bind fun _ _ => admissible_ok _

theorem admissible_foldedWhere (h : ∀ filter ∈ plan.allConditions, filter.Harmless) :
    Admissible plan.foldedWhere :=
  admissible_whereClause h plan.columns

/-- The first error of a plan is not ruled out. -/
def Blameless (plan : Plan) : Prop :=
  ∀ error, plan.errors.head? = some error → ¬ error.RuledOut

theorem admissible_check (h : plan.Blameless) (htable : plan.errors = [] → plan.table.isSome) :
    Admissible plan.check := by
  cases herrors : plan.errors with
  | cons error rest =>
      have hfirst : plan.errors.head? = some error := by rw [herrors]; rfl
      rw [check_of_errors hfirst]
      exact admissible_error (h error hfirst)
  | nil =>
      rcases Option.isSome_iff_exists.1 (htable herrors) with ⟨table, hsome⟩
      simpa [check, herrors, hsome] using admissible_ok table

/-- What a statement may be refused for, as long as a plan without errors has a table and harmless
conditions, and something is assigned where the statement needs it. -/
theorem admissible_statement (h : plan.Blameless) (htable : plan.errors = [] → plan.table.isSome)
    (hconditions : plan.errors = [] → ∀ filter ∈ plan.allConditions, filter.Harmless)
    {action : Action} (hassigned : action = .insert ∨ action = .update →
      plan.assignments ≠ [] ∨ plan.errors ≠ []) : Admissible (plan.statement action) := by
  have hcheck : Admissible plan.check := admissible_check h htable
  -- behind the check there are no errors
  have hclean : ∀ {table : Table}, plan.check = .ok table → plan.errors = [] := by
    intro table hok
    cases herrors : plan.errors with
    | nil => rfl
    | cons first rest => simp [check, herrors] at hok
  cases action with
  | select =>
      refine hcheck.bind fun table hok => ?_
      split
      · exact admissible_error (by decide)
      · have hclauses := admissible_queryClauses (hconditions (hclean hok))
        exact hclauses.bind fun _ _ => admissible_ok _
  | count =>
      refine hcheck.bind fun table hok => ?_
      have hclauses := admissible_queryClauses (hconditions (hclean hok))
      exact hclauses.bind fun _ _ => admissible_ok _
  | insert =>
      refine hcheck.bind fun table hok => ?_
      -- without errors it is the assignments that are there
      have hsome : plan.assignments ≠ [] :=
        (hassigned (.inl rfl)).resolve_right (not_not.2 (hclean hok))
      split
      · rename_i hnil
        exact absurd hnil hsome
      · exact admissible_ok _
  | update =>
      refine hcheck.bind fun table hok => ?_
      have hsome : plan.assignments ≠ [] :=
        (hassigned (.inr rfl)).resolve_right (not_not.2 (hclean hok))
      split
      · rename_i hnil
        exact absurd hnil hsome
      · -- the conditions of the joins are written with those of the clause
        have hfolded := admissible_foldedWhere (hconditions (hclean hok))
        exact hfolded.bind fun _ _ => admissible_ok _
  | delete =>
      refine hcheck.bind fun table hok => ?_
      have hfolded := admissible_foldedWhere (hconditions (hclean hok))
      exact hfolded.bind fun _ _ => admissible_ok _
  | truncate => exact hcheck.bind fun _ _ => admissible_ok _

end Plan

end FieldQuery
