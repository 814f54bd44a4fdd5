import FieldQuery.Proofs.Condition.Clauses
import FieldQuery.Proofs.Plan.Blanks

/-!
# What a plan is accepted for

A statement is refused for the errors of its plan, for what the action lacks, or for the first demand
of its clauses that cannot be met.  None of this looks at a value, but for one thing: the fields of a
list are demanded only if the list has values.  So plans that are built by the same calls and differ
in their data only are accepted or refused alike, except where only one of them has values in a list
whose fields cannot be written.

Main definitions:

- `Plan.demands`, `Plan.missing?`: what a statement cannot be written without.
- `Query.Parallel`: built by the same calls, with other data.
- `Plan.Settles`: lists that only one of two plans has values in, and fields that can be written.

Main statements: `Plan.refusal_statement` and `Query.Parallel.accepted`.
-/

namespace FieldQuery

/-! ## Refusals of a statement -/

namespace Plan

/-- What the clauses of a `SELECT` or a count demand, in order. -/
def queryDemands (plan : Plan) : List Demand :=
  (plan.allJoins.flatMap (·.on)).flatMap (Filter.demands plan.columns) ++
    (plan.conditions.getD []).flatMap (Filter.demands plan.columns) ++
    plan.order.map (·.operand.demand)

/-- What the clauses of the statement for an action demand, in order. -/
def demands (plan : Plan) : Action → List Demand
  | .select | .count => plan.queryDemands
  | .update | .delete => plan.folded.flatMap (Filter.demands plan.columns)
  | .insert | .truncate => []

/-- What there must be for an action, whatever the clauses. -/
def missing? (plan : Plan) : Action → Option PlanError
  | .select => if plan.columns.selected.isEmpty then some (.mapping .nothingSelected) else none
  | .insert => if plan.assignments.isEmpty then some (.noAssignments "INSERT") else none
  | .update => if plan.assignments.isEmpty then some (.noAssignments "UPDATE") else none
  | .count | .delete | .truncate => none

variable (plan : Plan) {columns : ColumnMap}

theorem refusal_joinClauses (joins : List JoinClause) :
    refusal (joinClauses columns joins) =
      Demand.firstRefusal columns ((joins.flatMap (·.on)).flatMap (Filter.demands columns)) := by
  induction joins with
  | nil => rfl
  | cons join rest ih =>
      rw [List.flatMap_cons, List.flatMap_append, Demand.firstRefusal_append, ← ih,
        ← Filter.refusal_render_and]
      have hclause : refusal (join.render columns) =
          refusal ((Filter.and join.on).render columns) := refusal_bind_ok _ _
      rw [← hclause]
      exact refusal_bind fun written => refusal_bind_ok _ _

theorem refusal_whereClause (filters : List Filter) :
    refusal (whereClause columns filters) =
      Demand.firstRefusal columns (filters.flatMap (Filter.demands columns)) := by
  cases filters with
  | nil => rfl
  | cons first rest =>
      rw [whereClause, refusal_map, Filter.refusal_render_and]
      exact List.cons_ne_nil _ _

theorem refusal_orderTerms (terms : List OrderTerm) :
    refusal (orderTerms columns terms) =
      Demand.firstRefusal columns (terms.map (·.operand.demand)) := by
  induction terms with
  | nil => rfl
  | cons term rest ih =>
      rw [List.map_cons, Demand.firstRefusal_cons, Operand.refusal_demand, ← ih]
      exact refusal_bind fun written => refusal_bind_ok _ _

theorem refusal_orderClause :
    refusal plan.orderClause =
      Demand.firstRefusal plan.columns (plan.order.map (·.operand.demand)) := by
  unfold orderClause
  split
  · rename_i hnone
    rw [hnone]
    rfl
  · rw [refusal_map, refusal_orderTerms]

theorem refusal_queryClauses :
    refusal plan.queryClauses = Demand.firstRefusal plan.columns plan.queryDemands := by
  rw [queryDemands, Demand.firstRefusal_append, Demand.firstRefusal_append, Option.or_assoc,
    ← refusal_joinClauses, ← refusal_whereClause, ← refusal_orderClause]
  exact refusal_bind fun joins => refusal_bind fun conditions => refusal_bind_ok _ _

theorem refusal_foldedWhere :
    refusal plan.foldedWhere =
      Demand.firstRefusal plan.columns (plan.folded.flatMap (Filter.demands plan.columns)) :=
  refusal_whereClause plan.folded

/-- A statement is refused for an error of its plan, for what the action lacks, or for the first
demand of its clauses that cannot be met. -/
theorem refusal_statement (action : Action) :
    refusal (plan.statement action) =
      (refusal plan.check).or
        ((plan.missing? action).or (Demand.firstRefusal plan.columns (plan.demands action))) := by
  cases action with
  | select =>
      refine refusal_bind fun table => ?_
      cases hselected : plan.columns.selected with
      | nil => simp [missing?, hselected, throw, throwThe, MonadExceptOf.throw]
      | cons entry rest =>
          rw [missing?, hselected]
          exact (refusal_bind_ok _ _).trans plan.refusal_queryClauses
  | count => exact refusal_bind fun table => (refusal_bind_ok _ _).trans plan.refusal_queryClauses
  | insert =>
      refine refusal_bind fun table => ?_
      cases hassigned : plan.assignments with
      | nil => simp [missing?, hassigned, throw, throwThe, MonadExceptOf.throw]
      | cons first rest =>
          rw [missing?, hassigned]
          rfl
  | update =>
      refine refusal_bind fun table => ?_
      cases hassigned : plan.assignments with
      | nil => simp [missing?, hassigned, throw, throwThe, MonadExceptOf.throw]
      | cons first rest =>
          rw [missing?, hassigned]
          exact (refusal_bind_ok _ _).trans plan.refusal_foldedWhere
  | delete => exact refusal_bind fun table => (refusal_bind_ok _ _).trans plan.refusal_foldedWhere
  | truncate => exact refusal_bind fun table => rfl

end Plan

/-! ## Demands without data -/

namespace Operand

mutual

theorem asked_blank : ∀ operand : Operand, operand.blank.asked = operand.asked
  | .field token => by rw [blank]
  | .value v => by rw [blank, asked, asked]
  | .wrapped template operands => by rw [blank, asked, asked, askedOfFirst_blankAll]

theorem askedOfFirst_blankAll : ∀ (operands : List Operand) (count : Nat),
    askedOfFirst (blankAll operands) count = askedOfFirst operands count
  | _, 0 => by rw [askedOfFirst, askedOfFirst]
  | [], _ + 1 => by rw [blankAll]
  | operand :: operands, count + 1 => by
      rw [blankAll, askedOfFirst, askedOfFirst, asked_blank, askedOfFirst_blankAll]

end

theorem demand_blank (operand : Operand) : operand.blank.demand = operand.demand := by
  rw [demand, asked_blank, demand]

end Operand

namespace Filter

variable (columns : ColumnMap)

/-- The demands of a condition whose lists all have values. -/
abbrev insisted (filter : Filter) : List Demand :=
  (filter.demands columns).map Demand.insist

mutual

/-- But for the lists that have values, what a condition demands is told without its data. -/
theorem insisted_blank : ∀ filter : Filter,
    filter.blank.insisted columns = filter.insisted columns
  | .and filters => by rw [insisted, insisted, blank, demands, demands, insistedOf_blankAll]
  | .or filters => by rw [insisted, insisted, blank, demands, demands, insistedOf_blankAll]
  | .not filter => by
      rw [insisted, insisted, blank, demands, demands]
      exact insisted_blank filter
  | .compare left comparison right => by
      rw [insisted, insisted, blank, demands, demands, left.demand_blank, right.demand_blank]
  | .null operand negated => by
      rw [insisted, insisted, blank, demands, demands, operand.demand_blank]
  | .truth operand negated => by
      rw [insisted, insisted, blank, demands, demands, operand.demand_blank]
  | .inList operand values => by
      rw [insisted, insisted, blank, demands, demands, operand.asked_blank]
      rfl
  | .inQuery operand query => by
      rw [insisted, insisted, blank, demands, demands, operand.demand_blank]
  | .verbatim condition => by rw [blank]
  | .invalid error => by rw [blank]
  | .custom steps => by
      have hfragment : ∀ fragment : Fragment, fragment.blank.demand? = fragment.demand? := by
        intro fragment
        cases fragment <;> rfl
      rw [insisted, insisted, blank, demands, demands, List.flatMap_map]
      simp only [hfragment]

theorem insistedOf_blankAll : ∀ filters : List Filter,
    (demandsOf columns (blankAll filters)).map Demand.insist =
      (demandsOf columns filters).map Demand.insist
  | [] => by rw [blankAll]
  | filter :: filters => by
      have hfirst := insisted_blank filter
      rw [blankAll, demandsOf, demandsOf, List.map_append, List.map_append,
        insistedOf_blankAll filters]
      exact congrArg (· ++ _) hfirst

end

theorem insisted_map_blank (filters : List Filter) :
    ((filters.map (·.blank)).flatMap (demands columns)).map Demand.insist =
      (filters.flatMap (demands columns)).map Demand.insist := by
  rw [← blankAll_eq, ← demandsOf_eq, ← demandsOf_eq, insistedOf_blankAll]

end Filter

namespace Plan

variable (plan : Plan)

theorem on_blank : plan.blank.allJoins.flatMap (·.on) =
    (plan.allJoins.flatMap (·.on)).map (·.blank) := by
  have hjoins : plan.blank.allJoins = plan.allJoins.map (·.blank) :=
    congrArg Plan.joins plan.closeJoin_blank
  rw [hjoins, List.flatMap_map, List.map_flatMap]
  rfl

theorem conditions_blank : plan.blank.conditions.getD [] =
    (plan.conditions.getD []).map (·.blank) := by
  show (plan.conditions.map (·.map (·.blank))).getD [] = _
  cases plan.conditions <;> rfl

theorem insist_demands_blank (action : Action) :
    (plan.blank.demands action).map Demand.insist = (plan.demands action).map Demand.insist := by
  have hquery : plan.blank.queryDemands.map Demand.insist =
      plan.queryDemands.map Demand.insist := by
    have horder : plan.blank.order.map (·.operand.demand) = plan.order.map (·.operand.demand) := by
      show (plan.order.map (·.blank)).map _ = _
      rw [List.map_map]
      exact List.map_congr_left fun term _ => term.operand.demand_blank
    have hcolumns : plan.blank.columns = plan.columns := rfl
    simp only [queryDemands, List.map_append, on_blank, conditions_blank, hcolumns, horder,
      Filter.insisted_map_blank]
  have hfolded : (plan.blank.folded.flatMap (Filter.demands plan.columns)).map Demand.insist =
      (plan.folded.flatMap (Filter.demands plan.columns)).map Demand.insist := by
    have hconditions : plan.blank.folded = plan.folded.map (·.blank) := by
      rw [folded, folded, on_blank, conditions_blank, List.map_append]
    rw [hconditions, Filter.insisted_map_blank]
  cases action with
  | select => exact hquery
  | count => exact hquery
  | update => exact hfolded
  | delete => exact hfolded
  | insert => rfl
  | truncate => rfl

theorem missing?_blank (action : Action) : plan.blank.missing? action = plan.missing? action := by
  have hassigned : plan.blank.assignments.isEmpty = plan.assignments.isEmpty := List.isEmpty_map
  cases action with
  | insert => exact congrArg (fun empty : Bool => if empty then _ else _) hassigned
  | update => exact congrArg (fun empty : Bool => if empty then _ else _) hassigned
  | _ => rfl

/-- Wherever only one of two plans has values in a list, the fields of the list can be written. -/
def Settles (plan other : Plan) (action : Action) : Prop :=
  ∀ pair ∈ (plan.demands action).zip (other.demands action), pair.1 ≠ pair.2 →
    pair.1.insist.refusal? plan.columns = none

end Plan

/-! ## Demands that differ in the lists that have values -/

namespace Demand

variable {columns : ColumnMap} {demands others : List Demand}

theorem eq_or_insist {demand other : Demand} (h : demand.insist = other.insist) :
    demand = other ∨ demand = demand.insist ∨ other = demand.insist := by
  rcases demand with ⟨tokens, _ | _⟩ | error
  · rcases other with ⟨fields, _ | _⟩ | error
    · cases h
      exact .inl rfl
    · exact .inr (.inr h.symm)
    · cases h
  · exact .inr (.inl rfl)
  · exact .inr (.inl rfl)

/-- Where one list has values and the other has none, both are accepted if the fields can be
written. -/
theorem firstRefusal_of_settled
    (h : List.Forall₂ (fun demand other => insist demand = insist other) demands others)
    (hsettled : ∀ pair ∈ demands.zip others, pair.1 ≠ pair.2 →
      pair.1.insist.refusal? columns = none) :
    firstRefusal columns demands = firstRefusal columns others := by
  induction h with
  | nil => rfl
  | @cons demand other demands others hfirst hrest ih =>
      rw [List.zip_cons_cons, List.forall_mem_cons] at hsettled
      have hhead : demand.refusal? columns = other.refusal? columns := by
        by_cases hsame : demand = other
        · rw [hsame]
        · have hmet := hsettled.1 hsame
          rw [refusal?_insist hmet, refusal?_insist (hfirst ▸ hmet)]
      rw [firstRefusal_cons, firstRefusal_cons, hhead, ih hsettled.2]

/-- If the one is accepted, the other one is just if the fields of its lists can be written. -/
theorem firstRefusal_eq_none_iff
    (h : List.Forall₂ (fun demand other => insist demand = insist other) demands others)
    (haccepted : firstRefusal columns demands = none) :
    firstRefusal columns others = none ↔ ∀ pair ∈ demands.zip others, pair.1 ≠ pair.2 →
      pair.1.insist.refusal? columns = none := by
  refine ⟨fun hothers pair hpair happart => ?_, fun hsettled => ?_⟩
  · have hmet := firstRefusal_eq_none.1 haccepted pair.1 (List.of_mem_zip hpair).1
    have hother := firstRefusal_eq_none.1 hothers pair.2 (List.of_mem_zip hpair).2
    -- one of the two lists has values
    rcases eq_or_insist ((List.forall₂_iff_zip.1 h).2 hpair) with hsame | hfirst | hsecond
    · exact absurd hsame happart
    · rwa [← hfirst]
    · rwa [← hsecond]
  · rw [← firstRefusal_of_settled h hsettled, haccepted]

end Demand

namespace Plan

variable {plan other : Plan}

theorem insist_demands_of_blank (h : plan.blank = other.blank) (action : Action) :
    List.Forall₂ (fun demand other => Demand.insist demand = Demand.insist other)
      (plan.demands action) (other.demands action) := by
  have hdemands := plan.insist_demands_blank action
  rw [h, other.insist_demands_blank action] at hdemands
  have hforall := List.forall₂_eq_eq_eq ▸ hdemands.symm
  rw [List.forall₂_map_left_iff, List.forall₂_map_right_iff] at hforall
  exact hforall

/-- What a statement is refused for apart from its clauses is told without the data. -/
theorem refusal_statement_of_blank (h : plan.blank = other.blank) (action : Action) :
    refusal (other.statement action) = (refusal plan.check).or ((plan.missing? action).or
      (Demand.firstRefusal plan.columns (other.demands action))) := by
  have hcheck : plan.check = other.check := (congrArg check h :)
  have hmissing : plan.missing? action = other.missing? action := by
    rw [← missing?_blank, h, missing?_blank]
  have hcolumns : plan.columns = other.columns := (congrArg columns h :)
  rw [refusal_statement, hcheck, hmissing, hcolumns]

theorem refusal_of_blank (h : plan.blank = other.blank) {action : Action}
    (hsettles : plan.Settles other action) :
    refusal (plan.statement action) = refusal (other.statement action) := by
  rw [refusal_statement, refusal_statement_of_blank h,
    Demand.firstRefusal_of_settled (insist_demands_of_blank h action) hsettles]

theorem settles_of_blank (h : plan.blank = other.blank) {action : Action}
    (haccepted : refusal (plan.statement action) = none) :
    refusal (other.statement action) = none ↔ plan.Settles other action := by
  rw [refusal_statement, Option.or_eq_none_iff, Option.or_eq_none_iff] at haccepted
  rcases haccepted with ⟨hcheck, hmissing, hdemands⟩
  rw [refusal_statement_of_blank h, hcheck, hmissing, Option.none_or, Option.none_or]
  exact Demand.firstRefusal_eq_none_iff (insist_demands_of_blank h action) hdemands

/-- A demand that cannot be met is enough to be refused. -/
theorem refusal_statement_of_demand {action : Action} {demand : Demand}
    (hdemand : demand ∈ plan.demands action) (hrefused : demand.refusal? plan.columns ≠ none) :
    refusal (plan.statement action) ≠ none := by
  rw [refusal_statement, Ne, Option.or_eq_none_iff, Option.or_eq_none_iff]
  rintro ⟨-, -, hmet⟩
  exact hrefused (Demand.firstRefusal_eq_none.1 hmet demand hdemand)

end Plan

/-! ## Queries in parallel, with other data -/

mutual

/-- Queries that are built by the same calls with other data. -/
inductive Query.Parallel : Query → Query → Prop
  | start {dialect : Dialect} {catalog : Catalog} {cacheable : Bool} {lazyJoins : List JoinRule}
      {target other : Target} (h : Target.Parallel target other) :
      Query.Parallel (.start dialect catalog cacheable lazyJoins target)
        (.start dialect catalog cacheable lazyJoins other)
  | call {query other next last : Query} {call made : Call} (h : Query.Parallel query other)
      (hcall : Call.Parallel call made) (hnext : query.call? call = some next)
      (hlast : other.call? made = some last) : Query.Parallel next last

inductive Target.Parallel : Target → Target → Prop
  | model (target : ModelTarget) : Target.Parallel (.model target) (.model target)
  | plan {sub other : Query} (h : Query.Parallel sub other)
      (hsettles : sub.plan.Settles other.plan .select) :
      Target.Parallel (.plan sub.plan) (.plan other.plan)
  | raw (target : ModelTarget) {query other : RawQuery} (h : query.blank = other.blank) :
      Target.Parallel (.raw target query) (.raw target other)

inductive Call.Parallel : Call → Call → Prop
  | join (kind : JoinKind) {target other : Target} (h : Target.Parallel target other) :
      Call.Parallel (.join kind target) (.join kind other)
  | on {filters others : List Filter} (hlength : filters.length = others.length)
      (h : ∀ pair ∈ filters.zip others, Filter.Parallel pair.1 pair.2) :
      Call.Parallel (.on filters) (.on others)
  | filter {filters others : List Filter} (hlength : filters.length = others.length)
      (h : ∀ pair ∈ filters.zip others, Filter.Parallel pair.1 pair.2) :
      Call.Parallel (.filter filters) (.filter others)
  | data {call other : Call} (htarget : call.target? = none) (hother : other.target? = none)
      (h : call.blank = other.blank) : Call.Parallel call other

inductive Filter.Parallel : Filter → Filter → Prop
  | and {filters others : List Filter} (hlength : filters.length = others.length)
      (h : ∀ pair ∈ filters.zip others, Filter.Parallel pair.1 pair.2) :
      Filter.Parallel (.and filters) (.and others)
  | or {filters others : List Filter} (hlength : filters.length = others.length)
      (h : ∀ pair ∈ filters.zip others, Filter.Parallel pair.1 pair.2) :
      Filter.Parallel (.or filters) (.or others)
  | not {filter other : Filter} (h : Filter.Parallel filter other) :
      Filter.Parallel (.not filter) (.not other)
  | inPlan {operand far : Operand} {sub other : Query} (hoperand : operand.blank = far.blank)
      (h : Query.Parallel sub other) (hsettles : sub.plan.Settles other.plan .select) :
      Filter.Parallel (.inPlan operand sub.plan) (.inPlan far other.plan)
  | data {filter other : Filter} (h : filter.blank = other.blank) : Filter.Parallel filter other

end

namespace Filter

theorem map_blank_of_zip {filters others : List Filter} (hlength : filters.length = others.length)
    (h : ∀ pair ∈ filters.zip others, pair.1.blank = pair.2.blank) :
    filters.map (·.blank) = others.map (·.blank) := by
  have hforall := List.forall₂_iff_zip.2 ⟨hlength, fun {filter other} hpair => h _ hpair⟩
  rw [← List.forall₂_eq_eq_eq, List.forall₂_map_left_iff, List.forall₂_map_right_iff]
  exact hforall

/-- Membership in a plan turns on what the plan is refused for. -/
theorem blank_inPlan {operand far : Operand} {sub other : Plan}
    (hoperand : operand.blank = far.blank) (h : sub.blank = other.blank)
    (hsettles : sub.Settles other .select) :
    (Filter.inPlan operand sub).blank = (Filter.inPlan far other).blank := by
  have herrors : sub.errors = other.errors := (congrArg Plan.errors h :)
  have hrefusal : refusal sub.selectStatement = refusal other.selectStatement :=
    Plan.refusal_of_blank h hsettles
  unfold inPlan
  rw [herrors]
  cases other.errors with
  | cons error rest => rfl
  | nil =>
      cases hquery : sub.selectStatement with
      | ok query =>
          rw [hquery, refusal_ok] at hrefusal
          rcases refusal_eq_none.1 hrefusal.symm with ⟨asked, hasked⟩
          rw [hasked]
          dsimp only
          rw [blank, blank, hoperand]
      | error error =>
          rw [hquery, refusal_error] at hrefusal
          cases hasked : other.selectStatement with
          | ok asked =>
              rw [hasked] at hrefusal
              cases hrefusal
          | error failure =>
              rw [hasked] at hrefusal
              cases hrefusal
              rfl

end Filter

namespace Plan

variable {plan other : Plan}

theorem mapPlan_of_blank (h : plan.blank = other.blank) {sub far : Plan}
    (hsub : sub.blank = far.blank) (hsettles : sub.Settles far .select) :
    blankResult (plan.mapTarget (.plan sub)) = blankResult (other.mapTarget (.plan far)) := by
  have hrefusal : refusal sub.selectStatement = refusal far.selectStatement :=
    refusal_of_blank hsub hsettles
  rw [mapPlan_blank, mapPlan_blank, h, hsub, hrefusal]

theorem openJoinOn_of_blank (kind : JoinKind) {target far : Target} (h : plan.blank = other.blank)
    (hmap : ∀ {plan other : Plan}, plan.blank = other.blank →
      blankResult (plan.mapTarget target) = blankResult (other.mapTarget far)) :
    (plan.openJoinOn kind target).blank = (other.openJoinOn kind far).blank := by
  have hclosed : plan.closeJoin.blank = other.closeJoin.blank := by
    rw [← closeJoin_blank, h, closeJoin_blank]
  rw [openJoinOn_blank, openJoinOn_blank, hmap hclosed]

theorem apply_of_blank (h : plan.blank = other.blank) {call made : Call}
    (htarget : call.target? = none) (hmade : made.target? = none) (hcall : call.blank = made.blank) :
    (plan.apply call).blank = (other.apply made).blank := by
  rw [← apply_blank plan htarget, ← apply_blank other hmade, h, hcall]

end Plan

/-- A stage tells calls apart without their data. -/
theorem Call.kind_blank (call : Call) : call.blank.kind = call.kind := by
  cases call <;> rfl

mutual

theorem Query.Parallel.blank : ∀ {query other : Query}, query.Parallel other →
    query.stage = other.stage ∧ query.plan.blank = other.plan.blank
  | _, _, .start h => by
      rcases h.mapTarget with ⟨htable, hmap⟩
      refine ⟨rfl, ?_⟩
      show (Plan.mapRoot _ _).blank = (Plan.mapRoot _ _).blank
      rw [Plan.mapRoot_blank, Plan.mapRoot_blank, htable, hmap rfl]
  | _, _, .call h hcall hnext hlast => by
      rcases h.blank with ⟨hstage, hplan⟩
      rcases hcall.apply with ⟨hkind, happly⟩
      rcases Query.call?_eq_some.1 hnext with ⟨hafter, hnext⟩
      rcases Query.call?_eq_some.1 hlast with ⟨hbehind, hlast⟩
      rw [hstage, hkind] at hafter
      rw [hnext, hlast]
      exact ⟨Option.some.inj (hafter.symm.trans hbehind), happly hplan⟩

/-- Targets that differ in data only are mapped alike. -/
theorem Target.Parallel.mapTarget : ∀ {target other : Target}, target.Parallel other →
    target.toModel.table = other.toModel.table ∧
      ∀ {plan next : Plan}, plan.blank = next.blank →
        Plan.blankResult (plan.mapTarget target) = Plan.blankResult (next.mapTarget other)
  | _, _, .model target => by
      refine ⟨rfl, fun {plan next} hplan => ?_⟩
      show Plan.blankResult (plan.mapModel target) = Plan.blankResult (next.mapModel target)
      rw [← Plan.mapModel_blank, hplan, Plan.mapModel_blank]
  | _, _, .plan h hsettles => by
      have hsub := h.blank.2
      exact ⟨(congrArg Plan.model hsub :), fun hplan => Plan.mapPlan_of_blank hplan hsub hsettles⟩
  | _, _, @Target.Parallel.raw target query other h => by
      refine ⟨rfl, fun {plan next} hplan => ?_⟩
      show Plan.blankResult (plan.mapRaw target query) = Plan.blankResult (next.mapRaw target other)
      rw [← Plan.mapRaw_blank, hplan, h, Plan.mapRaw_blank]

theorem Call.Parallel.apply : ∀ {call made : Call}, call.Parallel made →
    call.kind = made.kind ∧ ∀ {plan next : Plan}, plan.blank = next.blank →
      (plan.apply call).blank = (next.apply made).blank
  | _, _, .join kind h =>
      ⟨rfl, fun hplan => Plan.openJoinOn_of_blank kind hplan h.mapTarget.2⟩
  | _, _, .on hlength h =>
      ⟨rfl, fun hplan => Plan.apply_of_blank hplan rfl rfl (congrArg Call.on
        (Filter.map_blank_of_zip hlength fun pair hpair => (h pair hpair).blank))⟩
  | _, _, .filter hlength h =>
      ⟨rfl, fun hplan => Plan.apply_of_blank hplan rfl rfl (congrArg Call.filter
        (Filter.map_blank_of_zip hlength fun pair hpair => (h pair hpair).blank))⟩
  | call, made, .data htarget hother h =>
      ⟨by rw [← call.kind_blank, h, made.kind_blank],
        fun hplan => Plan.apply_of_blank hplan htarget hother h⟩

theorem Filter.Parallel.blank : ∀ {filter other : Filter}, filter.Parallel other →
    filter.blank = other.blank
  | _, _, .and hlength h => by
      rw [Filter.blank, Filter.blank, Filter.blankAll_eq, Filter.blankAll_eq,
        Filter.map_blank_of_zip hlength fun pair hpair => (h pair hpair).blank]
  | _, _, .or hlength h => by
      rw [Filter.blank, Filter.blank, Filter.blankAll_eq, Filter.blankAll_eq,
        Filter.map_blank_of_zip hlength fun pair hpair => (h pair hpair).blank]
  | _, _, .not h => by rw [Filter.blank, Filter.blank, h.blank]
  | _, _, .inPlan hoperand h hsettles => Filter.blank_inPlan hoperand h.blank.2 hsettles
  | _, _, .data h => h

end

/-- Queries that are built by the same calls are at one stage, and their statements demand the same
but for the fields of lists that only one of them has values in.  If such fields can be written, both
are accepted, or refused for the same error; and if the one is accepted, the other one is just if they
can.  What both demand and cannot be met has both refused. -/
theorem Query.Parallel.accepted {first second : Query} (h : first.Parallel second) :
    first.stage = second.stage ∧ ∀ action,
      List.Forall₂ (fun demand other => Demand.insist demand = Demand.insist other)
        (first.plan.demands action) (second.plan.demands action) ∧
      (first.plan.Settles second.plan action →
        refusal (first.plan.statement action) = refusal (second.plan.statement action)) ∧
      (refusal (first.plan.statement action) = none →
        (refusal (second.plan.statement action) = none ↔
          first.plan.Settles second.plan action)) ∧
      ∀ demand ∈ first.plan.demands action, demand ∈ second.plan.demands action →
        demand.refusal? first.plan.columns ≠ none →
          refusal (first.plan.statement action) ≠ none ∧
            refusal (second.plan.statement action) ≠ none := by
  rcases h.blank with ⟨hstage, hplan⟩
  have hcolumns : first.plan.columns = second.plan.columns := (congrArg Plan.columns hplan :)
  refine ⟨hstage, fun action => ⟨Plan.insist_demands_of_blank hplan action,
    Plan.refusal_of_blank hplan, Plan.settles_of_blank hplan, ?_⟩⟩
  intro demand hfirst hsecond hrefused
  refine ⟨Plan.refusal_statement_of_demand hfirst hrefused, ?_⟩
  rw [hcolumns] at hrefused
  exact Plan.refusal_statement_of_demand hsecond hrefused

namespace Nicknames

def table : Table :=
  { name := "players"
    columns := [{ name := "id", field := "id", primaryKey := true },
      { name := "nickname", field := "nickname", transient := true }] }

def start : Query :=
  .start .postgres ⟨[table]⟩ false [] (.model ⟨table, none, [⟨1⟩, ⟨2⟩]⟩)

def begun : Query :=
  ⟨.filtering, start.plan.apply .startWhere⟩

/-- The players with one of some nicknames, which are not stored. -/
def nicknamed (names : List BindValue) : Query :=
  ⟨.filtering, begun.plan.apply (.filter [.inList (.field ⟨2⟩) names])⟩

theorem parallel_nicknamed (names others : List BindValue) :
    (nicknamed names).Parallel (nicknamed others) := by
  have hstart : start.Parallel start := .start (.model _)
  have hbegun : begun.Parallel begun :=
    .call hstart (.data rfl rfl rfl) (show start.call? .startWhere = some begun from rfl) rfl
  have hlists : (Call.filter [.inList (.field ⟨2⟩) names]).Parallel
      (.filter [.inList (.field ⟨2⟩) others]) :=
    .data rfl rfl (by simp [Call.blank, Filter.blank])
  exact .call hbegun hlists rfl rfl

/-- Two nicknames or one, the query is refused; without any it is accepted, for the one field that
it asks for is not looked up. -/
theorem accepted_nicknamed :
    (nicknamed [.text "Kim"]).Parallel (nicknamed [.text "Ann", .text "Bo"]) ∧
      (nicknamed []).Parallel (nicknamed [.text "Kim"]) ∧
      refusal ((nicknamed [.text "Kim"]).plan.statement .select) =
        some (.transientField "nickname") ∧
      refusal ((nicknamed [.text "Ann", .text "Bo"]).plan.statement .select) =
        some (.transientField "nickname") ∧
      refusal ((nicknamed []).plan.statement .select) = none ∧
      ¬ (nicknamed []).plan.Settles (nicknamed [.text "Kim"]).plan .select := by
  have hmany := parallel_nicknamed [.text "Kim"] [.text "Ann", .text "Bo"]
  have hnone := parallel_nicknamed [] [.text "Kim"]
  have hrefused : refusal ((nicknamed [.text "Kim"]).plan.statement .select) =
      some (.transientField "nickname") := by decide +kernel
  have haccepted : refusal ((nicknamed []).plan.statement .select) = none := by decide +kernel
  -- either list demands its field
  have hdemands : ∀ names : List BindValue, names.isEmpty = false →
      (nicknamed names).plan.demands .select = [.fields [⟨2⟩] true] := by
    intro names hnames
    show [Demand.fields [⟨2⟩] !names.isEmpty] = _
    rw [hnames]
    rfl
  have hsettles : (nicknamed [.text "Kim"]).plan.Settles
      (nicknamed [.text "Ann", .text "Bo"]).plan .select := by
    intro pair hpair happart
    rw [hdemands _ rfl, hdemands _ rfl] at hpair
    rw [List.mem_singleton.1 hpair] at happart
    exact absurd rfl happart
  have hsame := (hmany.accepted.2 .select).2.1 hsettles
  refine ⟨hmany, hnone, hrefused, hsame ▸ hrefused, haccepted, fun hsettled => ?_⟩
  rw [((hnone.accepted.2 .select).2.2.1 haccepted).2 hsettled] at hrefused
  cases hrefused

end Nicknames

end FieldQuery
