import FieldQuery.Proofs.Plan.Calls

/-!
# The tables that a plan touches

A plan is built by calls, from targets and conditions that may be made of other plans, nested to
any depth.  What is read in its `SELECT` are the tables it names itself, those of the plans it takes
as sources, and those of the plans that its conditions look into; what it touches are the tables it
names itself, those of the plans it takes as sources, and those that SQL written by hand is said to
read.

Main definitions:

- `Nested`: the tables that sub-queries bring into a plan, by the way they come in.
- `Query.Built`: a query built by calls, with the tables of its sub-queries.
- `Plan.Covers`: what a plan without errors touches and mentions.

Main statement: `Query.Built.covers`.
-/

namespace FieldQuery

/-- The tables that sub-queries bring into a plan. -/
structure Nested where
  /-- Read by plans that are sources. -/
  sources : List String := []
  /-- Read by plans that conditions look into. -/
  conditions : List String := []
  /-- Said to be read by SQL written by hand. -/
  declared : List String := []

namespace Nested

protected def append (a b : Nested) : Nested where
  sources := a.sources ++ b.sources
  conditions := a.conditions ++ b.conditions
  declared := a.declared ++ b.declared

instance : Append Nested := ⟨Nested.append⟩

@[simp] theorem sources_append (a b : Nested) : (a ++ b).sources = a.sources ++ b.sources := rfl

@[simp] theorem conditions_append (a b : Nested) :
    (a ++ b).conditions = a.conditions ++ b.conditions := rfl

@[simp] theorem declared_append (a b : Nested) : (a ++ b).declared = a.declared ++ b.declared := rfl

end Nested

/-- A condition that holds neither other conditions nor a query. -/
def Filter.Plain : Filter → Prop
  | .and _ | .or _ | .not _ | .inQuery _ _ => False
  | _ => True

/-! ## Building -/

mutual

/-- A query behind calls, and the tables that its sub-queries read. -/
inductive Query.Built : Query → Nested → Prop
  | start {dialect : Dialect} {catalog : Catalog} {cacheable : Bool} {lazyJoins : List JoinRule}
      {target : Target} {nested : Nested} (h : Target.Built dialect target nested) :
      Query.Built (.start dialect catalog cacheable lazyJoins target) nested
  | call {query next : Query} {call : Call} {nested more : Nested} (h : Query.Built query nested)
      (hcall : Call.Built query.plan.dialect call more) (hnext : query.call? call = some next) :
      Query.Built next (nested ++ more)

/-- A target, and the tables that it brings into a plan besides the one that it names. -/
inductive Target.Built : Dialect → Target → Nested → Prop
  | model {dialect : Dialect} (target : ModelTarget) : Target.Built dialect (.model target) {}
  | plan {dialect : Dialect} {sub : Query} {nested : Nested} (h : Query.Built sub nested) :
      Target.Built dialect (.plan sub.plan)
        { nested with sources := sub.plan.named ++ nested.sources }
  | raw {dialect : Dialect} (target : ModelTarget) (query : RawQuery) :
      Target.Built dialect (.raw target query)
        { declared := (Target.raw target query).brings dialect }

/-- A call, and the tables that its target and its conditions bring into a plan. -/
inductive Call.Built : Dialect → Call → Nested → Prop
  | join {dialect : Dialect} {kind : JoinKind} {target : Target} {nested : Nested}
      (h : Target.Built dialect target nested) : Call.Built dialect (.join kind target) nested
  | on {dialect : Dialect} {filters : List Filter} {tables : List String}
      (h : Filter.AllBuilt filters tables) :
      Call.Built dialect (.on filters) { conditions := tables }
  | filter {dialect : Dialect} {filters : List Filter} {tables : List String}
      (h : Filter.AllBuilt filters tables) :
      Call.Built dialect (.filter filters) { conditions := tables }
  | plain {dialect : Dialect} {call : Call} (htarget : call.target? = none)
      (hconditions : call.conditions = []) : Call.Built dialect call {}

inductive Filter.AllBuilt : List Filter → List String → Prop
  | nil : Filter.AllBuilt [] []
  | cons {filter : Filter} {filters : List Filter} {tables more : List String}
      (h : Filter.Built filter tables) (hrest : Filter.AllBuilt filters more) :
      Filter.AllBuilt (filter :: filters) (tables ++ more)

/-- A condition, and the tables that are read by the plans that it looks into. -/
inductive Filter.Built : Filter → List String → Prop
  | and {filters : List Filter} {tables : List String} (h : Filter.AllBuilt filters tables) :
      Filter.Built (.and filters) tables
  | or {filters : List Filter} {tables : List String} (h : Filter.AllBuilt filters tables) :
      Filter.Built (.or filters) tables
  | not {filter : Filter} {tables : List String} (h : Filter.Built filter tables) :
      Filter.Built (.not filter) tables
  | inPlan {sub : Query} {nested : Nested} (operand : Operand) (h : Query.Built sub nested) :
      Filter.Built (.inPlan operand sub.plan)
        (sub.plan.named ++ nested.sources ++ nested.conditions)
  | plain {filter : Filter} (h : filter.Plain) : Filter.Built filter []

end

/-! ## Covering -/

/-- What a target brings along, and what is read in the source that it is written as. -/
structure Target.Covers (dialect : Dialect) (target : Target) (nested : Nested)
    (source : Source) : Prop where
  brings : ∀ table, table ∈ target.brings dialect ↔
    table ∈ nested.sources ∨ table ∈ nested.declared
  reads : ∀ table, table ∈ nested.sources ∨ table ∈ nested.conditions → source.render.Reads table

/-- What a call brings along, and what is read in the plan behind it. -/
structure Call.Covers (dialect : Dialect) (call : Call) (nested : Nested) (next : Plan) : Prop where
  brings : ∀ table, table ∈ call.brings dialect ↔
    table ∈ nested.sources ∨ table ∈ nested.declared
  mentions : ∀ table, table ∈ nested.sources ∨ table ∈ nested.conditions → next.Mentions table

namespace Plan

variable {plan next : Plan} {nested more : Nested} {table : String}

/-- A plan touches what it names, what its sources read and what is declared, and mentions what its
sub-queries read. -/
structure Covers (plan : Plan) (nested : Nested) : Prop where
  touched : ∀ table, table ∈ plan.touched ↔
    table ∈ plan.named ∨ table ∈ nested.sources ∨ table ∈ nested.declared
  mentions : ∀ table, table ∈ nested.sources ∨ table ∈ nested.conditions → plan.Mentions table

theorem Grows.mentions {added others : List String} (h : Grows added others plan next)
    (hmentions : plan.Mentions table) : next.Mentions table := by
  rcases hmentions with ⟨source, hmem, hreads⟩ | ⟨filter, hmem, hreads⟩
  · exact .inl ⟨source, h.sources hmem, hreads⟩
  · exact .inr ⟨filter, h.conditions hmem, hreads⟩

/-- The statement of a plan reads all that the plan covers. -/
theorem Covers.reads (h : plan.Covers nested) {written : Statement}
    (hwritten : plan.selectStatement = .ok written)
    (htable : table ∈ plan.named ∨ table ∈ nested.sources ∨ table ∈ nested.conditions) :
    written.Reads table := by
  rcases htable with hnamed | hnested
  · exact reads_selectStatement hwritten (.inl hnamed)
  · exact reads_selectStatement hwritten (.inr (h.mentions table hnested))

/-- A call keeps a plan covered. -/
theorem Covers.apply {call : Call} (h : plan.Covers nested) (happlies : Applies call plan next)
    (hcall : call.Covers plan.dialect more next) : next.Covers (nested ++ more) := by
  rcases happlies.grows with ⟨added, hgrows⟩
  refine ⟨?_, ?_⟩
  · intro table
    rw [hgrows.touched, hgrows.named, h.touched, hcall.brings]
    simp only [Nested.sources_append, Nested.declared_append, List.mem_append]
    tauto
  · intro table htable
    simp only [Nested.sources_append, Nested.conditions_append, List.mem_append] at htable
    -- what was mentioned before is not lost, and what is new comes in with the call
    by_cases hold : table ∈ nested.sources ∨ table ∈ nested.conditions
    · exact hgrows.mentions (h.mentions table hold)
    · exact hcall.mentions table (by tauto)

end Plan

theorem Plan.Covers.target {sub : Plan} {nested : Nested} (h : sub.Covers nested)
    (dialect : Dialect) {source : Source} (hsource : Target.WrittenAs source (.plan sub)) :
    Target.Covers dialect (.plan sub) { nested with sources := sub.named ++ nested.sources }
      source := by
  rcases hsource with ⟨_, written, correlation, hwritten, rfl⟩
  refine ⟨?_, ?_⟩
  · intro table
    show table ∈ sub.touched ↔ _
    rw [h.touched, List.mem_append]
    tauto
  · intro table htable
    rw [List.mem_append] at htable
    have hreads : written.Reads table := h.reads hwritten (by tauto)
    exact (hreads.append_left _).append_right _

/-- A condition on a plan reads what the plan reads; on a plan with errors it cannot be written. -/
theorem Plan.reads_inPlan {sub : Plan} {nested : Nested} (h : sub.errors = [] → sub.Covers nested)
    (operand : Operand) {table : String}
    (htable : table ∈ sub.named ++ nested.sources ++ nested.conditions) :
    (Filter.inPlan operand sub).Reads table := by
  -- a condition that cannot be written reads whatever one likes
  have hinvalid : ∀ error, (Filter.invalid error).Reads table := by
    intro error columns written hwritten
    rw [Filter.render] at hwritten
    cases hwritten
  unfold Filter.inPlan
  split
  · exact hinvalid _
  · exact hinvalid _
  · rename_i herrors hwritten
    rw [List.mem_append, List.mem_append, or_assoc] at htable
    exact Filter.reads_inQuery ((h herrors).reads hwritten htable) operand

/-! ## Nesting -/

mutual

/-- A query that is built without errors covers the tables of its sub-queries. -/
theorem Query.Built.covers : ∀ {query : Query} {nested : Nested}, query.Built nested →
    query.plan.errors = [] → query.Ready ∧ query.plan.Covers nested
  | _, _, .start htarget, herrors => by
      rcases Plan.mapRoot_names rfl rfl herrors with ⟨htouched, ⟨source, hmem, hsource⟩, hnone⟩
      have hcovers := htarget.covers hsource
      -- a fresh query has neither conditions nor an open join
      refine ⟨⟨fun _ => hnone, fun h => by cases h⟩, ?_, ?_⟩
      · intro table
        rw [← hcovers.brings]
        exact htouched table
      · intro table htable
        exact .inl ⟨source, hmem, hcovers.reads table htable⟩
  | next, _, @Query.Built.call query _ call nested more h hcall hnext, herrors => by
      rcases Query.call?_eq_some.1 hnext with ⟨hstage, hplan⟩
      -- errors are never taken back, so the induction applies to the query in front of the call
      have hclean : query.plan.errors = [] := Plan.errors_of_apply (hplan ▸ herrors)
      rcases h.covers hclean with ⟨hready, hcovers⟩
      have hwhere : call = .startWhere → query.plan.conditions = none := by
        rintro rfl
        exact hready.conditions (Stage.widened_of_startWhere hstage)
      have happlies : Plan.Applies call query.plan next.plan := by
        rw [hplan] at herrors ⊢
        exact Plan.applies_apply hwhere herrors
      exact ⟨hready.of_call hnext herrors, hcovers.apply happlies (hcall.covers happlies)⟩

theorem Target.Built.covers : ∀ {dialect : Dialect} {target : Target} {nested : Nested},
    target.Built dialect nested → ∀ {source : Source}, target.WrittenAs source →
      target.Covers dialect nested source
  | _, _, _, .model target, _, _ => ⟨fun _ => by simp [Target.brings], fun _ h => by simp at h⟩
  | _, _, _, .plan h, source, hsource => (h.covers hsource.1).2.target _ hsource
  | _, _, _, .raw target query, _, _ => ⟨fun _ => by simp, fun _ h => by simp at h⟩

theorem Call.Built.covers : ∀ {call : Call} {dialect : Dialect} {nested : Nested},
    call.Built dialect nested → ∀ {plan next : Plan}, Plan.Applies call plan next →
      call.Covers dialect nested next
  | _, _, _, .join h, _, _, happlies => by
      rcases happlies.target _ rfl with ⟨source, hmem, hsource⟩
      have hcovers := h.covers hsource
      exact ⟨hcovers.brings, fun table htable => .inl ⟨source, hmem, hcovers.reads table htable⟩⟩
  | _, _, _, .on h, _, _, happlies => by
      refine ⟨fun _ => by simp [Call.brings, Call.target?], fun table htable => ?_⟩
      rcases h.reads (htable.resolve_left List.not_mem_nil) with ⟨filter, hfilter, hreads⟩
      exact .inr ⟨filter, happlies.conditions hfilter, hreads⟩
  | _, _, _, .filter h, _, _, happlies => by
      refine ⟨fun _ => by simp [Call.brings, Call.target?], fun table htable => ?_⟩
      rcases h.reads (htable.resolve_left List.not_mem_nil) with ⟨filter, hfilter, hreads⟩
      exact .inr ⟨filter, happlies.conditions hfilter, hreads⟩
  | _, _, _, .plain htarget _, _, _, _ =>
      ⟨fun _ => by simp [Call.brings, htarget], fun _ h => by simp at h⟩

theorem Filter.AllBuilt.reads : ∀ {filters : List Filter} {tables : List String},
    Filter.AllBuilt filters tables → ∀ {table : String}, table ∈ tables →
      ∃ filter ∈ filters, filter.Reads table
  | _, _, .nil, _, hmem => by cases hmem
  | _, _, .cons h hrest, _, hmem => by
      rcases List.mem_append.1 hmem with hmem | hmem
      · exact ⟨_, List.mem_cons_self, h.reads hmem⟩
      · rcases hrest.reads hmem with ⟨filter, hfilter, hreads⟩
        exact ⟨filter, List.mem_cons_of_mem _ hfilter, hreads⟩

theorem Filter.Built.reads : ∀ {filter : Filter} {tables : List String},
    filter.Built tables → ∀ {table : String}, table ∈ tables → filter.Reads table
  | _, _, .and h, _, hmem => by
      rcases h.reads hmem with ⟨filter, hfilter, hreads⟩
      exact hreads.and hfilter
  | _, _, .or h, _, hmem => by
      rcases h.reads hmem with ⟨filter, hfilter, hreads⟩
      exact hreads.or hfilter
  | _, _, .not h, _, hmem => (h.reads hmem).not
  | _, _, .inPlan operand h, _, hmem =>
      Plan.reads_inPlan (fun herrors => (h.covers herrors).2) operand hmem
  | _, _, .plain _, _, hmem => by cases hmem

end

end FieldQuery
