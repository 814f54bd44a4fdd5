import FieldQuery.Proofs.Plan.JoinOrder
import FieldQuery.Proofs.Plan.Stages

/-!
# Where conditions go

A condition is given to the join that is open at the time, and to the `WHERE` clause once that has
begun.  A plan decides this by what it has open, not by the call that brings the condition.  Beside
a run of calls stands a log of what each join was given while it was open, and of what came behind
the begin of the `WHERE` clause; a plan without errors holds just that, and so do its statements.

Main definitions:

- `Given`: what a join is given; `GivenJoin`: a join with all that it was given.
- `ConditionLog`: the joins of a run, and the conditions behind the begin of the `WHERE` clause.
- `Query.Gathers`: a query behind calls, and what these have given.
- `Filter.Conjoined`: a text in which each of some conditions stands once, in their order.

Main statement: `Query.Gathers.conditions_placed`.
-/

namespace FieldQuery

/-! ## What calls give -/

/-- What a join is given while it is open. -/
inductive Given
  | filters (filters : List Filter)
  /-- The links to what is mapped already. -/
  | references

def Given.isReferences : Given → Bool
  | .filters _ => false
  | .references => true

/-- A join with what it was given. -/
structure GivenJoin where
  opening : Opening
  /-- The links that were found when its target was mapped. -/
  recorded : List Filter
  given : List Given := []

namespace GivenJoin

/-- The conditions that something given stands for. -/
def conditionsOf (join : GivenJoin) : Given → List Filter
  | .filters filters => filters
  | .references => join.recorded

/-- All conditions of the join, in the order in which they were given. -/
def on (join : GivenJoin) : List Filter :=
  join.given.flatMap join.conditionsOf

/-- The join with its conditions. -/
def clause (join : GivenJoin) : JoinClause :=
  ⟨join.opening.kind, join.opening.source, join.opening.correlation, join.on⟩

def give (join : GivenJoin) (given : Given) : GivenJoin :=
  { join with given := join.given ++ [given] }

/-- Whether the join was given its links. -/
def linked (join : GivenJoin) : Bool :=
  join.given.any Given.isReferences

theorem on_give (join : GivenJoin) (given : Given) :
    (join.give given).on = join.on ++ join.conditionsOf given := by
  have hconditions : (join.give given).conditionsOf = join.conditionsOf := by
    funext given
    cases given <;> rfl
  rw [on, on, hconditions, give, List.flatMap_append, List.flatMap_singleton]

end GivenJoin

/-- The links that are found when a join maps its target. -/
def Plan.recorded (plan : Plan) (target : Target) : List Filter :=
  (plan.closeJoin.mapTarget target).1.links

/-- What a run of calls has given. -/
structure ConditionLog where
  /-- The joins that nothing is given any more. -/
  finished : List GivenJoin := []
  /-- The join that is still open. -/
  latest : Option GivenJoin := none
  /-- What was given behind the begin of the `WHERE` clause, once that has begun. -/
  conditions : Option (List Filter) := none

namespace ConditionLog

/-- All joins that were opened by their own calls, in that order. -/
def joins (log : ConditionLog) : List GivenJoin :=
  log.finished ++ log.latest.toList

/-- The clauses of all joins, with lazy ones in front of the open one. -/
def clauses (log : ConditionLog) (lazy : List JoinClause) : List JoinClause :=
  log.finished.map (·.clause) ++ lazy ++ (log.latest.map (·.clause)).toList

/-- The log with something given to the open join. -/
def give (log : ConditionLog) (given : Given) : ConditionLog :=
  { log with latest := log.latest.map (·.give given) }

/-- The log behind a call on a plan. -/
def after (log : ConditionLog) (plan : Plan) : Call → ConditionLog
  | .join kind target =>
    { log with
      finished := log.joins
      latest := (plan.opening? kind target).map fun opening => ⟨opening, plan.recorded target, []⟩ }
  | .startWhere => ⟨log.joins, none, some (log.conditions.getD [])⟩
  | .on filters => log.give (.filters filters)
  | .references => log.give .references
  | .filter filters =>
    match log.conditions with
    | some known => { log with conditions := some (known ++ filters) }
    | none => log.give (.filters filters)
  | _ => log

/-- The log behind a run of calls on a plan. -/
def afterCalls (log : ConditionLog) (plan : Plan) : List Call → ConditionLog
  | [] => log
  | call :: rest => (log.after plan call).afterCalls (plan.apply call) rest

variable {log : ConditionLog}

theorem mem_joins {join : GivenJoin} :
    join ∈ log.joins ↔ join ∈ log.finished ∨ join ∈ log.latest := by
  rw [joins, List.mem_append, Option.mem_toList]
  rfl

theorem clauses_nil : log.clauses [] = log.joins.map (·.clause) := by
  rw [clauses, joins, List.append_nil, List.map_append]
  cases log.latest <;> rfl

end ConditionLog

/-- A query behind calls on its primary target, and what these have given. -/
inductive Query.Gathers (target : Target) : Query → ConditionLog → Prop
  | start {dialect : Dialect} {catalog : Catalog} {cacheable : Bool} {lazyJoins : List JoinRule} :
      Gathers target (.start dialect catalog cacheable lazyJoins target) {}
  | call {query next : Query} {log : ConditionLog} {call : Call} (h : Gathers target query log)
      (hnext : query.call? call = some next) : Gathers target next (log.after query.plan call)

theorem Query.Gathers.of_calls? {target : Target} {query next : Query} {log : ConditionLog}
    {calls : List Call} (h : query.Gathers target log) (hcalls : query.calls? calls = some next) :
    next.Gathers target (log.afterCalls query.plan calls) := by
  induction calls generalizing query log with
  | nil =>
      cases hcalls
      exact h
  | cons call rest ih =>
      rcases Option.bind_eq_some_iff.1 hcalls with ⟨middle, hmiddle, hrest⟩
      have hlater := ih (h.call hmiddle) hrest
      rwa [(Query.call?_eq_some.1 hmiddle).2] at hlater

/-! ## One call -/

/-- The calls that ask for fields by name. -/
def Call.asks : Call → Bool
  | .fields _ | .addField _ => true
  | _ => false

/-- A join that is opened lazily is made on its own condition. -/
def JoinClause.IsLazy (join : JoinClause) : Prop :=
  ∃ condition, join.on = [.verbatim condition]

namespace Plan

variable {plan next : Plan} {log : ConditionLog} {lazy : List JoinClause}

/-- A plan holds what a log says was given, and some lazy joins behind the finished ones. -/
structure Holds (log : ConditionLog) (lazy : List JoinClause) (plan : Plan) : Prop where
  joins : plan.joins = log.finished.map (·.clause) ++ lazy
  openJoin : plan.openJoin = log.latest.map (·.clause)
  conditions : plan.conditions = log.conditions
  lazily : ∀ join ∈ lazy, join.IsLazy
  /-- The links of the open join are kept until they are asked for. -/
  links : ∀ join ∈ log.latest, plan.links = if join.linked then [] else join.recorded
  once : ∀ join ∈ log.joins, join.given.countP Given.isReferences ≤ 1

theorem Holds.of_eq (h : plan.Holds log lazy) (hjoins : next.joins = plan.joins)
    (hopen : next.openJoin = plan.openJoin) (hconditions : next.conditions = plan.conditions)
    (hlinks : next.links = plan.links) : next.Holds log lazy where
  joins := hjoins.trans h.joins
  openJoin := hopen.trans h.openJoin
  conditions := hconditions.trans h.conditions
  lazily := h.lazily
  links join hjoin := hlinks.trans (h.links join hjoin)
  once := h.once

theorem Holds.allJoins (h : plan.Holds log lazy) : plan.allJoins = log.clauses lazy := by
  rw [Plan.allJoins, h.joins, h.openJoin, ConditionLog.clauses]

theorem Holds.openJoinOn {kind : JoinKind} {target : Target} (h : plan.Holds log [])
    (herrors : (plan.openJoinOn kind target).errors = []) :
    (plan.openJoinOn kind target).Holds (log.after plan (.join kind target)) [] := by
  rcases mapTarget_of_openJoinOn herrors with ⟨next, mapped, hmap, hclean⟩
  have hmaps := maps_mapTarget hmap hclean
  have hopening : plan.opening? kind target = some ⟨kind, mapped.source, mapped.correlation⟩ := by
    simp only [opening?, hmap]
  have hrecorded : plan.recorded target = next.links := by
    rw [recorded, hmap]
  rw [openJoinOn_of_ok hmap]
  have hlatest : (log.after plan (.join kind target)).latest =
      some ⟨⟨kind, mapped.source, mapped.correlation⟩, next.links, []⟩ := by
    rw [ConditionLog.after, hopening, hrecorded]
    rfl
  refine ⟨?_, ?_, hmaps.conditions.trans h.conditions, List.forall_mem_nil _, ?_, ?_⟩
  · rw [List.append_nil]
    exact hmaps.joins.trans (h.allJoins.trans ConditionLog.clauses_nil)
  · rw [hlatest]
    rfl
  · intro join hjoin
    rw [hlatest] at hjoin
    cases hjoin
    rfl
  · intro join hjoin
    rcases ConditionLog.mem_joins.1 hjoin with hfinished | hopened
    · exact h.once join hfinished
    · rw [hlatest] at hopened
      cases hopened
      exact Nat.zero_le 1

/-- Nothing is lost when the `WHERE` clause begins, since it begins once. -/
theorem Holds.startWhere (h : plan.Holds log []) (hnone : plan.conditions = none) :
    plan.startWhere.Holds (log.after plan .startWhere) [] where
  joins := (h.allJoins.trans ConditionLog.clauses_nil).trans (List.append_nil _).symm
  openJoin := rfl
  conditions := by
    rw [ConditionLog.after, ← h.conditions, hnone]
    rfl
  lazily := List.forall_mem_nil _
  links := nofun
  once join hjoin := h.once join ((ConditionLog.mem_joins.1 hjoin).resolve_right nofun)

/-- The open join is given something, its links at most once. -/
theorem Holds.give {join : GivenJoin} (h : plan.Holds log lazy) (given : Given)
    (links : List Filter) (hlatest : log.latest = some join)
    (honce : given.isReferences → join.linked = false)
    (hlinks : links = if (join.give given).linked then [] else join.recorded) :
    ({ plan with openJoin := some (join.give given).clause, links := links } : Plan).Holds
      (log.give given) lazy := by
  have hgiven : (log.give given).latest = some (join.give given) := by
    rw [ConditionLog.give, hlatest]
    rfl
  refine ⟨h.joins, ?_, h.conditions, h.lazily, ?_, ?_⟩
  · rw [hgiven]
    rfl
  · intro other hother
    rw [hgiven] at hother
    cases hother
    exact hlinks
  · intro other hother
    rcases ConditionLog.mem_joins.1 hother with hfinished | hopened
    · exact h.once other (ConditionLog.mem_joins.2 (.inl hfinished))
    · rw [hgiven] at hopened
      cases hopened
      have hcount := h.once join (ConditionLog.mem_joins.2 (.inr hlatest))
      rw [GivenJoin.give, List.countP_append, List.countP_singleton]
      split
      · rename_i hreferences
        have hnone := honce hreferences
        rw [GivenJoin.linked, List.any_eq_false] at hnone
        rw [List.countP_eq_zero.2 hnone]
      · exact hcount

/-- The open join of the log, where the plan has one. -/
theorem Holds.latest {join : JoinClause} (h : plan.Holds log lazy)
    (hopen : plan.openJoin = some join) :
    ∃ given, log.latest = some given ∧ join = given.clause := by
  rw [h.openJoin] at hopen
  rcases Option.map_eq_some_iff.1 hopen with ⟨given, hlatest, hclause⟩
  exact ⟨given, hlatest, hclause.symm⟩

theorem addOn_of_joining {join : JoinClause} (hopen : plan.openJoin = some join)
    (filters : List Filter) :
    plan.addOn filters = { plan with openJoin := some { join with on := join.on ++ filters } } := by
  unfold addOn
  rw [hopen]

theorem clause_give (join : GivenJoin) (given : Given) : (join.give given).clause =
    { join.clause with on := join.clause.on ++ join.conditionsOf given } :=
  congrArg (JoinClause.mk _ _ _) (join.on_give given)

theorem Holds.addOn (h : plan.Holds log lazy) (hopen : plan.openJoin.isSome)
    (filters : List Filter) :
    (plan.addOn filters).Holds (log.give (.filters filters)) lazy := by
  rcases Option.isSome_iff_exists.1 hopen with ⟨_, hjoin⟩
  rcases h.latest hjoin with ⟨join, hlatest, rfl⟩
  have hlinked : (join.give (.filters filters)).linked = join.linked := by
    simp [GivenJoin.linked, GivenJoin.give, Given.isReferences]
  have hgiven := h.give (.filters filters) plan.links hlatest nofun
  rw [hlinked, clause_give] at hgiven
  rw [addOn_of_joining hjoin]
  exact hgiven (h.links join hlatest)

/-- The links are there to be given only if they have not been. -/
theorem Holds.addReferences (h : plan.Holds log lazy) (hopen : plan.openJoin.isSome)
    (herrors : plan.addReferences.errors = []) :
    plan.addReferences.Holds (log.give .references) lazy := by
  rcases Option.isSome_iff_exists.1 hopen with ⟨_, hjoin⟩
  rcases h.latest hjoin with ⟨join, hlatest, rfl⟩
  have hlinks := h.links join hlatest
  unfold Plan.addReferences at herrors ⊢
  split at herrors
  · exact absurd herrors (errors_fail _ _)
  · rename_i hsome
    have hnew : join.linked = false := by
      by_contra hlinked
      rw [if_pos (by simpa using hlinked)] at hlinks
      exact hsome hlinks
    rw [hnew] at hlinks
    have hlinked : (join.give .references).linked = true := by
      simp [GivenJoin.linked, GivenJoin.give, Given.isReferences]
    have hgiven := h.give .references [] hlatest (fun _ => hnew)
    rw [hlinked, clause_give] at hgiven
    have hadded : ({ plan with links := [] } : Plan).addOn plan.links =
        { plan with
          openJoin := some { join.clause with on := join.clause.on ++ plan.links }, links := [] } :=
      @addOn_of_joining { plan with links := [] } _ hjoin _
    rw [hadded, hlinks]
    exact hgiven rfl

theorem addFilters_of_begun {known : List Filter} (hbegun : plan.conditions = some known)
    (filters : List Filter) :
    filters.foldl Plan.addFilter plan = { plan with conditions := some (known ++ filters) } := by
  induction filters generalizing plan known with
  | nil => rw [List.append_nil, ← hbegun, List.foldl_nil]
  | cons first rest ih =>
      have hone : plan.addFilter first = { plan with conditions := some (known ++ [first]) } := by
        unfold addFilter
        rw [hbegun]
      rw [List.foldl_cons, hone, ih rfl, List.append_assoc]
      rfl

theorem addFilters_of_joining (hnone : plan.conditions = none) {join : JoinClause}
    (hopen : plan.openJoin = some join) (filters : List Filter) :
    filters.foldl Plan.addFilter plan = plan.addOn filters := by
  induction filters generalizing plan join with
  | nil =>
      rw [addOn_of_joining hopen, List.append_nil, ← hopen, List.foldl_nil]
  | cons first rest ih =>
      have hone : plan.addFilter first =
          { plan with openJoin := some { join with on := join.on ++ [first] } } := by
        rw [addFilter_of_joining hnone (by rw [hopen]; rfl), addOn_of_joining hopen]
      rw [List.foldl_cons, hone, ih (by exact hnone) rfl, addOn_of_joining rfl,
        addOn_of_joining hopen, List.append_assoc]
      rfl

/-- A condition that is not said to be for a join goes where the log has it. -/
theorem Holds.addFilters (h : plan.Holds log lazy)
    (hplace : plan.conditions.isSome ∨ plan.openJoin.isSome) (filters : List Filter) :
    (filters.foldl Plan.addFilter plan).Holds (log.after plan (.filter filters)) lazy := by
  have hconditions := h.conditions
  cases hbegun : plan.conditions with
  | some known =>
      rw [hbegun] at hconditions
      rw [addFilters_of_begun hbegun, ConditionLog.after, ← hconditions]
      exact ⟨h.joins, h.openJoin, rfl, h.lazily, h.links, h.once⟩
  | none =>
      rw [hbegun] at hplace hconditions
      have hopen : plan.openJoin.isSome := hplace.resolve_left nofun
      rcases Option.isSome_iff_exists.1 hopen with ⟨join, hjoin⟩
      rw [addFilters_of_joining hbegun hjoin, ConditionLog.after, ← hconditions]
      exact h.addOn hopen filters

/-- A field's lazy join goes behind the finished joins, with its own condition. -/
theorem Holds.addField {token : Token} (h : plan.Holds log lazy)
    (herrors : (plan.addField token).errors = []) :
    ∃ lazy', (plan.addField token).Holds log lazy' := by
  rcases addField_cases herrors with ⟨entry, -, ⟨join, -, -, heq⟩ | ⟨-, -, heq⟩⟩
  · have hopened : ∃ clause : JoinClause, clause.IsLazy ∧
        (plan.openLazyJoin entry join).joins = plan.joins ++ [clause] ∧
        (plan.openLazyJoin entry join).openJoin = plan.openJoin ∧
        (plan.openLazyJoin entry join).conditions = plan.conditions ∧
        (plan.openLazyJoin entry join).links = plan.links := by
      rw [openLazyJoin, touch_eq]
      exact ⟨_, ⟨_, rfl⟩, rfl, rfl, rfl, rfl⟩
    rcases hopened with ⟨clause, hlazy, hjoins, hopen, hconditions, hlinks⟩
    rw [heq]
    refine ⟨lazy ++ [clause], ?_, hopen.trans h.openJoin, hconditions.trans h.conditions, ?_, ?_,
      h.once⟩
    · rw [hjoins, h.joins, List.append_assoc]
    · exact List.forall_mem_append.2 ⟨h.lazily, List.forall_mem_singleton.2 hlazy⟩
    · intro join hjoin
      exact hlinks.trans (h.links join hjoin)
  · rw [heq]
    exact ⟨lazy, h.of_eq rfl rfl rfl rfl⟩

theorem Holds.addFields {tokens : List Token} (h : plan.Holds log lazy)
    (herrors : (tokens.foldl Plan.addField plan).errors = []) :
    ∃ lazy', (tokens.foldl Plan.addField plan).Holds log lazy' := by
  induction tokens generalizing plan lazy with
  | nil => exact ⟨lazy, h⟩
  | cons token rest ih =>
      have hclean : (plan.addField token).errors = [] :=
        (continues_addFields rest _).errors_nil herrors
      rcases h.addField hclean with ⟨lazy', hone⟩
      exact ih hone herrors

/-- What must hold of a plan for a call to go where a log has it. -/
structure Admits (lazy : List JoinClause) (plan : Plan) (call : Call) : Prop where
  /-- Lazy joins stand behind the others, so no more of those are opened. -/
  lazily : call.kind = .join ∨ call.kind = .startWhere → lazy = []
  once : call.kind = .startWhere → plan.conditions = none
  joining : call.kind = .on ∨ call.kind = .references → plan.openJoin.isSome
  placed : call.kind = .filter → plan.conditions.isSome ∨ plan.openJoin.isSome

/-- A call gives what the log says of it, and may open lazy joins only if it asks for fields. -/
theorem Holds.apply {call : Call} (h : plan.Holds log lazy) (hadmits : plan.Admits lazy call)
    (herrors : (plan.apply call).errors = []) :
    ∃ lazy', (call.asks = false → lazy' = lazy) ∧
      (plan.apply call).Holds (log.after plan call) lazy' := by
  have hkept (hsame : (plan.apply call).Holds (log.after plan call) lazy) :
      ∃ lazy', (call.asks = false → lazy' = lazy) ∧
        (plan.apply call).Holds (log.after plan call) lazy' := ⟨lazy, fun _ => rfl, hsame⟩
  cases call with
  | join kind target =>
      have hnone := hadmits.lazily (.inl rfl)
      subst hnone
      exact hkept (h.openJoinOn herrors)
  | startWhere =>
      have hnone := hadmits.lazily (.inr rfl)
      subst hnone
      exact hkept (h.startWhere (hadmits.once rfl))
  | on filters => exact hkept (h.addOn (hadmits.joining (.inl rfl)) filters)
  | references => exact hkept (h.addReferences (hadmits.joining (.inr rfl)) herrors)
  | filter filters => exact hkept (h.addFilters (hadmits.placed rfl) filters)
  | fields tokens =>
      have hcleared : plan.unwanted.Holds log lazy := h.of_eq rfl rfl rfl rfl
      rcases hcleared.addFields herrors with ⟨lazy', hfields⟩
      exact ⟨lazy', nofun, hfields⟩
  | addField token =>
      rcases h.addField herrors with ⟨lazy', hfield⟩
      exact ⟨lazy', nofun, hfield⟩
  | assign token value =>
      refine hkept ?_
      show (plan.assign token value).Holds log lazy
      unfold Plan.assign
      split <;> exact h.of_eq rfl rfl rfl rfl
  | orderBy operand direction =>
      refine hkept ?_
      show (plan.orderBy operand direction).Holds log lazy
      unfold Plan.orderBy
      split
      · exact h.of_eq rfl rfl rfl rfl
      · split <;> exact h.of_eq rfl rfl rfl rfl
  | groupBy token =>
      refine hkept ?_
      show (plan.groupBy token).Holds log lazy
      unfold Plan.groupBy
      split <;> exact h.of_eq rfl rfl rfl rfl
  | discardOrder => exact hkept (h.of_eq rfl rfl rfl rfl)
  | limit count => exact hkept (h.of_eq rfl rfl rfl rfl)
  | offset count => exact hkept (h.of_eq rfl rfl rfl rfl)
  | withoutCache => exact hkept (h.of_eq rfl rfl rfl rfl)

end Plan

/-! ## A run of calls -/

namespace Stage

variable {stage next : Stage}

/-- Conditions are admitted where a join is open or the `WHERE` clause has begun. -/
theorem placed_of_filter (h : stage.after? .filter = some next) : stage.joins ∨ stage.filters := by
  cases stage <;> first | decide | cases h

/-- A narrowed query is not deleted from or updated. -/
theorem ne_selecting_of_offers {action : Action} (h : stage.offers action)
    (haction : action = .update ∨ action = .delete) : stage ≠ .selecting := by
  rintro rfl
  rcases haction with rfl | rfl <;> cases h

end Stage

namespace Query

variable {query next : Query} {log : ConditionLog}

/-- A query holds what a log says was given, and its stage says where the next condition goes. -/
structure Holds (log : ConditionLog) (lazy : List JoinClause) (query : Query) : Prop where
  ready : query.Ready
  begun : query.stage.filters → query.plan.conditions.isSome
  lazily : query.stage ≠ .selecting → lazy = []
  plan : query.plan.Holds log lazy

/-- The stages admit a call only where its conditions have a place. -/
theorem Holds.admits {lazy : List JoinClause} {call : Call} {stage : Stage}
    (h : query.Holds log lazy) (hafter : query.stage.after? call.kind = some stage) :
    query.plan.Admits lazy call where
  lazily hkind := h.lazily fun hselecting => by
    rw [hselecting] at hafter
    rcases hkind with hkind | hkind <;> rw [hkind] at hafter <;> cases hafter
  once hkind := h.ready.conditions (Stage.widened_of_startWhere (hkind ▸ hafter))
  joining hkind := h.ready.openJoin (Stage.joins_of_on hafter hkind)
  placed hkind := (Stage.placed_of_filter (hkind ▸ hafter)).symm.imp h.begun h.ready.openJoin

theorem holds_start {dialect : Dialect} {catalog : Catalog} {cacheable : Bool}
    {lazyJoins : List JoinRule} {target : Target}
    (herrors : (start dialect catalog cacheable lazyJoins target).plan.errors = []) :
    (start dialect catalog cacheable lazyJoins target).Holds {} [] := by
  rcases Plan.mapTarget_of_mapRoot herrors with ⟨before, mapped, hmap, hclean⟩
  have hmaps := Plan.maps_mapTarget hmap hclean
  have hroot : (start dialect catalog cacheable lazyJoins target).plan = { before with
      table := some mapped.table, quotedTable := mapped.quotedTable
      source := some mapped.source } := Plan.mapRoot_of_ok hmap
  -- mapping the primary target opens no join and begins no clause
  refine ⟨⟨fun _ => ?_, nofun⟩, nofun, fun _ => rfl, ?_⟩
  · rw [hroot]
    exact hmaps.conditions
  · rw [hroot]
    exact ⟨hmaps.joins, hmaps.openJoin, hmaps.conditions, List.forall_mem_nil _, nofun, nofun⟩

theorem Holds.of_call {lazy : List JoinClause} {call : Call} (h : query.Holds log lazy)
    (hnext : query.call? call = some next) (herrors : next.plan.errors = []) :
    ∃ lazy', (call.asks = false → lazy' = lazy) ∧
      next.Holds (log.after query.plan call) lazy' := by
  rcases call?_eq_some.1 hnext with ⟨hafter, hplan⟩
  have hready := h.ready.of_call hnext herrors
  rw [hplan] at herrors
  rcases h.plan.apply (h.admits hafter) herrors with ⟨lazy', hsame, hholds⟩
  refine ⟨lazy', hsame, hready, fun hfilters => ?_, fun hstage => ?_, by rwa [hplan]⟩
  · rw [hplan, hholds.conditions]
    have hbefore : call.kind ≠ .startWhere → query.plan.conditions.isSome := by
      intro hkind
      exact h.begun ((Stage.filters_of_after hafter hfilters).resolve_left hkind).1
    cases call with
    | startWhere => rfl
    | filter filters =>
        have hlog := hbefore nofun
        rw [h.plan.conditions] at hlog
        rcases Option.isSome_iff_exists.1 hlog with ⟨known, hknown⟩
        rw [ConditionLog.after, hknown]
        rfl
    | _ =>
        have hlog := hbefore nofun
        rwa [h.plan.conditions] at hlog
  · have hearlier : query.stage ≠ .selecting ∧ call.kind ≠ .shape := by
      constructor
      · exact fun hlast => hstage (Stage.selecting_of_after hafter (.inl hlast)).1
      · exact fun hshape => hstage (Stage.selecting_of_after hafter (.inr hshape)).1
    have hasks : call.asks = false := by
      cases call with
      | fields tokens => exact absurd rfl hearlier.2
      | addField token => exact absurd rfl hearlier.2
      | _ => rfl
    rw [hsame hasks, h.lazily hearlier.1]

theorem Gathers.holds {target : Target} (h : query.Gathers target log)
    (herrors : query.plan.errors = []) : ∃ lazy, query.Holds log lazy := by
  induction h with
  | start => exact ⟨[], holds_start herrors⟩
  | call _ hnext ih =>
      rcases ih ((continues_call? hnext).errors_nil herrors) with ⟨lazy, hholds⟩
      rcases hholds.of_call hnext herrors with ⟨lazy', -, hnext⟩
      exact ⟨lazy', hnext⟩

end Query

/-! ## Statements -/

namespace Filter

variable {columns : ColumnMap}

/-- The text of a condition among others: a list of conditions stands in parentheses. -/
def WrittenAs (columns : ColumnMap) (filter : Filter) (part : Statement) : Prop :=
  ∃ written, filter.render columns = .ok written ∧
    part = if filter.isGroup then parenthesized written else written

/-- The text of conditions that must all hold: each stands in it once, in their order. -/
def Conjoined (columns : ColumnMap) : List Filter → Statement → Prop
  | [], text => text = .ofText "1=1"
  | [filter], text => filter.render columns = .ok text
  | filters, text =>
    ∃ parts, List.Forall₂ (WrittenAs columns) filters parts ∧ text = .join " AND " parts

theorem writtenAs_renderEach {filters : List Filter} {parts : List Statement}
    (h : renderEach columns filters = .ok parts) :
    List.Forall₂ (WrittenAs columns) filters parts := by
  induction filters generalizing parts with
  | nil =>
      rw [renderEach] at h
      cases h
      exact .nil
  | cons filter rest ih =>
      rw [renderEach] at h
      rcases bind_eq_ok.1 h with ⟨written, hwritten, h⟩
      rcases bind_eq_ok.1 h with ⟨others, hothers, h⟩
      cases h
      exact .cons ⟨written, hwritten, rfl⟩ (ih hothers)

theorem conjoined_render {filters : List Filter} {text : Statement}
    (h : (Filter.and filters).render columns = .ok text) : Conjoined columns filters text := by
  match filters with
  | [] =>
      rw [render] at h
      cases h
      rfl
  | [filter] =>
      rw [render] at h
      exact h
  | first :: second :: rest =>
      rw [render] at h
      · rcases map_eq_ok.1 h with ⟨parts, hparts, rfl⟩
        exact ⟨parts, writtenAs_renderEach hparts, rfl⟩
      · exact nofun
      · exact nofun

end Filter

/-- A join's clause: behind its front stand the join's conditions. -/
def JoinClause.WrittenAs (columns : ColumnMap) (join : JoinClause) (clause : Statement) : Prop :=
  ∃ on, clause = join.opening.front ++ on ∧ Filter.Conjoined columns join.on on

/-- The `WHERE` clause of conditions; without any there is none. -/
def WhereWritten (columns : ColumnMap) (filters : List Filter) (clause : Statement) : Prop :=
  match filters with
  | [] => clause = .empty
  | filters => ∃ text, clause = .ofText " WHERE " ++ text ∧ Filter.Conjoined columns filters text

namespace Plan

variable {plan : Plan} {columns : ColumnMap} {written : Statement}

theorem writtenAs_joinClauses {joins : List JoinClause}
    (h : joinClauses columns joins = .ok written) :
    ∃ clauses, written = .inRow clauses ∧
      List.Forall₂ (JoinClause.WrittenAs columns) joins clauses := by
  induction joins generalizing written with
  | nil =>
      cases h
      exact ⟨[], rfl, .nil⟩
  | cons join rest ih =>
      rw [joinClauses] at h
      rcases bind_eq_ok.1 h with ⟨first, hfirst, h⟩
      rcases bind_eq_ok.1 h with ⟨others, hothers, h⟩
      cases h
      rcases ih hothers with ⟨clauses, rfl, hclauses⟩
      rcases bind_eq_ok.1 hfirst with ⟨on, hon, hfirst⟩
      cases hfirst
      rw [← join.front_opening]
      exact ⟨_ :: clauses, rfl, .cons ⟨on, rfl, Filter.conjoined_render hon⟩ hclauses⟩

theorem whereWritten_whereClause {filters : List Filter}
    (h : whereClause columns filters = .ok written) : WhereWritten columns filters written := by
  cases filters with
  | nil =>
      cases h
      rfl
  | cons first rest =>
      rw [whereClause] at h
      · rcases map_eq_ok.1 h with ⟨text, htext, rfl⟩
        exact ⟨text, rfl, Filter.conjoined_render htext⟩
      · exact List.cons_ne_nil _ _

/-- In the clauses of a query, the conditions of joins stand in their join clauses and the others in
the `WHERE` clause. -/
def ClausesPlace (joins : List JoinClause) (conditions : List Filter) (plan : Plan)
    (written : Statement) : Prop :=
  ∃ clauses condition order,
    written = plan.fromClause ++ .inRow clauses ++ condition ++ plan.groupClause ++ order ++
      plan.paging ∧
    List.Forall₂ (JoinClause.WrittenAs plan.columns) joins clauses ∧
    WhereWritten plan.columns conditions condition ∧
    plan.orderClause = .ok order

/-- Where conditions stand in a statement: a `SELECT` and a count have a clause for each join and
one for the other conditions, an `UPDATE` and a `DELETE` have a single clause for all of them. -/
def Places (joins : List JoinClause) (conditions : List Filter) (plan : Plan)
    (written : Statement) : Action → Prop
  | .select => ∃ clauses, written = .ofText ("SELECT " ++ ", ".intercalate
      (plan.columns.selected.map (selectItem plan.dialect))) ++ clauses ∧
    plan.ClausesPlace joins conditions clauses
  | .count => ∃ clauses, written = .ofText "SELECT count(*)" ++ clauses ∧
    plan.ClausesPlace joins conditions clauses
  | .update => ∃ condition,
    written = .ofText ("UPDATE " ++ plan.quotedTable ++ " SET ") ++
      .join ", " (plan.assignments.map fun (column, value) =>
        .ofText (column ++ "=") ++ .ofValue value) ++ plan.joinSources " FROM " ++ condition ∧
    WhereWritten plan.columns (conditions ++ joins.flatMap (·.on)) condition
  | .delete => ∃ condition,
    written = .ofText ("DELETE FROM " ++ plan.quotedTable) ++ plan.joinSources " USING " ++
      condition ∧
    WhereWritten plan.columns (conditions ++ joins.flatMap (·.on)) condition
  -- these have no conditions
  | .insert | .truncate => True

theorem clausesPlace_queryClauses (h : plan.queryClauses = .ok written) :
    plan.ClausesPlace plan.allJoins (plan.conditions.getD []) written := by
  rcases bind_eq_ok.1 h with ⟨joins, hjoins, h⟩
  rcases bind_eq_ok.1 h with ⟨conditions, hconditions, h⟩
  rcases bind_eq_ok.1 h with ⟨order, horder, h⟩
  cases h
  rcases writtenAs_joinClauses hjoins with ⟨clauses, rfl, hclauses⟩
  exact ⟨clauses, conditions, order, rfl, hclauses, whereWritten_whereClause hconditions, horder⟩

theorem places_statement {action : Action} (h : plan.statement action = .ok written) :
    plan.Places plan.allJoins (plan.conditions.getD []) written action := by
  cases action with
  | select =>
      rcases bind_eq_ok.1 h with ⟨_, -, h⟩
      split at h
      · cases h
      · rcases bind_eq_ok.1 h with ⟨_, hclauses, h⟩
        cases h
        exact ⟨_, rfl, clausesPlace_queryClauses hclauses⟩
  | count =>
      rcases bind_eq_ok.1 h with ⟨_, -, h⟩
      rcases bind_eq_ok.1 h with ⟨_, hclauses, h⟩
      cases h
      exact ⟨_, rfl, clausesPlace_queryClauses hclauses⟩
  | update =>
      rcases bind_eq_ok.1 h with ⟨_, -, h⟩
      split at h
      · cases h
      · rcases bind_eq_ok.1 h with ⟨condition, hcondition, h⟩
        cases h
        exact ⟨condition, rfl, whereWritten_whereClause hcondition⟩
  | delete =>
      rcases bind_eq_ok.1 h with ⟨_, -, h⟩
      rcases bind_eq_ok.1 h with ⟨condition, hcondition, h⟩
      cases h
      exact ⟨condition, rfl, whereWritten_whereClause hcondition⟩
  | insert => trivial
  | truncate => trivial

end Plan

namespace Query

variable {query : Query} {log : ConditionLog}

/-- A join's conditions are those that it was given while it was open, its own links once at most,
and those of the `WHERE` clause are the ones given behind its begin.  Each of them is written once
and in that order, in the clause of its join or in the `WHERE` clause, or else in the one clause
that an `UPDATE` and a `DELETE` have; besides these, only lazy joins bring conditions, one each. -/
theorem Gathers.conditions_placed {target : Target} (h : query.Gathers target log)
    (herrors : query.plan.errors = []) : ∃ lazy : List JoinClause,
      (∀ join ∈ lazy, join.IsLazy) ∧ (query.stage ≠ .selecting → lazy = []) ∧
      query.plan.joins = log.finished.map (·.clause) ++ lazy ∧
      query.plan.openJoin = log.latest.map (·.clause) ∧
      query.plan.conditions = log.conditions ∧
      (∀ join ∈ log.joins, join.given.countP Given.isReferences ≤ 1) ∧
      (∀ action ∈ [Action.select, Action.count], ∀ statement,
        query.plan.statement action = .ok statement →
          query.plan.Places (log.clauses lazy) (log.conditions.getD []) statement action) ∧
      ∀ action ∈ [Action.update, Action.delete], query.stage.offers action → ∀ statement,
        query.plan.statement action = .ok statement →
          query.plan.Places (log.joins.map (·.clause)) (log.conditions.getD []) statement
            action := by
  rcases h.holds herrors with ⟨lazy, hholds⟩
  have hplan := hholds.plan
  have hplaces {action : Action} {statement : Statement}
      (hstatement : query.plan.statement action = .ok statement) :
      query.plan.Places (log.clauses lazy) (log.conditions.getD []) statement action := by
    rw [← hplan.allJoins, ← hplan.conditions]
    exact Plan.places_statement hstatement
  refine ⟨lazy, hplan.lazily, hholds.lazily, hplan.joins, hplan.openJoin, hplan.conditions,
    hplan.once, fun action _ statement hstatement => hplaces hstatement, ?_⟩
  intro action haction hoffers statement hstatement
  have hstage : query.stage ≠ .selecting :=
    Stage.ne_selecting_of_offers hoffers (by simpa using haction)
  have hnone := hholds.lazily hstage
  subst hnone
  rw [← ConditionLog.clauses_nil]
  exact hplaces hstatement

end Query

namespace Towns

/-- Conditions that are given to the teams: by name, by their links, and while they are open. -/
def chosen : List Filter :=
  [.null (.field ⟨6⟩) true, .link "\"players\"" "\"team_id\"" "\"team\"" "\"id\"",
    .compare (.field ⟨6⟩) .like (.value (.text "F%"))]

/-- Conditions that are given behind the begin of the `WHERE` clause. -/
def unnamed : List Filter :=
  [.null (.field ⟨3⟩) false, .or [.truth (.field ⟨2⟩) false, .truth (.field ⟨3⟩) true]]

/-- Players without a nickname are taken out of their teams. -/
def removal : List Call :=
  [.join .inner (.model (team.1.target catalog)), .on [.null (.field ⟨6⟩) true], .references,
    .filter [.compare (.field ⟨6⟩) .like (.value (.text "F%"))], .startWhere,
    .filter [.null (.field ⟨3⟩) false],
    .filter [.or [.truth (.field ⟨2⟩) false, .truth (.field ⟨3⟩) true]]]

def removed : Query :=
  ⟨.filtering, removal.foldl Plan.apply start.plan⟩

def deletion : Statement :=
  .ofText "DELETE FROM \"players\"" ++
    (.ofText " USING " ++ (.ofText "\"teams\"" ++ .ofText " AS \"team\"")) ++
    (.ofText " WHERE " ++ .join " AND "
      [.ofText "\"players\".\"nick\"" ++ .ofText " IS NULL",
        Filter.parenthesized (.join " OR " [.ofText "" ++ .ofText "\"players\".\"id\"",
          .ofText "NOT " ++ .ofText "\"players\".\"nick\""]),
        .ofText "\"team\".\"name\"" ++ .ofText " IS NOT NULL",
        .ofText "\"players\".\"team_id\" = \"team\".\"id\"",
        .ofText "\"team\".\"name\"" ++ .ofText " LIKE " ++ .ofValue (.text "F%")])

/-- The conditions of the team stand behind those of the players, each once. -/
theorem conditions_placed_removed : ∃ log,
    Query.Gathers (.model (players.1.target catalog)) removed log ∧
      log.joins.map (·.on) = [chosen] ∧ log.conditions = some unnamed ∧
      removed.plan.statement .delete = .ok deletion ∧ ∃ condition,
        deletion = .ofText "DELETE FROM \"players\"" ++ removed.plan.joinSources " USING " ++
          condition ∧ WhereWritten removed.plan.columns (unnamed ++ chosen) condition := by
  have hcalls : start.calls? removal = some removed := rfl
  have hgathers : Query.Gathers (.model (players.1.target catalog)) removed _ :=
    Query.Gathers.start.of_calls? hcalls
  have hdeleted : removed.plan.statement .delete = .ok deletion := rfl
  rcases hgathers.conditions_placed rfl with ⟨_, -, -, -, -, -, -, -, hwrites⟩
  have hplaces := hwrites .delete (by decide) (by decide) deletion hdeleted
  exact ⟨_, hgathers, rfl, rfl, hdeleted, hplaces⟩

end Towns

end FieldQuery
