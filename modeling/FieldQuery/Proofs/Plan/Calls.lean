import FieldQuery.Plan.Stage
import FieldQuery.Proofs.Plan.Growth

/-!
# What calls add to a plan

A builder call adds what its target brings along and the conditions it is given, and takes nothing
away, as long as the plan stays free of errors.  Beginning the `WHERE` clause would lose conditions
that are there already; the stages see to it that it is begun once.

Main definitions:

- `Call.brings`, `Call.conditions`: what comes in with a call.
- `Plan.Applies`: what a call adds to a plan.
- `Query.Ready`: what the stage of a query says about its plan.

Main statements: `Plan.applies_apply` and `Query.Ready.of_call`.
-/

namespace FieldQuery

namespace Call

def target? : Call → Option Target
  | .join _ target => some target
  | _ => none

/-- The conditions that a call adds. -/
def conditions : Call → List Filter
  | .on filters => filters
  | .filter filters => filters
  | _ => []

/-- The tables that the target of a call brings along. -/
def brings (dialect : Dialect) (call : Call) : List String :=
  (call.target?.map (·.brings dialect)).getD []

end Call

namespace Plan

variable {plan next : Plan}

/-- What a call adds to a plan. -/
structure Applies (call : Call) (plan next : Plan) : Prop where
  grows : ∃ added, Grows added (call.brings plan.dialect) plan next
  conditions : call.conditions ⊆ next.allConditions
  target : ∀ target, call.target? = some target → ∃ source ∈ next.allSources,
    target.WrittenAs source

/-- A call without target and conditions. -/
theorem Applies.of_grows {call : Call} (htarget : call.target? = none)
    (hconditions : call.conditions = []) (h : ∃ added, Grows added [] plan next) :
    Applies call plan next := by
  refine ⟨?_, ?_, ?_⟩
  · rw [Call.brings, htarget]
    exact h
  · rw [hconditions]
    exact List.nil_subset _
  · rw [htarget]
    intro target heq
    cases heq

theorem grows_assign {token : Token} {value : BindValue}
    (h : (plan.assign token value).errors = []) : Grows [] [] plan (plan.assign token value) := by
  unfold assign at h ⊢
  split at h
  · exact .of_eq h rfl rfl rfl rfl
  · exact absurd h (errors_fail _ _)

theorem grows_groupBy {token : Token} (h : (plan.groupBy token).errors = []) :
    Grows [] [] plan (plan.groupBy token) := by
  unfold groupBy at h ⊢
  split at h
  · exact .of_eq h rfl rfl rfl rfl
  · exact absurd h (errors_fail _ _)

theorem grows_orderBy {operand : Operand} {direction : String}
    (h : (plan.orderBy operand direction).errors = []) :
    Grows [] [] plan (plan.orderBy operand direction) := by
  unfold orderBy at h ⊢
  split at h
  · exact absurd h (errors_fail _ _)
  · split at h
    · rename_i hfield
      rw [if_pos hfield]
      exact .of_eq h rfl rfl rfl rfl
    · exact absurd h (errors_fail _ _)

/-- A call adds to a plan that stays free of errors; the `WHERE` clause is begun once. -/
theorem applies_apply {call : Call} (hwhere : call = .startWhere → plan.conditions = none)
    (h : (plan.apply call).errors = []) : Applies call plan (plan.apply call) := by
  cases call with
  | join kind target =>
      have hopened := grows_openJoinOn h
      refine ⟨hopened.1, List.nil_subset _, ?_⟩
      rintro _ ⟨⟩
      exact hopened.2.1
  | startWhere =>
      have hnone := hwhere rfl
      exact .of_grows rfl rfl ⟨[], grows_startWhere h hnone⟩
  | on filters =>
      have hadded := grows_addOn h
      exact ⟨⟨[], hadded.1⟩, hadded.2, fun target heq => by cases heq⟩
  | references => exact .of_grows rfl rfl ⟨[], grows_addReferences h⟩
  | filter filters =>
      have herrors : plan.errors = [] := (errors_addFilters filters plan).symm.trans h
      have hadded := grows_addFilters filters herrors
      exact ⟨⟨[], hadded.1⟩, hadded.2, fun target heq => by cases heq⟩
  | assign token value => exact .of_grows rfl rfl ⟨[], grows_assign h⟩
  | orderBy operand direction => exact .of_grows rfl rfl ⟨[], grows_orderBy h⟩
  | discardOrder => exact .of_grows rfl rfl ⟨[], .of_eq h rfl rfl rfl rfl⟩
  | groupBy token => exact .of_grows rfl rfl ⟨[], grows_groupBy h⟩
  | limit count => exact .of_grows rfl rfl ⟨[], .of_eq h rfl rfl rfl rfl⟩
  | offset count => exact .of_grows rfl rfl ⟨[], .of_eq h rfl rfl rfl rfl⟩
  | fields tokens => exact .of_grows rfl rfl (grows_restrictFields h)
  | addField token => exact .of_grows rfl rfl (grows_addField h)
  | withoutCache => exact .of_grows rfl rfl ⟨[], .of_eq h rfl rfl rfl rfl⟩

/-- Errors stay. -/
theorem errors_of_apply {call : Call} (h : (plan.apply call).errors = []) : plan.errors = [] := by
  by_cases hwhere : call = .startWhere
  · subst hwhere
    exact h
  · rcases (applies_apply (fun heq => absurd heq hwhere) h).grows with ⟨added, hgrows⟩
    exact hgrows.errors

/-- No source is lost, not even when the `WHERE` clause is begun. -/
theorem sources_of_apply {call : Call} (h : (plan.apply call).errors = []) :
    plan.allSources ⊆ (plan.apply call).allSources := by
  by_cases hwhere : call = .startWhere
  · subst hwhere
    have hjoins : plan.startWhere.allJoins = plan.allJoins := List.append_nil _
    show plan.allSources ⊆ plan.startWhere.allSources
    rw [allSources, allSources, hjoins]
    exact List.Subset.refl _
  · rcases (applies_apply (fun heq => absurd heq hwhere) h).grows with ⟨added, hgrows⟩
    exact hgrows.sources

theorem conditions_assign (plan : Plan) (token : Token) (value : BindValue) :
    (plan.assign token value).conditions = plan.conditions := by
  unfold assign
  split <;> rfl

end Plan

/-! ## Stages -/

namespace Stage

variable {stage next : Stage} {kind : CallKind}

theorem widened_of_joins (h : stage.joins) : stage.widened?.isSome := by
  cases stage <;> first | rfl | cases h

theorem widened_of_startWhere (h : stage.after? .startWhere = some next) :
    stage.widened?.isSome := by
  cases stage <;> first | rfl | cases h

/-- The stages that admit joins are reached from each other only, while the `WHERE` clause has not
begun. -/
theorem widened_of_after (h : stage.after? kind = some next) (hnext : next.widened?.isSome) :
    stage.widened?.isSome ∧ kind ≠ .startWhere ∧ kind ≠ .shape ∧
      (kind = .filter → stage.joins) := by
  cases stage <;> cases kind <;> cases h <;> first | decide | cases hnext

/-- Narrowing leads to the last stage of a query, which no call leaves and which admits no join. -/
theorem selecting_of_after (h : stage.after? kind = some next)
    (hselecting : stage = .selecting ∨ kind = .shape) : next = .selecting ∧ kind ≠ .join := by
  cases stage <;> cases kind <;> cases h <;> first | decide | simp at hselecting

/-- An open join has just been opened, or was open before. -/
theorem joins_of_after (h : stage.after? kind = some next) (hnext : next.joins) :
    kind = .join ∨ stage.joins ∧ kind ≠ .assign := by
  cases stage <;> cases kind <;> cases h <;> first | decide | cases hnext

end Stage

/-- What the stage of a query says about its plan. -/
structure Query.Ready (query : Query) : Prop where
  conditions : query.stage.widened?.isSome → query.plan.conditions = none
  openJoin : query.stage.joins → query.plan.openJoin.isSome

namespace Query

variable {query next : Query} {call : Call}

theorem call?_eq_some : query.call? call = some next ↔
    query.stage.after? call.kind = some next.stage ∧ next.plan = query.plan.apply call := by
  unfold call?
  rw [Option.map_eq_some_iff]
  constructor
  · rintro ⟨stage, hstage, rfl⟩
    exact ⟨hstage, rfl⟩
  · rintro ⟨hstage, hplan⟩
    exact ⟨next.stage, hstage, by rw [← hplan]⟩

theorem Ready.of_call (h : query.Ready) (hcall : query.call? call = some next)
    (herrors : next.plan.errors = []) : next.Ready := by
  rcases call?_eq_some.1 hcall with ⟨hstage, hplan⟩
  rw [hplan] at herrors
  refine ⟨fun hnext => ?_, fun hnext => ?_⟩
  -- no call but the begin of the clause and conditions behind it gives a plan conditions
  · rcases Stage.widened_of_after hstage hnext with ⟨hwide, hwhere, hshape, hfilter⟩
    have hnone := h.conditions hwide
    rw [hplan]
    cases call with
    | join kind target => exact (Plan.grows_openJoinOn herrors).2.2.1.trans hnone
    | on filters => exact (Plan.joining_addOn herrors).1.trans hnone
    | references => exact (Plan.joining_addReferences herrors).1.trans hnone
    | filter filters =>
        have hclean := (Plan.errors_addFilters filters query.plan).symm.trans herrors
        exact (Plan.joining_addFilters filters hclean hnone (h.openJoin (hfilter rfl))).1
    | assign token value => exact (query.plan.conditions_assign token value).trans hnone
    | withoutCache => exact hnone
    | startWhere => exact absurd rfl hwhere
    | _ => exact absurd rfl hshape
  -- a join is open where one was opened, and stays open behind what is added to it
  · rcases Stage.widened_of_after hstage (Stage.widened_of_joins hnext) with
      ⟨hwide, hwhere, hshape, hfilter⟩
    rw [hplan]
    cases call with
    | join kind target => exact (Plan.grows_openJoinOn herrors).2.2.2
    | on filters => exact (Plan.joining_addOn herrors).2
    | references => exact (Plan.joining_addReferences herrors).2
    | filter filters =>
        have hclean := (Plan.errors_addFilters filters query.plan).symm.trans herrors
        exact (Plan.joining_addFilters filters hclean (h.conditions hwide)
          (h.openJoin (hfilter rfl))).2
    | assign token value =>
        rcases Stage.joins_of_after hstage hnext with heq | ⟨_, hne⟩
        · cases heq
        · exact absurd rfl hne
    | withoutCache =>
        rcases Stage.joins_of_after hstage hnext with heq | ⟨hjoins, _⟩
        · cases heq
        · exact h.openJoin hjoins
    | startWhere => exact absurd rfl hwhere
    | _ => exact absurd rfl hshape

end Query

end FieldQuery
