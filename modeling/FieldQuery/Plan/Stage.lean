import FieldQuery.Plan.Build

/-!
# Stages

A query goes through stages, and each admits some calls only: conditions of a join need an open
one, assignments lead to an insert or an update, and what shapes the rows of a `SELECT` comes last.

Main definitions:

- `Stage`, `Call`: the stages and the builder calls; `CallKind`: what a stage tells calls apart by.
- `Stage.after?`: the stage behind a call, where it is admitted; `Stage.offers`: the actions.
- `Query`: a plan at a stage; `Query.call?` makes a call.
-/

namespace FieldQuery

inductive Stage
  /-- Freshly mapped. -/
  | queried
  /-- With an open join. -/
  | joining
  /-- Gathering conditions. -/
  | filtering
  /-- Being ordered, grouped, paged or narrowed. -/
  | selecting
  /-- With assignments. -/
  | assigning
  /-- With assignments and an open join. -/
  | assignJoining
  /-- With assignments, gathering conditions. -/
  | updating
  deriving DecidableEq, Repr

def Stage.name : Stage → String
  | .queried => "QueryPlan"
  | .joining => "JoinQuery"
  | .filtering => "WhereQuery"
  | .selecting => "SelectQuery"
  | .assigning => "AssignQuery"
  | .assignJoining => "AssignJoinQuery"
  | .updating => "UpdateQuery"

/-- A builder call. -/
inductive Call
  | join (kind : JoinKind) (target : Target)
  | startWhere
  | on (filters : List Filter)
  | references
  | filter (filters : List Filter)
  | assign (token : Token) (value : BindValue)
  | orderBy (operand : Operand) (direction : String)
  | discardOrder
  | groupBy (token : Token)
  | limit (count : Nat)
  | offset (count : Nat)
  | fields (tokens : List Token)
  | addField (token : Token)
  | withoutCache

/-- The kinds of calls that a stage tells apart. -/
inductive CallKind
  | join
  | startWhere
  | on
  | references
  | filter
  | assign
  /-- Ordering, grouping, paging and narrowing. -/
  | shape
  | withoutCache
  deriving DecidableEq, Repr

def Call.kind : Call → CallKind
  | .join _ _ => .join
  | .startWhere => .startWhere
  | .on _ => .on
  | .references => .references
  | .filter _ => .filter
  | .assign _ _ => .assign
  | .orderBy _ _ | .discardOrder | .groupBy _ | .limit _ | .offset _ | .fields _ | .addField _ =>
    .shape
  | .withoutCache => .withoutCache

namespace Stage

/-- Whether the stage leads to a `SELECT`. -/
def selects : Stage → Bool
  | .queried | .joining | .filtering | .selecting => true
  | .assigning | .assignJoining | .updating => false

/-- Whether the stage has an open join. -/
def joins : Stage → Bool
  | .joining | .assignJoining => true
  | _ => false

/-- The stage behind a join and the stage behind the begin of a `WHERE` clause. -/
def widened? : Stage → Option (Stage × Stage)
  | .queried | .joining => some (.joining, .filtering)
  | .assigning | .assignJoining => some (.assignJoining, .updating)
  | .filtering | .selecting | .updating => none

/-- The stage behind a call, where calls of its kind are admitted. -/
def after? (stage : Stage) : CallKind → Option Stage
  | .join => stage.widened?.map (·.1)
  | .startWhere => stage.widened?.map (·.2)
  | .on | .references => if stage.joins then some stage else none
  | .filter =>
    if stage.joins || stage == .filtering || stage == .updating then some stage else none
  | .assign => if stage == .queried || stage == .assigning then some .assigning else none
  | .shape => if stage.selects then some .selecting else none
  | .withoutCache => if stage.selects then some stage else none

/-- Whether a plan at the stage can be run for an action. -/
def offers (stage : Stage) : Action → Bool
  | .select => stage.selects
  | .count => stage.selects
  | .delete => stage == .queried || stage == .joining || stage == .filtering
  | .truncate => stage == .queried
  | .insert => stage == .assigning
  | .update => stage == .assigning || stage == .assignJoining || stage == .updating

end Stage

/-- The plan behind a call. -/
def Plan.apply (plan : Plan) : Call → Plan
  | .join kind target => plan.openJoinOn kind target
  | .startWhere => plan.startWhere
  | .on filters => plan.addOn filters
  | .references => plan.addReferences
  | .filter filters => filters.foldl addFilter plan
  | .assign token value => plan.assign token value
  | .orderBy operand direction => plan.orderBy operand direction
  | .discardOrder => { plan with order := [] }
  | .groupBy token => plan.groupBy token
  | .limit count => { plan with limit := count }
  | .offset count => { plan with offset := count }
  | .fields tokens => plan.restrictFields tokens
  | .addField token => plan.addField token
  | .withoutCache => { plan with cacheable := false }

/-- A plan at a stage. -/
structure Query where
  stage : Stage
  plan : Plan

namespace Query

/-- A query on its primary target. -/
def start (dialect : Dialect) (catalog : Catalog) (cacheable : Bool) (lazyJoins : List JoinRule)
    (target : Target) : Query :=
  ⟨.queried, Plan.start dialect catalog cacheable lazyJoins target⟩

/-- Makes a call that the stage admits. -/
def call? (query : Query) (call : Call) : Option Query :=
  (query.stage.after? call.kind).map fun stage => ⟨stage, query.plan.apply call⟩

end Query

end FieldQuery
