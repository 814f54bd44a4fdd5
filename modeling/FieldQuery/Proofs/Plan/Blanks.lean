import FieldQuery.Proofs.Condition.Demands
import FieldQuery.Proofs.Plan.Notes
import FieldQuery.Proofs.Plan.RenamedCalls

/-!
# Plans without their data

Two plans that differ in their data only are one plan once the data are blanked: the values of
operands and lists, what is assigned, the numbers of a limit and an offset, and the texts of queries,
in which such data stand.  No builder call looks at any of these, so each does to a blank plan what
it did before.

Main definitions:

- `Operand.blank`, `Filter.blank`, `Plan.blank`: without data.

Main statements: `Plan.mapModel_blank`, `Plan.mapPlan_blank` and `Plan.mapRaw_blank` for targets, and
`Plan.apply_blank` for calls.
-/

namespace FieldQuery

/-! ## Conditions -/

namespace Operand

mutual

/-- An operand without its values. -/
def blank : Operand → Operand
  | .field token => .field token
  | .value _ => .value .none
  | .wrapped template operands => .wrapped template (blankAll operands)

def blankAll : List Operand → List Operand
  | [] => []
  | operand :: operands => blank operand :: blankAll operands

end

mutual

/-- Whether a field occurs is told without the values. -/
theorem hasField_blank : ∀ operand : Operand, operand.blank.hasField = operand.hasField
  | .field token => by rw [blank]
  | .value v => by rw [blank, hasField, hasField]
  | .wrapped template operands => by rw [blank, hasField, hasField, anyHasField_blankAll]

theorem anyHasField_blankAll : ∀ operands : List Operand,
    anyHasField (blankAll operands) = anyHasField operands
  | [] => by rw [blankAll]
  | operand :: operands => by
      rw [blankAll, anyHasField, anyHasField, hasField_blank, anyHasField_blankAll]

end

end Operand

def Fragment.blank : Fragment → Fragment
  | .value _ => .value .none
  | fragment => fragment

namespace Filter

mutual

/-- A condition without its values, and without the queries that it looks into. -/
def blank : Filter → Filter
  | .and filters => .and (blankAll filters)
  | .or filters => .or (blankAll filters)
  | .not filter => .not (blank filter)
  | .compare left comparison right => .compare left.blank comparison right.blank
  | .null operand negated => .null operand.blank negated
  | .truth operand negated => .truth operand.blank negated
  | .inList operand _ => .inList operand.blank []
  | .inQuery operand _ => .inQuery operand.blank .empty
  | .verbatim condition => .verbatim condition
  | .invalid error => .invalid error
  | .custom steps => .custom fun columns => (steps columns).map Fragment.blank

def blankAll : List Filter → List Filter
  | [] => []
  | filter :: filters => blank filter :: blankAll filters

end

theorem blankAll_eq (filters : List Filter) : blankAll filters = filters.map blank := by
  induction filters with
  | nil => rw [blankAll, List.map_nil]
  | cons filter filters ih => rw [blankAll, List.map_cons, ih]

/-- A link compares columns only. -/
theorem blank_link (link : Link) : link.filter.blank = link.filter := by
  rw [Link.filter, blank]

end Filter

/-! ## Plans -/

def Source.blank : Source → Source
  | .named quoted => .named quoted
  | .derived _ correlation => .derived .empty correlation

def JoinClause.blank (join : JoinClause) : JoinClause :=
  { join with source := join.source.blank, on := join.on.map Filter.blank }

def OrderTerm.blank (term : OrderTerm) : OrderTerm :=
  { term with operand := term.operand.blank }

def MappedTarget.blank (mapped : MappedTarget) : MappedTarget :=
  { mapped with source := mapped.source.blank }

def RawQuery.blank (query : RawQuery) : RawQuery :=
  { query with statement := .empty }

namespace Plan

/-- The plan without its data. -/
def blank (plan : Plan) : Plan :=
  { plan with
    source := plan.source.map (·.blank)
    joins := plan.joins.map (·.blank)
    openJoin := plan.openJoin.map (·.blank)
    links := plan.links.map (·.blank)
    conditions := plan.conditions.map (·.map (·.blank))
    assignments := plan.assignments.map fun assignment => (assignment.1, .none)
    order := plan.order.map (·.blank)
    limit := 0
    offset := 0 }

/-- What mapping gives back, without data. -/
def blankResult (result : Plan × Except PlanError MappedTarget) :
    Plan × Except PlanError MappedTarget :=
  (result.1.blank, result.2.map (·.blank))

variable (plan : Plan)

theorem touch_blank (quoted : String) : plan.blank.touch quoted = (plan.touch quoted).blank := by
  unfold touch
  show (if plan.touched.contains quoted then _ else _) = _
  split <;> rfl

theorem touches_blank (quoted : List String) :
    quoted.foldl touch plan.blank = (quoted.foldl touch plan).blank := by
  induction quoted generalizing plan with
  | nil => rfl
  | cons first rest ih => rw [List.foldl_cons, touch_blank, ih, List.foldl_cons]

/-! ## Mapping -/

theorem links_blank (target : ModelTarget) :
    (plan.mappedColumns target).2.map (·.blank) = (plan.mappedColumns target).2 := by
  have hlinks : (plan.mappedColumns target).2 = (plan.linksTo target).map Link.filter := by
    simp [mappedColumns, MappingScope.links_eq, linksTo]
  rw [hlinks, List.map_map]
  exact List.map_congr_left fun link _ => Filter.blank_link link

theorem mapModel_blank (target : ModelTarget) :
    plan.blank.mapModel target = blankResult (plan.mapModel target) := by
  have hcolumns : plan.blank.mappedColumns target = plan.mappedColumns target := rfl
  have hparent : plan.blank.parentOf target = plan.parentOf target := rfl
  rw [mapModel_unfold, mapModel_unfold]
  dsimp only
  rw [touch_blank, hcolumns, hparent]
  cases target.checkTokens with
  | error error => rfl
  | ok _ =>
      have hlinks := plan.links_blank target
      dsimp only
      split
      · exact congrArg (fun links => (({ (plan.touch _).blank with
          columns := (plan.mappedColumns target).1, links := links } : Plan), _)) hlinks.symm
      · exact congrArg (fun links => (({ (plan.touch _).blank with
          columns := (plan.mappedColumns target).1, links := links } : Plan), _)) hlinks.symm

theorem reading_blank (entries : List Entry) (quoted : List String) :
    plan.blank.reading entries quoted = (plan.reading entries quoted).blank := by
  have hentries : plan.blank.withEntries entries = (plan.withEntries entries).blank := rfl
  unfold reading
  rw [hentries, touches_blank]
  rfl

/-- Besides its data, another plan brings in what its `SELECT` is refused for. -/
theorem mapPlan_blank (sub : Plan) :
    blankResult (plan.mapTarget (.plan sub)) =
      ((match refusal sub.selectStatement with
        | none => plan.blank.withErrors sub.blank
        | some error => (plan.blank.withErrors sub.blank).fail error).reading
          (plan.blank.importedEntries sub.blank) sub.blank.touched,
      .ok ⟨sub.blank.tableOrModel, sub.blank.quotedTable,
        .derived .empty sub.blank.quotedTable, none⟩) := by
  show blankResult ((plan.mapPlan sub).1, .ok (plan.mapPlan sub).2) = _
  rw [mapPlan_unfold]
  cases sub.selectStatement with
  | ok query =>
      have hread := reading_blank (plan.withErrors sub) (plan.importedEntries sub) sub.touched
      exact congrArg (Prod.mk · _) hread.symm
  | error error =>
      have hread := reading_blank ((plan.withErrors sub).fail error) (plan.importedEntries sub)
        sub.touched
      exact congrArg (Prod.mk · _) hread.symm

theorem mapRaw_blank (target : ModelTarget) (query : RawQuery) :
    plan.blank.mapRaw target query.blank = blankResult (plan.mapRaw target query) := by
  have hentries : plan.blank.rawEntries target query.blank = plan.rawEntries target query := rfl
  rw [mapRaw_unfold, mapRaw_unfold, hentries]
  dsimp only
  rw [reading_blank]
  cases target.checkTokens with
  | error error => rfl
  | ok _ =>
      dsimp only
      split <;> rfl

/-! ## Calls -/

theorem closeJoin_blank : plan.blank.closeJoin = plan.closeJoin.blank := by
  have hjoins : plan.blank.allJoins = plan.allJoins.map (·.blank) := by
    unfold allJoins
    rw [List.map_append]
    cases hopen : plan.openJoin <;> simp [blank, hopen]
  exact congrArg (fun joins => { plan.blank with joins := joins, openJoin := none }) hjoins

theorem addOn_blank (filters : List Filter) :
    plan.blank.addOn (filters.map (·.blank)) = (plan.addOn filters).blank := by
  unfold addOn
  have hopen : plan.blank.openJoin = plan.openJoin.map (·.blank) := rfl
  rw [hopen]
  cases plan.openJoin with
  | none => rfl
  | some join =>
      have hon : join.on.map (·.blank) ++ filters.map (·.blank) =
          (join.on ++ filters).map (·.blank) := List.map_append.symm
      exact congrArg (fun on => { plan.blank with
        openJoin := some { join with source := join.source.blank, on := on } }) hon

theorem addReferences_blank : plan.blank.addReferences = plan.addReferences.blank := by
  unfold addReferences
  have hlinks : plan.blank.links = plan.links.map (·.blank) := rfl
  rw [hlinks]
  cases plan.links with
  | nil => rfl
  | cons first rest => exact addOn_blank { plan with links := [] } (first :: rest)

theorem startWhere_blank : plan.blank.startWhere = plan.startWhere.blank :=
  congrArg (fun next : Plan => { next with conditions := some [] }) (closeJoin_blank plan)

theorem addFilter_blank (filter : Filter) :
    plan.blank.addFilter filter.blank = (plan.addFilter filter).blank := by
  unfold addFilter
  have hconditions : plan.blank.conditions = plan.conditions.map (·.map (·.blank)) := rfl
  have hopen : plan.blank.openJoin = plan.openJoin.map (·.blank) := rfl
  rw [hconditions, hopen]
  cases plan.conditions with
  | some filters => simp [blank]
  | none => cases plan.openJoin <;> simp [blank, JoinClause.blank]

theorem addFilters_blank (filters : List Filter) :
    (filters.map (·.blank)).foldl addFilter plan.blank = (filters.foldl addFilter plan).blank := by
  induction filters generalizing plan with
  | nil => rfl
  | cons first rest ih =>
      rw [List.map_cons, List.foldl_cons, addFilter_blank, ih, List.foldl_cons]

theorem columns_blank : plan.blank.columns = plan.columns := rfl

theorem assign_blank (token : Token) (value : BindValue) :
    plan.blank.assign token .none = (plan.assign token value).blank := by
  unfold assign
  rw [columns_blank]
  cases plan.columns.bareColumn token with
  | ok column =>
      have hassigned : plan.blank.assignments ++ [(column, BindValue.none)] =
          (plan.assignments ++ [(column, value)]).map fun assignment => (assignment.1, .none) := by
        rw [List.map_append]
        rfl
      exact congrArg (fun assignments => { plan.blank with assignments := assignments }) hassigned
  | error error => rfl

theorem groupBy_blank (token : Token) : plan.blank.groupBy token = (plan.groupBy token).blank := by
  unfold groupBy
  rw [columns_blank]
  cases plan.columns.qualifiedColumn token <;> rfl

theorem orderBy_blank (operand : Operand) (direction : String) :
    plan.blank.orderBy operand.blank direction = (plan.orderBy operand direction).blank := by
  unfold orderBy
  rw [Operand.hasField_blank]
  cases Direction.parse direction with
  | error error => rfl
  | ok direction =>
      dsimp only
      split
      · have horder : plan.blank.order ++ [⟨operand.blank, direction⟩] =
            (plan.order ++ [OrderTerm.mk operand direction]).map (·.blank) := by
          rw [List.map_append]
          rfl
        exact congrArg (fun order => { plan.blank with order := order }) horder
      · rfl

/-- A lazy join is opened on its column and nothing else. -/
theorem openLazyJoin_blank (entry : Entry) (join : JoinSite → LazyJoin) :
    plan.blank.openLazyJoin entry join = (plan.openLazyJoin entry join).blank := by
  let opened := join ⟨entry.quotedTable, entry.quotedColumn, plan.dialect⟩
  let clause : JoinClause :=
    ⟨opened.kind, .named opened.table, opened.correlation, [.verbatim opened.on]⟩
  have hclause : clause.blank = clause := by
    simp [clause, JoinClause.blank, Source.blank, Filter.blank]
  have hjoins : plan.blank.joins ++ [clause] = (plan.joins ++ [clause]).map (·.blank) := by
    rw [List.map_append, List.map_singleton, hclause]
    rfl
  unfold openLazyJoin
  dsimp only
  rw [← touch_blank]
  exact congrArg (fun joins => Plan.touch { plan.blank with
    columns := plan.columns.modify entry.token fun entry =>
      { entry with selectTarget := some opened.select, wanted := true }
    joins := joins } opened.table) hjoins

theorem addField_blank (token : Token) : plan.blank.addField token = (plan.addField token).blank := by
  unfold addField
  rw [columns_blank]
  cases plan.columns.locate token with
  | error error => rfl
  | ok entry =>
      dsimp only
      split
      · exact openLazyJoin_blank plan entry _
      · split <;> rfl

theorem addFields_blank (tokens : List Token) :
    tokens.foldl addField plan.blank = (tokens.foldl addField plan).blank := by
  induction tokens generalizing plan with
  | nil => rfl
  | cons first rest ih => rw [List.foldl_cons, addField_blank, ih, List.foldl_cons]

theorem restrictFields_blank (tokens : List Token) :
    plan.blank.restrictFields tokens = (plan.restrictFields tokens).blank :=
  addFields_blank plan.unwanted tokens

end Plan

/-- A call without its data; a target is left as it is. -/
def Call.blank : Call → Call
  | .on filters => .on (filters.map (·.blank))
  | .filter filters => .filter (filters.map (·.blank))
  | .assign token _ => .assign token .none
  | .orderBy operand direction => .orderBy operand.blank direction
  | .limit _ => .limit 0
  | .offset _ => .offset 0
  | call => call

/-- A call does to a blank plan what it did before. -/
theorem Plan.apply_blank (plan : Plan) {call : Call} (htarget : call.target? = none) :
    plan.blank.apply call.blank = (plan.apply call).blank := by
  cases call with
  | join kind target => cases htarget
  | startWhere => exact startWhere_blank plan
  | on filters => exact addOn_blank plan filters
  | references => exact addReferences_blank plan
  | filter filters => exact addFilters_blank plan filters
  | assign token value => exact assign_blank plan token value
  | orderBy operand direction => exact orderBy_blank plan operand direction
  | discardOrder => rfl
  | groupBy token => exact groupBy_blank plan token
  | limit count => rfl
  | offset count => rfl
  | fields tokens => exact restrictFields_blank plan tokens
  | addField token => exact addField_blank plan token
  | withoutCache => rfl

namespace Plan

variable (plan : Plan)

/-- Opening a join asks no more of a target than what mapping it gives back. -/
theorem openJoinOn_blank (kind : JoinKind) (target : Target) :
    (plan.openJoinOn kind target).blank =
      match blankResult (plan.closeJoin.mapTarget target) with
      | (next, .ok mapped) =>
        { next with openJoin := some ⟨kind, mapped.source, mapped.correlation, []⟩ }
      | (next, .error error) => next.fail error := by
  unfold openJoinOn
  rcases plan.closeJoin.mapTarget target with ⟨next, error | mapped⟩ <;> rfl

theorem mapRoot_blank (target : Target) :
    (plan.mapRoot target).blank =
      match blankResult (plan.mapTarget target) with
      | (next, .ok mapped) =>
        { next with
          table := some mapped.table, quotedTable := mapped.quotedTable
          source := some mapped.source }
      | (next, .error error) => next.fail error := by
  unfold mapRoot
  rcases plan.mapTarget target with ⟨next, error | mapped⟩ <;> rfl

end Plan

end FieldQuery
