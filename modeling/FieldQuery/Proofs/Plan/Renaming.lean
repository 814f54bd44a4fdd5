import FieldQuery.Assembly
import FieldQuery.Proofs.Condition.Renaming

/-!
# Renaming tokens in plans

No token is written into a statement, and none tells where a value belongs in a model.  So a plan
whose tokens are renamed has the same statements, and makes the same models of the same rows.

Main definitions:

- `Plan.rename`, `Target.rename`, `Call.rename`: plans, targets and calls with other tokens.

Main statements: `Plan.statement_rename`, `Filter.inPlan_rename` and `Plan.decode_rename`.
-/

namespace FieldQuery

/-- The join with other tokens in its conditions. -/
noncomputable def JoinClause.rename (ρ : Token ↪ Token) (join : JoinClause) : JoinClause :=
  { join with on := join.on.map (·.rename ρ) }

def OrderTerm.rename (ρ : Token ↪ Token) (term : OrderTerm) : OrderTerm :=
  { term with operand := term.operand.rename ρ }

def ModelTarget.rename (ρ : Token ↪ Token) (target : ModelTarget) : ModelTarget :=
  { target with own := target.own.map ρ, tokens := target.tokens.map ρ }

/-- The plan with other tokens. -/
noncomputable def Plan.rename (ρ : Token ↪ Token) (plan : Plan) : Plan :=
  { plan with
    errors := plan.errors.map (·.rename ρ)
    columns := plan.columns.rename ρ
    joins := plan.joins.map (·.rename ρ)
    openJoin := plan.openJoin.map (·.rename ρ)
    links := plan.links.map (·.rename ρ)
    conditions := plan.conditions.map (·.map (·.rename ρ))
    order := plan.order.map (·.rename ρ) }

/-- The target with other tokens. -/
noncomputable def Target.rename (ρ : Token ↪ Token) : Target → Target
  | .model target => .model (target.rename ρ)
  | .plan sub => .plan (sub.rename ρ)
  | .raw target query => .raw (target.rename ρ) query

/-- The call with other tokens. -/
noncomputable def Call.rename (ρ : Token ↪ Token) : Call → Call
  | .join kind target => .join kind (target.rename ρ)
  | .startWhere => .startWhere
  | .on filters => .on (filters.map (·.rename ρ))
  | .references => .references
  | .filter filters => .filter (filters.map (·.rename ρ))
  | .assign token value => .assign (ρ token) value
  | .orderBy operand direction => .orderBy (operand.rename ρ) direction
  | .discardOrder => .discardOrder
  | .groupBy token => .groupBy (ρ token)
  | .limit count => .limit count
  | .offset count => .offset count
  | .fields tokens => .fields (tokens.map ρ)
  | .addField token => .addField (ρ token)
  | .withoutCache => .withoutCache

/-- The query with other tokens. -/
noncomputable def Query.rename (ρ : Token ↪ Token) (query : Query) : Query :=
  ⟨query.stage, query.plan.rename ρ⟩

/-! ## Statements -/

theorem JoinClause.render_rename (ρ : Token ↪ Token) (columns : ColumnMap) (join : JoinClause) :
    (join.rename ρ).render (columns.rename ρ) = renamedError ρ (join.render columns) := by
  have hon : (Filter.and (join.on.map (·.rename ρ))).render (columns.rename ρ) =
      renamedError ρ ((Filter.and join.on).render columns) := by
    rw [← Filter.render_rename, Filter.rename, Filter.renameAll_eq]
  rw [render, render, renamedError_bind, ← hon]
  rfl

namespace Plan

variable (ρ : Token ↪ Token) (columns : ColumnMap) (plan : Plan)

theorem joinClauses_rename : ∀ joins : List JoinClause,
    joinClauses (columns.rename ρ) (joins.map (·.rename ρ)) =
      renamedError ρ (joinClauses columns joins)
  | [] => rfl
  | join :: rest => by
      rw [List.map_cons, joinClauses, joinClauses]
      simp only [renamedError_bind, JoinClause.render_rename, joinClauses_rename rest]
      rfl

theorem orderTerms_rename : ∀ terms : List OrderTerm,
    orderTerms (columns.rename ρ) (terms.map (·.rename ρ)) =
      renamedError ρ (orderTerms columns terms)
  | [] => rfl
  | term :: rest => by
      rw [List.map_cons, orderTerms, orderTerms]
      simp only [renamedError_bind, ← Operand.render_rename, orderTerms_rename rest]
      rfl

theorem whereClause_rename (filters : List Filter) :
    whereClause (columns.rename ρ) (filters.map (·.rename ρ)) =
      renamedError ρ (whereClause columns filters) := by
  cases filters with
  | nil => rfl
  | cons first rest =>
      rw [List.map_cons, whereClause, whereClause]
      · rw [renamedError_map, ← Filter.render_rename, Filter.rename, Filter.renameAll_eq]
        rfl
      · nofun
      · nofun

theorem allJoins_rename : (plan.rename ρ).allJoins = plan.allJoins.map (·.rename ρ) := by
  rw [allJoins, allJoins, List.map_append]
  show plan.joins.map _ ++ (plan.openJoin.map _).toList = _
  cases plan.openJoin <;> rfl

theorem conditions_rename : (plan.rename ρ).conditions.getD [] =
    (plan.conditions.getD []).map (·.rename ρ) := by
  show (plan.conditions.map _).getD [] = _
  cases plan.conditions <;> rfl

theorem check_rename : (plan.rename ρ).check = renamedError ρ plan.check := by
  unfold check
  have herrors : (plan.rename ρ).errors = plan.errors.map (·.rename ρ) := rfl
  have htable : (plan.rename ρ).table = plan.table := rfl
  rw [herrors, htable]
  cases plan.errors with
  | nil => cases plan.table <;> rfl
  | cons error rest => rfl

theorem orderClause_rename : (plan.rename ρ).orderClause = renamedError ρ plan.orderClause := by
  unfold orderClause
  have horder : (plan.rename ρ).order = plan.order.map (·.rename ρ) := rfl
  have hcolumns : (plan.rename ρ).columns = plan.columns.rename ρ := rfl
  rw [horder, hcolumns]
  cases hterms : plan.order with
  | nil => rfl
  | cons term rest =>
      show (orderTerms _ ((term :: rest).map _)).map _ = renamedError ρ (Except.map _ _)
      rw [orderTerms_rename, renamedError_map]

theorem queryClauses_rename : (plan.rename ρ).queryClauses = renamedError ρ plan.queryClauses := by
  unfold queryClauses
  have hcolumns : (plan.rename ρ).columns = plan.columns.rename ρ := rfl
  rw [hcolumns, allJoins_rename, conditions_rename, orderClause_rename, joinClauses_rename,
    whereClause_rename]
  simp only [renamedError_bind]
  rfl

theorem selectStatement_rename :
    (plan.rename ρ).selectStatement = renamedError ρ plan.selectStatement := by
  unfold selectStatement
  have hselected : (plan.rename ρ).columns.selected = plan.columns.selected.map (·.rename ρ) :=
    ColumnMap.selected_rename ρ plan.columns
  rw [check_rename, queryClauses_rename, renamedError_bind, hselected]
  congr 1
  funext table
  cases plan.columns.selected with
  | nil => rfl
  | cons entry rest =>
      -- a field is selected under the same name, whatever its token
      have hitems : ((entry :: rest).map (·.rename ρ)).map (selectItem plan.dialect) =
          (entry :: rest).map (selectItem plan.dialect) := by
        rw [List.map_map]
        rfl
      show (do return .ofText ("SELECT " ++ ", ".intercalate
        (((entry :: rest).map (·.rename ρ)).map (selectItem plan.dialect))) ++
          (← renamedError ρ plan.queryClauses)) = renamedError ρ _
      rw [hitems, renamedError_bind]
      rfl

theorem countStatement_rename :
    (plan.rename ρ).countStatement = renamedError ρ plan.countStatement := by
  unfold countStatement
  rw [check_rename, queryClauses_rename]
  simp only [renamedError_bind]
  rfl

theorem joinSources_rename (keyword : String) :
    (plan.rename ρ).joinSources keyword = plan.joinSources keyword := by
  unfold joinSources
  rw [allJoins_rename]
  cases plan.allJoins with
  | nil => rfl
  | cons join rest =>
      have hsources : ((join :: rest).map (·.rename ρ)).map (·.renderSource) =
          (join :: rest).map (·.renderSource) := by
        rw [List.map_map]
        rfl
      show .ofText keyword ++ Statement.join ", " (((join :: rest).map (·.rename ρ)).map _) = _
      rw [hsources]

theorem foldedWhere_rename : (plan.rename ρ).foldedWhere = renamedError ρ plan.foldedWhere := by
  unfold foldedWhere
  have hon : ∀ joins : List JoinClause, (joins.map (·.rename ρ)).flatMap (·.on) =
      (joins.flatMap (·.on)).map (·.rename ρ) := by
    intro joins
    rw [List.flatMap_map, List.map_flatMap]
    rfl
  rw [allJoins_rename, conditions_rename, hon, ← List.map_append]
  exact whereClause_rename ρ _ _

theorem insertStatement_rename :
    (plan.rename ρ).insertStatement = renamedError ρ plan.insertStatement := by
  unfold insertStatement
  rw [check_rename, renamedError_bind]
  congr 1
  funext table
  have hassignments : (plan.rename ρ).assignments = plan.assignments := rfl
  rw [hassignments]
  cases plan.assignments <;> rfl

theorem updateStatement_rename :
    (plan.rename ρ).updateStatement = renamedError ρ plan.updateStatement := by
  unfold updateStatement
  rw [check_rename, joinSources_rename, foldedWhere_rename, renamedError_bind]
  congr 1
  funext table
  have hassignments : (plan.rename ρ).assignments = plan.assignments := rfl
  rw [hassignments]
  cases plan.assignments with
  | nil => rfl
  | cons assignment rest =>
      show _ = renamedError ρ (_ >>= _)
      rw [renamedError_bind]
      rfl

theorem deleteStatement_rename :
    (plan.rename ρ).deleteStatement = renamedError ρ plan.deleteStatement := by
  unfold deleteStatement
  rw [check_rename, joinSources_rename, foldedWhere_rename]
  simp only [renamedError_bind]
  rfl

theorem truncateStatement_rename :
    (plan.rename ρ).truncateStatement = renamedError ρ plan.truncateStatement := by
  unfold truncateStatement
  rw [check_rename, renamedError_bind]
  rfl

/-- A plan has the same statements under other tokens. -/
theorem statement_rename (action : Action) :
    (plan.rename ρ).statement action = renamedError ρ (plan.statement action) := by
  cases action with
  | select => exact plan.selectStatement_rename ρ
  | count => exact plan.countStatement_rename ρ
  | insert => exact plan.insertStatement_rename ρ
  | update => exact plan.updateStatement_rename ρ
  | delete => exact plan.deleteStatement_rename ρ
  | truncate => exact plan.truncateStatement_rename ρ

end Plan

theorem Filter.inPlan_rename (ρ : Token ↪ Token) (operand : Operand) (plan : Plan) :
    Filter.inPlan (operand.rename ρ) (plan.rename ρ) = (Filter.inPlan operand plan).rename ρ := by
  unfold inPlan
  have herrors : (plan.rename ρ).errors = plan.errors.map (·.rename ρ) := rfl
  rw [herrors, plan.selectStatement_rename ρ]
  cases plan.errors with
  | cons error rest => rfl
  | nil => cases plan.selectStatement <;> rfl

/-! ## Models -/

section Models

variable (ρ : Token ↪ Token) (entries : List Entry)

theorem listPaths_rename : listPaths (entries.map (·.rename ρ)) = listPaths entries := by
  unfold listPaths
  rw [List.flatMap_map]
  rfl

theorem filledPaths_rename (record : Record) :
    filledPaths record (entries.map (·.rename ρ)) = filledPaths record entries := by
  unfold filledPaths
  rw [List.filter_map, List.flatMap_map]
  rfl

theorem keyAliases_rename : keyAliases (entries.map (·.rename ρ)) = keyAliases entries := by
  have hroot : ∀ entry : Entry, ((entry.rename ρ).parent.isNone && entry.column.primaryKey) =
      (entry.parent.isNone && entry.column.primaryKey) := by
    intro entry
    show ((entry.parent.map ρ).isNone && _) = _
    rw [Option.isNone_map]
  unfold keyAliases
  rw [List.filter_map, List.map_map]
  exact congrArg (fun root => (entries.filter root).map (·.label)) (funext hroot)

theorem assemble_rename (fresh : Json) (record : Record) :
    assemble (entries.map (·.rename ρ)) fresh record = assemble entries fresh record := by
  unfold assemble
  simp only [listPaths_rename, filledPaths_rename, List.foldl_map]
  rfl

theorem gather_rename (fresh : Json) (records : List Record) :
    gather (entries.map (·.rename ρ)) fresh records = gather entries fresh records := by
  unfold gather
  simp only [listPaths_rename, keyAliases_rename, assemble_rename]

end Models

namespace Plan

variable (ρ : Token ↪ Token) (plan : Plan)

/-- A plan makes the same models of the same rows under other tokens. -/
theorem decode_rename (records : List Record) :
    (plan.rename ρ).decode records = plan.decode records := by
  have hselected : (plan.rename ρ).columns.selected = plan.columns.selected.map (·.rename ρ) :=
    ColumnMap.selected_rename ρ plan.columns
  unfold decode
  rw [hselected, gather_rename]
  rfl

end Plan

end FieldQuery
