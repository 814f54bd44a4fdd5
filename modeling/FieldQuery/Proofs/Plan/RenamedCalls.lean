import FieldQuery.Proofs.Plan.Entries
import FieldQuery.Proofs.Plan.Renaming

/-!
# Calls under other tokens

Every builder call looks fields up by their tokens and never asks what a token is.  So a call whose
tokens are renamed does to a plan whose tokens are renamed alike just what it did before, and leaves
behind the same errors but for the tokens in them.

Main statements: `Plan.mapTarget_rename`, `Plan.apply_rename` and `Query.call?_rename`.
-/

namespace FieldQuery

/-! ## Mapping -/

namespace MappingScope

/-- The scope under a relation with another token. -/
def rename (ρ : Token ↪ Token) (scope : MappingScope) : MappingScope :=
  { scope with parent := scope.parent.map (·.rename ρ) }

variable (ρ : Token ↪ Token) (scope : MappingScope)

theorem basePath_rename : (scope.rename ρ).basePath = scope.basePath := by
  unfold basePath
  have hparent : (scope.rename ρ).parent = scope.parent.map (·.rename ρ) := rfl
  rw [hparent]
  cases scope.parent <;> rfl

theorem mayLink_rename (column : Column) :
    (scope.rename ρ).mayLink column = scope.mayLink column := by
  unfold mayLink
  have hrelation : (scope.rename ρ).parent.bind (·.column.relation) =
      scope.parent.bind (·.column.relation) := by
    show (scope.parent.map (·.rename ρ)).bind _ = _
    cases scope.parent <;> rfl
  rw [hrelation]
  rfl

theorem entry_rename (column : Column) (token : Token) :
    (scope.rename ρ).entry column (ρ token) = (scope.entry column token).rename ρ := by
  unfold entry
  rw [basePath_rename]
  show _ = Entry.rename ρ (Entry.mk ..)
  have hparent : (scope.rename ρ).parent.map (·.token) = (scope.parent.map (·.token)).map ρ := by
    show (scope.parent.map (·.rename ρ)).map _ = _
    cases scope.parent <;> rfl
  rw [hparent]
  rfl

/-- What has been mapped, with other tokens. -/
noncomputable def renameMapped (ρ : Token ↪ Token) (mapped : ColumnMap × List Filter) :
    ColumnMap × List Filter :=
  (mapped.1.rename ρ, mapped.2.map (·.rename ρ))

theorem mapColumn_rename (mapped : ColumnMap × List Filter) (column : Column) (token : Token) :
    (scope.rename ρ).mapColumn (renameMapped ρ mapped) column (ρ token) =
      renameMapped ρ (scope.mapColumn mapped column token) := by
  have hqueryable := ColumnMap.queryable_rename ρ mapped.1 token
  have hentered (h : scope.mayLink column = false ∨
      ∀ entry, mapped.1.queryable token ≠ .ok entry) :
      (scope.rename ρ).mapColumn (renameMapped ρ mapped) column (ρ token) =
        renameMapped ρ (scope.mapColumn mapped column token) := by
    rw [mapColumn_entered h, mapColumn_entered]
    · show (ColumnMap.push (mapped.1.rename ρ) _, _) = _
      rw [entry_rename, ColumnMap.push_rename]
      rfl
    · refine h.imp (fun hnot => (scope.mayLink_rename ρ column).trans hnot) fun hnone entry => ?_
      show (mapped.1.rename ρ).queryable (ρ token) ≠ _
      rw [hqueryable]
      cases hfound : mapped.1.queryable token with
      | error error => nofun
      | ok known => exact absurd hfound (hnone known)
  cases hlinks : scope.mayLink column with
  | false => exact hentered (.inl hlinks)
  | true =>
      cases hfound : mapped.1.queryable token with
      | error error =>
          refine hentered (.inr fun entry hok => ?_)
          rw [hfound] at hok
          cases hok
      | ok entry =>
          rw [hfound] at hqueryable
          rw [mapColumn_linked hlinks hfound,
            mapColumn_linked ((scope.mayLink_rename ρ column).trans hlinks) hqueryable]
          show (ColumnMap.modify (mapped.1.rename ρ) (ρ token) _, _) = _
          rw [basePath_rename, ColumnMap.modify_rename]
          · show (_, mapped.2.map _ ++ _) = (_, (mapped.2 ++ _).map _)
            rw [List.map_append]
            rfl
          · intro known
            unfold Entry.addCopy
            show (if known.copies.any _ then _ else _) = _
            split <;> rfl

theorem mapColumns_rename (columns : List (Column × Token)) (mapped : ColumnMap × List Filter) :
    (scope.rename ρ).mapColumns (columns.map (Prod.map id ρ)) (renameMapped ρ mapped) =
      renameMapped ρ (scope.mapColumns columns mapped) := by
  induction columns generalizing mapped with
  | nil => rfl
  | cons pair rest ih =>
      rw [List.map_cons, mapColumns, mapColumns, ← ih, ← mapColumn_rename]
      rfl

end MappingScope

namespace Plan

variable (ρ : Token ↪ Token) (plan : Plan)

theorem fail_rename (error : PlanError) :
    (plan.rename ρ).fail (error.rename ρ) = (plan.fail error).rename ρ := by
  have herrors : plan.errors.map (·.rename ρ) ++ [error.rename ρ] =
      (plan.errors ++ [error]).map (·.rename ρ) := by
    rw [List.map_append, List.map_singleton]
  exact congrArg (fun errors => { plan.rename ρ with errors := errors }) herrors

theorem touch_rename (quoted : String) :
    (plan.rename ρ).touch quoted = (plan.touch quoted).rename ρ := by
  unfold touch
  show (if plan.touched.contains quoted then _ else _) = _
  split <;> rfl

theorem touches_rename (quoted : List String) :
    quoted.foldl touch (plan.rename ρ) = (quoted.foldl touch plan).rename ρ := by
  induction quoted generalizing plan with
  | nil => rfl
  | cons first rest ih => rw [List.foldl_cons, touch_rename, ih, List.foldl_cons]

theorem parentOf_rename (target : ModelTarget) :
    (plan.rename ρ).parentOf (target.rename ρ) = (plan.parentOf target).map (·.rename ρ) := by
  unfold parentOf
  show (target.own.map ρ).bind (plan.columns.rename ρ).relation? = _
  cases target.own with
  | none => rfl
  | some token => exact plan.columns.relation?_rename ρ token

theorem scopeOf_rename (target : ModelTarget) :
    (plan.rename ρ).scopeOf (target.rename ρ) = (plan.scopeOf target).rename ρ := by
  unfold scopeOf
  rw [parentOf_rename]
  cases plan.parentOf target <;> rfl

theorem mappedColumns_rename (target : ModelTarget) :
    (plan.rename ρ).mappedColumns (target.rename ρ) =
      MappingScope.renameMapped ρ (plan.mappedColumns target) := by
  unfold mappedColumns
  rw [scopeOf_rename]
  show (MappingScope.mapColumns _ (List.zip target.table.columns (target.tokens.map ρ)) _) = _
  rw [List.zip_map_right, ← MappingScope.mapColumns_rename]
  rfl

theorem checkTokens_rename (target : ModelTarget) :
    (target.rename ρ).checkTokens = renamedError ρ target.checkTokens := by
  have hlength : (target.rename ρ).tokens.length = target.tokens.length := List.length_map _
  unfold ModelTarget.checkTokens
  rw [hlength]
  show (if target.tokens.length = target.table.columns.length then _ else _) = _
  split <;> rfl

/-- What mapping gives back, with other tokens. -/
noncomputable def renameResult (ρ : Token ↪ Token) (result : Plan × Except PlanError MappedTarget) :
    Plan × Except PlanError MappedTarget :=
  (result.1.rename ρ, renamedError ρ result.2)

/-- Whatever becomes of a reference, its table is touched; its columns are entered if it has a token
for each of them. -/
theorem mapModel_unfold (target : ModelTarget) :
    plan.mapModel target =
      let quoted := plan.dialect.quotedTable target.table.schema target.table.name
      match target.checkTokens with
      | .error error => ({ plan.touch quoted with links := [] }, .error error)
      | .ok () =>
        ({ plan.touch quoted with
            columns := (plan.mappedColumns target).1, links := (plan.mappedColumns target).2 },
          if target.table.columns.any (!·.transient) then
            .ok ⟨target.table, quoted, .named quoted, (plan.parentOf target).map fun parent =>
              plan.dialect.quote (trimStem parent.stem)⟩
          else .error (.mapping (.nothingQueryable target.table.name))) := by
  unfold mapModel
  dsimp only
  rw [touch_eq]
  cases target.checkTokens with
  | error error => rfl
  | ok _ =>
      dsimp only
      unfold mappedColumns scopeOf parentOf
      cases target.own.bind plan.columns.relation? with
      | none => split <;> rfl
      | some parent => split <;> rfl

theorem mapModel_rename (target : ModelTarget) :
    (plan.rename ρ).mapModel (target.rename ρ) = renameResult ρ (plan.mapModel target) := by
  have hcolumns := mappedColumns_rename ρ plan target
  have hcorrelation : ((plan.rename ρ).parentOf (target.rename ρ)).map (fun parent =>
      (plan.rename ρ).dialect.quote (trimStem parent.stem)) =
      (plan.parentOf target).map fun parent => plan.dialect.quote (trimStem parent.stem) := by
    rw [parentOf_rename, Option.map_map]
    rfl
  rw [mapModel_unfold, mapModel_unfold, checkTokens_rename]
  dsimp only
  rw [touch_rename, hcolumns, hcorrelation]
  cases target.checkTokens with
  | error error => rfl
  | ok _ =>
      show (_, if target.table.columns.any (!·.transient) then _ else _) =
        renameResult ρ (_, if _ then _ else _)
      split <;> rfl

/-- The plan with more entries. -/
def withEntries (plan : Plan) (entries : List Entry) : Plan :=
  { plan with columns := entries.foldl .push plan.columns }

/-- The plan with the entries and the tables of a query that it reads from. -/
def reading (plan : Plan) (entries : List Entry) (quoted : List String) : Plan :=
  { quoted.foldl touch (plan.withEntries entries) with links := [] }

theorem withEntries_rename (entries : List Entry) :
    (plan.rename ρ).withEntries (entries.map (·.rename ρ)) =
      (plan.withEntries entries).rename ρ :=
  congrArg (fun columns => { plan.rename ρ with columns := columns })
    (ColumnMap.pushes_rename ρ plan.columns entries)

theorem reading_rename (entries : List Entry) (quoted : List String) :
    (plan.rename ρ).reading (entries.map (·.rename ρ)) quoted =
      (plan.reading entries quoted).rename ρ := by
  unfold reading
  rw [withEntries_rename, touches_rename]
  rfl

/-- The plan with the errors of another one behind its own. -/
def withErrors (plan sub : Plan) : Plan :=
  { plan with errors := plan.errors ++ sub.errors }

theorem withErrors_rename (sub : Plan) :
    (plan.rename ρ).withErrors (sub.rename ρ) = (plan.withErrors sub).rename ρ := by
  have herrors : plan.errors.map (·.rename ρ) ++ sub.errors.map (·.rename ρ) =
      (plan.errors ++ sub.errors).map (·.rename ρ) := List.map_append.symm
  exact congrArg (fun errors => { plan.rename ρ with errors := errors }) herrors

/-- The entries of another plan, as they are taken over. -/
def importedEntries (plan sub : Plan) : List Entry :=
  sub.columns.entries.map (importEntry plan.dialect sub.quotedTable plan.isBare)

theorem importedEntries_rename (sub : Plan) :
    (plan.rename ρ).importedEntries (sub.rename ρ) =
      (plan.importedEntries sub).map (·.rename ρ) := by
  show (sub.columns.entries.map (·.rename ρ)).map _ = (sub.columns.entries.map _).map _
  rw [List.map_map, List.map_map]
  rfl

/-- The columns and the touched tables of another plan come in, whatever the errors. -/
theorem mapPlan_unfold (sub : Plan) :
    plan.mapPlan sub = match sub.selectStatement with
      | .ok query => ((plan.withErrors sub).reading (plan.importedEntries sub) sub.touched,
        ⟨sub.tableOrModel, sub.quotedTable, .derived query sub.quotedTable, none⟩)
      | .error error =>
        (((plan.withErrors sub).fail error).reading (plan.importedEntries sub) sub.touched,
          ⟨sub.tableOrModel, sub.quotedTable, .derived .empty sub.quotedTable, none⟩) := by
  unfold mapPlan
  cases sub.selectStatement <;> rfl

theorem mapPlan_rename (sub : Plan) :
    (plan.rename ρ).mapPlan (sub.rename ρ) =
      ((plan.mapPlan sub).1.rename ρ, (plan.mapPlan sub).2) := by
  rw [mapPlan_unfold, mapPlan_unfold, sub.selectStatement_rename ρ, withErrors_rename,
    importedEntries_rename, reading_rename]
  cases sub.selectStatement with
  | ok query => rfl
  | error error =>
      show ((((plan.withErrors sub).rename ρ).fail (error.rename ρ)).reading _ _, _) = _
      rw [fail_rename, reading_rename]
      rfl

theorem rawEntries_rename (target : ModelTarget) (query : RawQuery) :
    (plan.rename ρ).rawEntries (target.rename ρ) query =
      (plan.rawEntries target query).map (·.rename ρ) := by
  unfold rawEntries
  show ((List.zip target.table.columns (target.tokens.map ρ)).filter _).map _ = _
  rw [List.zip_map_right, List.filter_map, List.map_map, List.map_map]
  rfl

/-- The columns of a query written by hand come in; the tables that it reads are touched if there
are any. -/
theorem mapRaw_unfold (target : ModelTarget) (query : RawQuery) :
    plan.mapRaw target query =
      let name := plan.dialect.quote (query.correlation.getD target.table.name)
      let entries := plan.rawEntries target query
      match target.checkTokens with
      | .error error => (plan, .error error)
      | .ok () =>
        if entries.isEmpty then
          (plan.withEntries entries, .error (.mapping (.nothingReturned target.table.name)))
        else
          (plan.reading entries
              (((target.table.schema, target.table.name) :: query.reads).map fun table =>
                plan.dialect.quotedTable table.1 table.2),
            .ok ⟨target.table, name, .derived query.statement name, none⟩) := by
  have hempty : (plan.rawEntries target query).isEmpty =
      ((target.table.columns.zip target.tokens).filter fun pair =>
        !pair.1.transient && query.columns.contains pair.1.name).isEmpty := by
    rw [rawEntries, List.isEmpty_map]
  unfold mapRaw
  dsimp only
  rw [hempty]
  cases target.checkTokens with
  | error error => rfl
  | ok _ =>
      dsimp only
      split
      · rfl
      · rw [foldl_touch_reads]
        rfl

theorem mapRaw_rename (target : ModelTarget) (query : RawQuery) :
    (plan.rename ρ).mapRaw (target.rename ρ) query = renameResult ρ (plan.mapRaw target query) := by
  rw [mapRaw_unfold, mapRaw_unfold, checkTokens_rename, rawEntries_rename]
  dsimp only
  rw [List.isEmpty_map, withEntries_rename, reading_rename]
  cases target.checkTokens with
  | error error => rfl
  | ok _ =>
      show (if (plan.rawEntries target query).isEmpty then _ else _) =
        renameResult ρ (if (plan.rawEntries target query).isEmpty then _ else _)
      split <;> rfl

theorem mapTarget_rename (target : Target) :
    (plan.rename ρ).mapTarget (target.rename ρ) = renameResult ρ (plan.mapTarget target) := by
  cases target with
  | model target => exact mapModel_rename ρ plan target
  | plan sub =>
      show (((plan.rename ρ).mapPlan (sub.rename ρ)).1,
        Except.ok ((plan.rename ρ).mapPlan (sub.rename ρ)).2) = _
      rw [mapPlan_rename]
      rfl
  | raw target query => exact mapRaw_rename ρ plan target query

theorem mapRoot_rename (target : Target) :
    (plan.rename ρ).mapRoot (target.rename ρ) = (plan.mapRoot target).rename ρ := by
  unfold mapRoot
  rw [mapTarget_rename]
  rcases plan.mapTarget target with ⟨next, error | mapped⟩
  · exact fail_rename ρ next error
  · rfl

theorem toModel_rename (target : Target) :
    (target.rename ρ).toModel = target.toModel.rename ρ := by
  cases target with
  | plan sub =>
      have htokens : (sub.rename ρ).columns.entries.map (·.token) =
          (sub.columns.entries.map (·.token)).map ρ := by
        show (sub.columns.entries.map (·.rename ρ)).map _ = _
        rw [List.map_map, List.map_map]
        rfl
      exact congrArg (ModelTarget.mk sub.model none) htokens
  | _ => rfl

/-! ## Calls -/

theorem start_rename (dialect : Dialect) (catalog : Catalog) (cacheable : Bool)
    (lazyJoins : List JoinRule) (target : Target) :
    start dialect catalog cacheable lazyJoins (target.rename ρ) =
      (start dialect catalog cacheable lazyJoins target).rename ρ := by
  unfold start
  rw [← mapRoot_rename, toModel_rename]
  rfl

theorem closeJoin_rename : (plan.rename ρ).closeJoin = plan.closeJoin.rename ρ :=
  congrArg (fun joins => { plan.rename ρ with joins := joins, openJoin := none })
    (allJoins_rename ρ plan)

theorem openJoinOn_rename (kind : JoinKind) (target : Target) :
    (plan.rename ρ).openJoinOn kind (target.rename ρ) =
      (plan.openJoinOn kind target).rename ρ := by
  unfold openJoinOn
  rw [closeJoin_rename, mapTarget_rename]
  rcases plan.closeJoin.mapTarget target with ⟨next, error | mapped⟩
  · exact fail_rename ρ next error
  · rfl

theorem addOn_rename (filters : List Filter) :
    (plan.rename ρ).addOn (filters.map (·.rename ρ)) = (plan.addOn filters).rename ρ := by
  unfold addOn
  have hopen : (plan.rename ρ).openJoin = plan.openJoin.map (·.rename ρ) := rfl
  rw [hopen]
  cases plan.openJoin with
  | none => exact fail_rename ρ plan (.malformedJoin .notOpen)
  | some join =>
      have hon : join.on.map (·.rename ρ) ++ filters.map (·.rename ρ) =
          (join.on ++ filters).map (·.rename ρ) := List.map_append.symm
      exact congrArg (fun on => { plan.rename ρ with openJoin := some { join with on := on } }) hon

theorem addReferences_rename : (plan.rename ρ).addReferences = plan.addReferences.rename ρ := by
  unfold addReferences
  have hlinks : (plan.rename ρ).links = plan.links.map (·.rename ρ) := rfl
  rw [hlinks]
  cases plan.links with
  | nil => exact fail_rename ρ plan (.malformedJoin .noReferences)
  | cons first rest => exact addOn_rename ρ { plan with links := [] } (first :: rest)

theorem startWhere_rename : (plan.rename ρ).startWhere = plan.startWhere.rename ρ :=
  congrArg (fun next : Plan => { next with conditions := some [] }) (closeJoin_rename ρ plan)

theorem addFilter_rename (filter : Filter) :
    (plan.rename ρ).addFilter (filter.rename ρ) = (plan.addFilter filter).rename ρ := by
  rcases plan with ⟨dialect, catalog, model, errors, table, quotedTable, source, columns, joins,
    openJoin, links, conditions, assignments, order, grouping, limit, offset, cacheable, touched,
    lazyJoins⟩
  cases conditions with
  | some filters => simp [addFilter, rename]
  | none => cases openJoin <;> simp [addFilter, rename, JoinClause.rename]

theorem addFilters_rename (filters : List Filter) :
    (filters.map (·.rename ρ)).foldl addFilter (plan.rename ρ) =
      (filters.foldl addFilter plan).rename ρ := by
  induction filters generalizing plan with
  | nil => rfl
  | cons first rest ih =>
      rw [List.map_cons, List.foldl_cons, addFilter_rename, ih, List.foldl_cons]

theorem assign_rename (token : Token) (value : BindValue) :
    (plan.rename ρ).assign (ρ token) value = (plan.assign token value).rename ρ := by
  unfold assign
  have hcolumn := ColumnMap.bareColumn_rename ρ plan.columns token
  have hcolumns : (plan.rename ρ).columns = plan.columns.rename ρ := rfl
  rw [hcolumns, hcolumn]
  cases plan.columns.bareColumn token with
  | ok column => rfl
  | error error => exact fail_rename ρ plan error

theorem groupBy_rename (token : Token) :
    (plan.rename ρ).groupBy (ρ token) = (plan.groupBy token).rename ρ := by
  unfold groupBy
  have hcolumn := ColumnMap.qualifiedColumn_rename ρ plan.columns token
  have hcolumns : (plan.rename ρ).columns = plan.columns.rename ρ := rfl
  rw [hcolumns, hcolumn]
  cases plan.columns.qualifiedColumn token with
  | ok column => rfl
  | error error => exact fail_rename ρ plan error

/-- A direction that cannot be read is no error about a field. -/
theorem parse_rename (direction : String) :
    renamedError ρ (Direction.parse direction) = Direction.parse direction := by
  unfold Direction.parse
  dsimp only
  split
  · rfl
  · split
    · rfl
    · split <;> rfl

theorem orderBy_rename (operand : Operand) (direction : String) :
    (plan.rename ρ).orderBy (operand.rename ρ) direction =
      (plan.orderBy operand direction).rename ρ := by
  unfold orderBy
  rw [Operand.hasField_rename]
  cases hdirection : Direction.parse direction with
  | error error =>
      have hsame : error.rename ρ = error := by
        have hparse := parse_rename ρ direction
        rw [hdirection] at hparse
        exact Except.error.inj hparse
      have hfail := fail_rename ρ plan error
      rwa [hsame] at hfail
  | ok direction =>
      show (if operand.hasField then _ else _) = Plan.rename ρ (if operand.hasField then _ else _)
      split
      · have horder : plan.order.map (·.rename ρ) ++ [(OrderTerm.mk operand direction).rename ρ] =
            (plan.order ++ [OrderTerm.mk operand direction]).map (·.rename ρ) := by
          rw [List.map_append, List.map_singleton]
        exact congrArg (fun order => { plan.rename ρ with order := order }) horder
      · exact fail_rename ρ plan .orderWithoutField

theorem openLazyJoin_rename (entry : Entry) (join : JoinSite → LazyJoin) :
    (plan.rename ρ).openLazyJoin (entry.rename ρ) join =
      (plan.openLazyJoin entry join).rename ρ := by
  let opened := join ⟨entry.quotedTable, entry.quotedColumn, plan.dialect⟩
  let clause : JoinClause :=
    ⟨opened.kind, .named opened.table, opened.correlation, [.verbatim opened.on]⟩
  let select (known : Entry) : Entry :=
    { known with selectTarget := some opened.select, wanted := true }
  have hcolumns : (plan.columns.rename ρ).modify (ρ entry.token) select =
      (plan.columns.modify entry.token select).rename ρ :=
    ColumnMap.modify_rename ρ plan.columns select (fun _ => rfl) entry.token
  have hjoins : plan.joins.map (·.rename ρ) ++ [clause] =
      (plan.joins ++ [clause]).map (·.rename ρ) := by
    rw [List.map_append]
    rfl
  have hplan : ({ plan.rename ρ with
        columns := (plan.columns.rename ρ).modify (ρ entry.token) select
        joins := plan.joins.map (·.rename ρ) ++ [clause] } : Plan) =
      ({ plan with
        columns := plan.columns.modify entry.token select
        joins := plan.joins ++ [clause] } : Plan).rename ρ := by
    rw [hcolumns, hjoins]
    rfl
  show ({ plan.rename ρ with
    columns := (plan.columns.rename ρ).modify (ρ entry.token) select
    joins := plan.joins.map (·.rename ρ) ++ [clause] } : Plan).touch opened.table = _
  rw [hplan, touch_rename]
  rfl

theorem addField_of_unknown {plan : Plan} {token : Token}
    (hnone : plan.columns.find? token = none) :
    plan.addField token = plan.fail (.unresolvedField token) := by
  simp only [addField, ColumnMap.locate, hnone]

theorem addField_rename (token : Token) :
    (plan.rename ρ).addField (ρ token) = (plan.addField token).rename ρ := by
  have hfound : (plan.rename ρ).columns.find? (ρ token) =
      (plan.columns.find? token).map (·.rename ρ) := ColumnMap.find?_rename ρ plan.columns token
  cases hentry : plan.columns.find? token with
  | none =>
      rw [hentry] at hfound
      rw [addField_of_unknown hentry, addField_of_unknown hfound]
      exact fail_rename ρ plan (.unresolvedField token)
  | some entry =>
      rw [hentry] at hfound
      by_cases hplain : entry.selectTarget.isSome ∨ entry.lazyJoin = none
      · rw [addField_of_plain hentry hplain, addField_of_plain hfound hplain]
        show (if entry.column.transient && entry.selectTarget.isNone then _ else _) = _
        split
        · exact fail_rename ρ plan (.transientField entry.column.name)
        · exact congrArg (fun columns => { plan.rename ρ with columns := columns })
            (ColumnMap.modify_rename ρ plan.columns (fun entry => { entry with wanted := true })
              (fun _ => rfl) token)
      · rcases not_or.1 hplain with ⟨hnone, hlazy⟩
        rcases Option.ne_none_iff_exists'.1 hlazy with ⟨join, hjoin⟩
        have htarget : entry.selectTarget = none := Option.not_isSome_iff_eq_none.1 hnone
        rw [addField_of_lazy hentry htarget hjoin, addField_of_lazy hfound htarget hjoin]
        exact openLazyJoin_rename ρ plan entry join

theorem addFields_rename (tokens : List Token) :
    (tokens.map ρ).foldl addField (plan.rename ρ) = (tokens.foldl addField plan).rename ρ := by
  induction tokens generalizing plan with
  | nil => rfl
  | cons first rest ih =>
      rw [List.map_cons, List.foldl_cons, addField_rename, ih, List.foldl_cons]

theorem restrictFields_rename (tokens : List Token) :
    (plan.rename ρ).restrictFields (tokens.map ρ) = (plan.restrictFields tokens).rename ρ := by
  have hentries : (plan.columns.entries.map (·.rename ρ)).map
      (fun entry => { entry with wanted := false }) =
      (plan.columns.entries.map fun entry => { entry with wanted := false }).map
        (·.rename ρ) := by
    rw [List.map_map, List.map_map]
    rfl
  have hunwanted : (plan.rename ρ).unwanted = plan.unwanted.rename ρ :=
    congrArg (fun entries => { plan.rename ρ with columns := ⟨entries⟩ }) hentries
  rw [restrictFields_eq, restrictFields_eq, hunwanted, addFields_rename]

/-- A call does to a plan under other tokens what it did before. -/
theorem apply_rename (call : Call) :
    (plan.rename ρ).apply (call.rename ρ) = (plan.apply call).rename ρ := by
  cases call with
  | join kind target => exact openJoinOn_rename ρ plan kind target
  | startWhere => exact startWhere_rename ρ plan
  | on filters => exact addOn_rename ρ plan filters
  | references => exact addReferences_rename ρ plan
  | filter filters => exact addFilters_rename ρ plan filters
  | assign token value => exact assign_rename ρ plan token value
  | orderBy operand direction => exact orderBy_rename ρ plan operand direction
  | discardOrder => rfl
  | groupBy token => exact groupBy_rename ρ plan token
  | limit count => rfl
  | offset count => rfl
  | fields tokens => exact restrictFields_rename ρ plan tokens
  | addField token => exact addField_rename ρ plan token
  | withoutCache => rfl

end Plan

namespace Query

variable (ρ : Token ↪ Token)

theorem start_rename (dialect : Dialect) (catalog : Catalog) (cacheable : Bool)
    (lazyJoins : List JoinRule) (target : Target) :
    start dialect catalog cacheable lazyJoins (target.rename ρ) =
      (start dialect catalog cacheable lazyJoins target).rename ρ :=
  congrArg (Query.mk .queried) (Plan.start_rename ρ dialect catalog cacheable lazyJoins target)

/-- A stage admits a call whatever its tokens. -/
theorem call?_rename (query : Query) (call : Call) :
    (query.rename ρ).call? (call.rename ρ) = (query.call? call).map (·.rename ρ) := by
  have hkind : (call.rename ρ).kind = call.kind := by cases call <;> rfl
  unfold call?
  rw [hkind, Option.map_map]
  show (query.stage.after? call.kind).map _ = _
  exact congrArg (Option.map · _) (funext fun stage =>
    congrArg (Query.mk stage) (query.plan.apply_rename ρ call))

end Query

end FieldQuery
