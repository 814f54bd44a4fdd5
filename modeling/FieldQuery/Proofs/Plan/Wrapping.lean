import FieldQuery.Proofs.Database.Refusals
import FieldQuery.Proofs.Plan.DerivedTables
import FieldQuery.Proofs.Plan.JoinOrder
import FieldQuery.Proofs.Plan.WriteTargets

/-!
# A query on a plan

A plan that is queried again becomes a derived table, and what it selects is selected again: each
field under its alias, read from the column of that name.  An expression that stands for a column is
not kept, because outside it is such a column too; but a column that is not stored is selected only
for its expression, and so it is lost.  Every further query loses nothing more.

Main definitions:

- `Plan.wrapped`: a query on a plan; `Query.Wraps`: any number of them around each other.
- `Plan.storedSelection`: the selected fields with stored columns.
- `Entry.Transparent`: a change to a field that decoding does not see.

Main statement: `Query.Wraps.selects_stored`.
-/

namespace FieldQuery

/-! ## Decoding -/

/-- A change to a field that leaves alone what decoding reads of it. -/
structure Entry.Transparent (change : Entry → Entry) : Prop where
  label : ∀ entry, (change entry).label = entry.label
  column : ∀ entry, (change entry).column = entry.column
  parent : ∀ entry, (change entry).parent = entry.parent
  path : ∀ entry, (change entry).path = entry.path
  copies : ∀ entry, (change entry).copies = entry.copies

namespace Entry.Transparent

variable {change : Entry → Entry}

theorem value? (h : Transparent change) (entry : Entry) (record : Record) :
    (change entry).value? record = entry.value? record := by
  rw [Entry.value?, h.label, ← Entry.value?]

theorem listPaths (h : Transparent change) (entries : List Entry) :
    listPaths (entries.map change) = FieldQuery.listPaths entries := by
  simp [FieldQuery.listPaths, List.flatMap_map, h.path]

theorem keyAliases (h : Transparent change) (entries : List Entry) :
    keyAliases (entries.map change) = FieldQuery.keyAliases entries := by
  simp [FieldQuery.keyAliases, List.filter_map, Function.comp_def, h.parent, h.column, h.label]

theorem filledPaths (h : Transparent change) (record : Record) (entries : List Entry) :
    filledPaths record (entries.map change) = FieldQuery.filledPaths record entries := by
  simp [FieldQuery.filledPaths, List.filter_map, List.flatMap_map, Function.comp_def, h.value?,
    h.path]

theorem assemble (h : Transparent change) (entries : List Entry) (fresh : Json)
    (record : Record) :
    assemble (entries.map change) fresh record = FieldQuery.assemble entries fresh record := by
  have hplaced : ∀ row entry, Entry.placeIn record row (change entry) =
      Entry.placeIn record row entry := by
    intro row entry
    rw [Entry.placeIn, h.value?, h.path, ← Entry.placeIn]
  have hcopied : ∀ row entry, Entry.placeCopies record row (change entry) =
      Entry.placeCopies record row entry := by
    intro row entry
    rw [Entry.placeCopies, h.value?, h.copies, ← Entry.placeCopies]
  simp only [FieldQuery.assemble, List.foldl_map, hplaced, hcopied, h.listPaths, h.filledPaths]

theorem gather (h : Transparent change) (entries : List Entry) (fresh : Json)
    (records : List Record) :
    gather (entries.map change) fresh records = FieldQuery.gather entries fresh records := by
  simp only [FieldQuery.gather, h.listPaths, h.keyAliases, h.assemble]

end Entry.Transparent

/-- Fields of which no two have a token are all added. -/
theorem ColumnMap.pushAll_new {entries : List Entry} {columns : ColumnMap}
    (h : ((columns.entries ++ entries).map (·.token)).Nodup) :
    entries.foldl push columns = ⟨columns.entries ++ entries⟩ := by
  induction entries generalizing columns with
  | nil => rw [List.append_nil]; rfl
  | cons first rest ih =>
      -- the first one's token is not among those before it
      have hnew : columns.contains first.token = false := by
        rw [List.map_append, List.map_cons, List.nodup_append] at h
        refine Bool.eq_false_iff.2 fun hknown => ?_
        rcases contains_iff.1 hknown with ⟨entry, hentry, htoken⟩
        exact h.2.2 _ (List.mem_map_of_mem hentry) _ List.mem_cons_self htoken
      rw [List.foldl_cons, push_new hnew, ih]
      · rw [List.append_assoc, List.singleton_append]
      · rw [List.append_assoc, List.singleton_append]
        exact h

/-! ## One query around a plan -/

namespace Plan

variable {plan : Plan} {query : Statement} {cacheable : Bool} {lazyJoins : List JoinRule}

/-- A query on a plan, for the same database. -/
def wrapped (plan : Plan) (cacheable : Bool) (lazyJoins : List JoinRule) : Query :=
  .start plan.dialect plan.catalog cacheable lazyJoins (.plan plan)

/-- A field of a plan, as the query on it has it. -/
def outside (plan : Plan) : Entry → Entry :=
  importEntry plan.dialect plan.quotedTable true

/-- The selected fields whose columns are stored. -/
def storedSelection (plan : Plan) : List Entry :=
  plan.columns.selected.filter fun entry => !entry.column.transient

theorem transparent_outside (plan : Plan) : Entry.Transparent plan.outside :=
  ⟨fun _ => rfl, fun _ => rfl, fun _ => rfl, fun _ => rfl, fun _ => rfl⟩

theorem isSelected_outside (plan : Plan) (entry : Entry) :
    (plan.outside entry).isSelected = (entry.isSelected && !entry.column.transient) := by
  have houtside : (plan.outside entry).isSelected = (entry.wanted && !entry.column.transient) := by
    simp [outside, importEntry, Entry.isSelected]
  rw [houtside, Entry.isSelected]
  cases entry.wanted <;> cases entry.column.transient <;> simp

/-- A selected field is read from the column that its alias names. -/
theorem selectExpr_outside {entry : Entry} (h : entry.isSelected = true) :
    (plan.outside entry).selectExpr =
      plan.quotedTable ++ "." ++ plan.dialect.quote entry.label := by
  simp [outside, importEntry, Entry.selectExpr, Entry.qualified, h]

/-- Only what a query selects is selected by the query around it, if it is stored. -/
theorem selected_outside (plan : Plan) :
    (⟨plan.columns.entries.map plan.outside⟩ : ColumnMap).selected =
      plan.storedSelection.map plan.outside := by
  simp only [ColumnMap.selected, storedSelection, List.filter_map, List.filter_filter,
    Function.comp_def, isSelected_outside, Bool.and_comm]

theorem mem_storedSelection {entry : Entry} : entry ∈ plan.storedSelection ↔
    entry ∈ plan.columns.selected ∧ entry.column.transient = false := by
  simp [storedSelection, List.mem_filter]

theorem storedSelection_eq_iff : plan.storedSelection = plan.columns.selected ↔
    ∀ entry ∈ plan.columns.selected, entry.column.transient = false := by
  simp [storedSelection, List.filter_eq_self]

/-- A selection that is stored as a whole loses no field. -/
theorem tokens_storedSelection_iff :
    plan.storedSelection.map (·.token) = plan.columns.selected.map (·.token) ↔
      ∀ entry ∈ plan.columns.selected, entry.column.transient = false := by
  rw [← storedSelection_eq_iff]
  constructor
  · intro hsame
    -- a filtered list that is as long as before has lost nothing
    have hlength : plan.storedSelection.length = plan.columns.selected.length := by
      simpa using congrArg List.length hsame
    exact List.filter_sublist.eq_of_length hlength
  · intro hwhole
    rw [hwhole]

theorem selected_ne_nil (hcompiles : plan.selectStatement = .ok query) :
    plan.columns.selected ≠ [] := by
  intro hnil
  rcases bind_eq_ok.1 hcompiles with ⟨-, -, hrest⟩
  rw [hnil] at hrest
  cases hrest

/-- A plan that can be written brings no error along. -/
theorem mapRoot_plan (plan : Plan) {sub : Plan} (hcompiles : sub.selectStatement = .ok query) :
    ∃ touched, plan.mapRoot (.plan sub) = { plan with
      table := some sub.tableOrModel, quotedTable := sub.quotedTable
      source := some (.derived query sub.quotedTable), links := [], touched := touched
      columns := (sub.columns.entries.map
        (importEntry plan.dialect sub.quotedTable plan.isBare)).foldl .push plan.columns } := by
  have hstatement : sub.statement .select = .ok query := hcompiles
  have hclean : sub.errors = [] := errors_of_statement hstatement
  unfold mapRoot mapTarget mapPlan
  dsimp only
  rw [foldl_touch_eq, hcompiles, hclean, List.append_nil]
  exact ⟨_, rfl⟩

/-- The query on a plan that can be written. -/
theorem plan_wrapped (hcompiles : plan.selectStatement = .ok query)
    (hdistinct : plan.columns.Distinct) (cacheable : Bool) (lazyJoins : List JoinRule) :
    ∃ touched, (plan.wrapped cacheable lazyJoins).plan =
      { dialect := plan.dialect, catalog := plan.catalog, model := plan.model
        table := some plan.tableOrModel, quotedTable := plan.quotedTable
        source := some (.derived query plan.quotedTable)
        columns := ⟨plan.columns.entries.map plan.outside⟩, cacheable := cacheable
        touched := touched, lazyJoins := lazyJoins } := by
  -- taking a plan over keeps the tokens, so all of its fields come in
  have htokens : ((({} : ColumnMap).entries ++ plan.columns.entries.map plan.outside).map
      (·.token)).Nodup := by
    show ((plan.columns.entries.map plan.outside).map (·.token)).Nodup
    rw [List.map_map]
    exact hdistinct
  have hcolumns : (plan.columns.entries.map plan.outside).foldl .push {} =
      (⟨plan.columns.entries.map plan.outside⟩ : ColumnMap) := ColumnMap.pushAll_new htokens
  rcases mapRoot_plan { dialect := plan.dialect, catalog := plan.catalog, model := plan.model
                        cacheable := cacheable, lazyJoins := lazyJoins } hcompiles with
    ⟨touched, hroot⟩
  refine ⟨touched, hroot.trans ?_⟩
  rw [← hcolumns]
  rfl

/-- Without a stored field nothing is selected any more. -/
theorem selectStatement_wrapped (hcompiles : plan.selectStatement = .ok query)
    (hdistinct : plan.columns.Distinct) (cacheable : Bool) (lazyJoins : List JoinRule) :
    (plan.storedSelection = [] → (plan.wrapped cacheable lazyJoins).plan.selectStatement =
      .error (.mapping .nothingSelected)) ∧
    (plan.storedSelection ≠ [] →
      ∃ written, (plan.wrapped cacheable lazyJoins).plan.selectStatement = .ok written) := by
  rcases plan_wrapped hcompiles hdistinct cacheable lazyJoins with ⟨touched, hplan⟩
  have hselected := plan.selected_outside
  rw [hplan]
  constructor
  · intro hnone
    rw [hnone, List.map_nil] at hselected
    rw [selectStatement, hselected]
    rfl
  · intro hsome
    rcases List.exists_cons_of_ne_nil hsome with ⟨first, rest, hstored⟩
    rw [hstored, List.map_cons] at hselected
    rw [selectStatement, hselected]
    exact ⟨_, rfl⟩

end Plan

/-! ## Queries around each other -/

namespace Query

/-- A query on a plan, or one on the plan of such a query. -/
inductive Wraps (inner : Plan) : Query → Prop
  | once {cacheable : Bool} {lazyJoins : List JoinRule} :
      Wraps inner (inner.wrapped cacheable lazyJoins)
  | again {outer : Query} {cacheable : Bool} {lazyJoins : List JoinRule} (h : Wraps inner outer) :
      Wraps inner (outer.plan.wrapped cacheable lazyJoins)

/-- A query that selects what is stored of the selection of a plan. -/
structure Repeats (inner : Plan) (outer : Query) : Prop where
  distinct : outer.plan.columns.Distinct
  compiles : ∃ written, outer.plan.selectStatement = .ok written
  source : ∃ read, outer.plan.source = some (.derived read inner.quotedTable)
  selected : outer.plan.columns.selected = inner.storedSelection.map inner.outside
  dialect : outer.plan.dialect = inner.dialect
  catalog : outer.plan.catalog = inner.catalog
  model : outer.plan.model = inner.model
  quotedTable : outer.plan.quotedTable = inner.quotedTable

variable {inner : Plan} {outer : Query}

theorem repeats_wrapped {query : Statement} (hcompiles : inner.selectStatement = .ok query)
    (hdistinct : inner.columns.Distinct) (hstored : inner.storedSelection ≠ []) (cacheable : Bool)
    (lazyJoins : List JoinRule) : (inner.wrapped cacheable lazyJoins).Repeats inner := by
  have hwritten := (Plan.selectStatement_wrapped hcompiles hdistinct cacheable lazyJoins).2 hstored
  rcases Plan.plan_wrapped hcompiles hdistinct cacheable lazyJoins with ⟨touched, hplan⟩
  refine ⟨?_, hwritten, ?_, ?_, ?_, ?_, ?_, ?_⟩
  · rw [hplan]
    show ((inner.columns.entries.map inner.outside).map (·.token)).Nodup
    rw [List.map_map]
    exact hdistinct
  · rw [hplan]
    exact ⟨query, rfl⟩
  · rw [hplan]
    exact inner.selected_outside
  all_goals rw [hplan]

/-- What is stored goes by its alias already, so one more query changes nothing. -/
theorem Repeats.wrapped (h : outer.Repeats inner) (hstored : inner.storedSelection ≠ [])
    (cacheable : Bool) (lazyJoins : List JoinRule) :
    (outer.plan.wrapped cacheable lazyJoins).Repeats inner := by
  have hsame : outer.plan.outside = Plan.importEntry inner.dialect inner.quotedTable true := by
    rw [Plan.outside, h.dialect, h.quotedTable]
  -- everything that the first query selects is stored
  have hkept : outer.plan.storedSelection = inner.storedSelection.map inner.outside := by
    rw [Plan.storedSelection, h.selected, List.filter_eq_self]
    intro entry hentry
    rcases List.mem_map.1 hentry with ⟨former, hformer, rfl⟩
    simpa [Plan.outside, Plan.importEntry] using (Plan.mem_storedSelection.1 hformer).2
  have htwice : ∀ entry ∈ inner.storedSelection,
      outer.plan.outside (inner.outside entry) = inner.outside entry := by
    intro entry hentry
    have hmem := (Plan.mem_storedSelection.1 hentry).1
    have hselected : entry.isSelected = true := (List.mem_filter.1 hmem).2
    rw [hsame]
    simp [Plan.importEntry, Plan.outside, hselected]
  rcases h.compiles with ⟨query, hcompiles⟩
  have hnonempty : outer.plan.storedSelection ≠ [] := by
    rw [hkept]
    exact fun hnil => hstored (List.map_eq_nil_iff.1 hnil)
  have hnext := repeats_wrapped hcompiles h.distinct hnonempty cacheable lazyJoins
  refine ⟨hnext.distinct, hnext.compiles, ?_, ?_, hnext.dialect.trans h.dialect,
    hnext.catalog.trans h.catalog, hnext.model.trans h.model,
    hnext.quotedTable.trans h.quotedTable⟩
  · rw [← h.quotedTable]
    exact hnext.source
  · calc (outer.plan.wrapped cacheable lazyJoins).plan.columns.selected
        = outer.plan.storedSelection.map outer.plan.outside := hnext.selected
      _ = (inner.storedSelection.map inner.outside).map outer.plan.outside := by rw [hkept]
      _ = inner.storedSelection.map fun entry => outer.plan.outside (inner.outside entry) :=
          List.map_map
      _ = inner.storedSelection.map inner.outside := List.map_congr_left htwice

/-- Any number of queries around a plan select what the first one does. -/
theorem Wraps.repeats (h : outer.Wraps inner) {query : Statement}
    (hcompiles : inner.selectStatement = .ok query) (hdistinct : inner.columns.Distinct)
    (hstored : inner.storedSelection ≠ []) : outer.Repeats inner := by
  induction h with
  | once => exact repeats_wrapped hcompiles hdistinct hstored _ _
  | again _ ih => exact ih.wrapped hstored _ _

/-- A plan that is refused brings the error along into the query on it. -/
theorem selectStatement_of_refused {error : PlanError}
    (h : inner.selectStatement = .error error) (cacheable : Bool) (lazyJoins : List JoinRule) :
    (inner.wrapped cacheable lazyJoins).plan.selectStatement = .error error := by
  have herrors : (inner.wrapped cacheable lazyJoins).plan.errors = inner.errors ++ [error] := by
    show (Plan.mapRoot _ (.plan inner)).errors = _
    unfold Plan.mapRoot Plan.mapTarget Plan.mapPlan
    dsimp only
    rw [Plan.foldl_touch_eq, h]
    rfl
  refine Plan.statement_of_errors ?_ .select
  rw [herrors]
  -- the plan is refused for its first error, or for what its statement lacks
  cases hfirst : inner.errors.head? with
  | none => simp [List.head?_eq_none_iff.1 hfirst]
  | some first =>
      have hsame : first = error := by
        have hrefused : inner.selectStatement = .error first :=
          Plan.statement_of_errors hfirst .select
        simpa [h] using hrefused.symm
      rw [List.head?_append, hfirst, hsame]
      rfl

theorem Wraps.refused (h : outer.Wraps inner) {query : Statement}
    (hcompiles : inner.selectStatement = .ok query) (hdistinct : inner.columns.Distinct)
    (hnone : inner.storedSelection = []) :
    outer.plan.selectStatement = .error (.mapping .nothingSelected) := by
  induction h with
  | once => exact (Plan.selectStatement_wrapped hcompiles hdistinct _ _).1 hnone
  | again _ ih => exact selectStatement_of_refused ih _ _

/-- Each field is read from the column of the derived table that its alias names. -/
theorem Repeats.reads (h : outer.Repeats inner) :
    List.Forall₂ (fun entry outside =>
      outside.selectExpr = inner.quotedTable ++ "." ++ outer.plan.dialect.quote entry.label ∧
        outside.token = entry.token ∧ outside.label = entry.label ∧
        outside.path = entry.path ∧ outside.copies = entry.copies ∧
        outside.parent = entry.parent ∧ outside.column = entry.column)
      inner.storedSelection outer.plan.columns.selected := by
  rw [h.selected, List.forall₂_map_right_iff, List.forall₂_same]
  intro entry hentry
  have hselected : entry.isSelected = true :=
    (List.mem_filter.1 (Plan.mem_storedSelection.1 hentry).1).2
  rw [h.dialect]
  exact ⟨Plan.selectExpr_outside hselected, rfl, rfl, rfl, rfl, rfl, rfl⟩

theorem Repeats.tokens_iff (h : outer.Repeats inner) :
    outer.plan.columns.selected.map (·.token) = inner.columns.selected.map (·.token) ↔
      ∀ entry ∈ inner.columns.selected, entry.column.transient = false := by
  have htokens : outer.plan.columns.selected.map (·.token) =
      inner.storedSelection.map (·.token) := by
    rw [h.selected, List.map_map]
    rfl
  rw [htokens]
  exact Plan.tokens_storedSelection_iff

/-- Decoding sees the stored part of the selection and nothing else. -/
theorem Repeats.decode (h : outer.Repeats inner) (records : List Record) :
    outer.plan.decode records =
      ({ inner with columns := ⟨inner.storedSelection⟩ } : Plan).decode records := by
  have hselected : (⟨inner.storedSelection⟩ : ColumnMap).selected = inner.storedSelection := by
    refine List.filter_eq_self.2 fun entry hentry => ?_
    exact (List.mem_filter.1 (Plan.mem_storedSelection.1 hentry).1).2
  rw [Plan.decode, Plan.decode, h.selected, h.model, h.catalog, hselected,
    inner.transparent_outside.gather]

/-- If that is all of the selection, rows are decoded as before. -/
theorem Repeats.decode_whole (h : outer.Repeats inner)
    (hwhole : inner.storedSelection = inner.columns.selected) (records : List Record) :
    outer.plan.decode records = inner.decode records := by
  have hselected : (⟨inner.columns.selected⟩ : ColumnMap).selected = inner.columns.selected := by
    simp [ColumnMap.selected]
  calc outer.plan.decode records
      = ({ inner with columns := ⟨inner.storedSelection⟩ } : Plan).decode records :=
        h.decode records
    _ = ({ inner with columns := ⟨inner.columns.selected⟩ } : Plan).decode records := by
        rw [hwhole]
    _ = inner.decode records := by rw [Plan.decode, Plan.decode, hselected]

/-- Around a plan that can be written, any number of queries select the stored part of its selection:
in its order, under its aliases, with its paths, copies, parents and keys, each field read from the
column of the derived table that its alias names; and they decode rows as if the plan selected
nothing else.  So a selection that is stored as a whole is repeated as it is.  The first query
around the plan is free of errors in any case, and where nothing of the selection is stored there is
nothing to select. -/
theorem Wraps.selects_stored {target : Target} {query : Query} (hquery : query.On target)
    {statement : Statement} (hcompiles : query.plan.selectStatement = .ok statement)
    (h : outer.Wraps query.plan) :
    let stored := query.plan.storedSelection
    (∀ cacheable lazyJoins, (query.plan.wrapped cacheable lazyJoins).plan.errors = []) ∧
      (stored = [] → outer.plan.selectStatement = .error (.mapping .nothingSelected)) ∧
      (stored ≠ [] →
        (∃ written, outer.plan.selectStatement = .ok written) ∧
        (∃ read, outer.plan.source = some (.derived read query.plan.quotedTable)) ∧
        List.Forall₂ (fun entry outside =>
          outside.selectExpr = query.plan.quotedTable ++ "." ++ outer.plan.dialect.quote entry.label ∧
            outside.token = entry.token ∧ outside.label = entry.label ∧
            outside.path = entry.path ∧ outside.copies = entry.copies ∧
            outside.parent = entry.parent ∧ outside.column = entry.column)
          stored outer.plan.columns.selected ∧
        (∀ records, outer.plan.decode records =
          ({ query.plan with columns := ⟨stored⟩ } : Plan).decode records) ∧
        (outer.plan.columns.selected.map (·.token) = query.plan.columns.selected.map (·.token) ↔
          ∀ entry ∈ query.plan.columns.selected, entry.column.transient = false)) ∧
      ((∀ entry ∈ query.plan.columns.selected, entry.column.transient = false) →
        stored = query.plan.columns.selected ∧
          ∀ records, outer.plan.decode records = query.plan.decode records) := by
  intro stored
  have hdistinct := hquery.distinct
  refine ⟨?_, fun hnone => h.refused hcompiles hdistinct hnone, fun hsome => ?_, fun hall => ?_⟩
  · intro cacheable lazyJoins
    rcases Plan.plan_wrapped hcompiles hdistinct cacheable lazyJoins with ⟨touched, hplan⟩
    rw [hplan]
  · have hrepeats := h.repeats hcompiles hdistinct hsome
    exact ⟨hrepeats.compiles, hrepeats.source, hrepeats.reads, hrepeats.decode,
      hrepeats.tokens_iff⟩
  · have hwhole : stored = query.plan.columns.selected := Plan.storedSelection_eq_iff.2 hall
    -- a plan that can be written selects something, so here something stored
    have hsome : stored ≠ [] := by
      rw [hwhole]
      exact Plan.selected_ne_nil hcompiles
    exact ⟨hwhole, (h.repeats hcompiles hdistinct hsome).decode_whole hwhole⟩

end Query

namespace Towns

/-- The town of a fan is not stored with the fan. -/
def fans : Table :=
  { name := "fans"
    columns := [Squads.key, { name := "town", field := "town", transient := true }] }

def fan : Reference × Forest :=
  ({} : Forest).plant ⟨[fans]⟩ 0

def allFans : Query :=
  .start .postgres ⟨[fans]⟩ false [{ rule with table := "fans", column := "town" }]
    (.model (fan.1.target ⟨[fans]⟩))

/-- The fans with their towns. -/
def located : Query :=
  ⟨.selecting, allFans.plan.apply (.addField ⟨3⟩)⟩

/-- Two queries around that one. -/
def around : Query :=
  (located.plan.wrapped false []).plan.wrapped false []

/-- The key is selected through both queries, and the town is lost in the first one. -/
theorem selects_stored_around :
    located.plan.columns.selected.map (·.label) = ["id", "town"] ∧
      (∃ written, around.plan.selectStatement = .ok written) ∧
      ∃ key, around.plan.columns.selected = [key] ∧ key.label = "id" ∧
        key.selectExpr = "\"fans\".\"id\"" := by
  have hlocated : allFans.call? (.addField ⟨3⟩) = some located := rfl
  have hcompiles : ∃ statement, located.plan.selectStatement = .ok statement := ⟨_, rfl⟩
  rcases hcompiles with ⟨statement, hstatement⟩
  have hwraps : around.Wraps located.plan := .again .once
  have hselects := Query.Wraps.selects_stored (.call .start hlocated) hstatement hwraps
  have hstored : ∃ key, located.plan.storedSelection = [key] ∧ key.label = "id" ∧
      located.plan.quotedTable ++ "." ++ around.plan.dialect.quote key.label =
        "\"fans\".\"id\"" := ⟨_, rfl, rfl, rfl⟩
  rcases hstored with ⟨key, hkey, hlabel, hname⟩
  rcases hselects.2.2.1 (by rw [hkey]; exact List.cons_ne_nil _ _) with ⟨hwritten, -, hread, -⟩
  rw [hkey] at hread
  rcases List.forall₂_cons_left_iff.1 hread with ⟨outside, rest, houtside, hrest, hselected⟩
  rw [List.forall₂_nil_left_iff.1 hrest] at hselected
  exact ⟨rfl, hwritten, outside, hselected, houtside.2.2.1.trans hlabel, houtside.1.trans hname⟩

end Towns

end FieldQuery
