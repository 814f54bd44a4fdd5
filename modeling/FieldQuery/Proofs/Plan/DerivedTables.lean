import FieldQuery.Proofs.Plan.Aliases
import FieldQuery.Proofs.Plan.Segments

/-!
# What derived tables are known by

A plan that is taken into another one becomes a derived table, and all of its fields go on being
known.  A selected one is known by the alias that the select list gives it.  Any other one keeps the
name that it has inside, which the derived table does not return unless an alias is spelled alike:
a condition on it is written all the same.  A query written by hand brings in what it returns, and
no other field of its table is known.

Main definitions:

- `Plan.outputs`: the columns of the derived table that a plan becomes.
- `ColumnMap.Holds`: a field that is known as it was taken in.
- `Query.Takes`: a query that has just taken in a target.

Main statements: `Query.Takes.named_outside` and `Query.Takes.unreturned_unresolved`.
-/

namespace FieldQuery

/-! ## Fields as they were taken in -/

namespace ColumnMap

variable {columns : ColumnMap} {entry other : Entry} {token : Token}

/-- A field is known as it was taken in, and nothing stands for its column. -/
def Holds (columns : ColumnMap) (entry : Entry) : Prop :=
  ∃ later, columns.find? entry.token = some later ∧ later.fixed = entry.fixed ∧
    later.selectTarget = none ∧ later.lazyJoin = none

theorem Holds.push (h : columns.Holds entry) (other : Entry) :
    (columns.push other).Holds entry := by
  rcases h with ⟨later, hfound, hlater⟩
  exact ⟨later, find?_push_of_some hfound, hlater⟩

theorem Holds.pushAll (h : columns.Holds entry) (entries : List Entry) :
    (entries.foldl ColumnMap.push columns).Holds entry := by
  rcases h with ⟨later, hfound, hlater⟩
  exact ⟨later, find?_pushAll_of_some entries hfound, hlater⟩

theorem find?_modify {change : Entry → Entry} (hkeeps : ∀ entry, (change entry).fixed = entry.fixed)
    (changed : Token) :
    (columns.modify changed change).find? token = (columns.find? token).map fun entry =>
      if entry.token = changed then change entry else entry := by
  have htoken : ∀ entry, (if entry.token = changed then change entry else entry).token =
      entry.token := by
    intro entry
    split
    · exact (congrArg Entry.token (hkeeps entry) :)
    · rfl
  simp only [find?, modify, List.find?_map, Function.comp_def, htoken]

/-- A change to what stands for a column, if it is made to another field. -/
theorem Holds.modify (h : columns.Holds entry) {change : Entry → Entry}
    (hkeeps : ∀ entry, (change entry).fixed = entry.fixed)
    (hplain : token = entry.token → ∀ other, (change other).selectTarget = other.selectTarget ∧
      (change other).lazyJoin = other.lazyJoin) :
    (columns.modify token change).Holds entry := by
  rcases h with ⟨later, hfound, hfixed, htarget, hlazy⟩
  have htoken : later.token = entry.token := (congrArg Entry.token hfixed :)
  -- the change is made to the field itself, or to another one
  by_cases hsame : later.token = token
  · rcases hplain (hsame.symm.trans htoken) later with ⟨hkept, hlazy'⟩
    refine ⟨change later, ?_, (hkeeps later).trans hfixed, hkept.trans htarget, hlazy'.trans hlazy⟩
    simp [find?_modify hkeeps, hfound, hsame]
  · refine ⟨later, ?_, hfixed, htarget, hlazy⟩
    simp [find?_modify hkeeps, hfound, hsame]

end ColumnMap

/-! ## Calls -/

theorem MappingScope.holds_mapColumns {entry : Entry} (scope : MappingScope)
    (columns : List (Column × Token)) {mapped : ColumnMap × List Filter}
    (h : mapped.1.Holds entry) : (scope.mapColumns columns mapped).1.Holds entry := by
  induction columns generalizing mapped with
  | nil => exact h
  | cons first rest ih =>
      refine ih ?_
      rcases mapColumn_cases scope mapped first.1 first.2 with ⟨found, -, -, heq⟩ | heq
      -- the other end of a mapped column only leaves a copy
      · rw [heq]
        refine h.modify (fun entry => entry.fixed_addCopy _) fun _ other => ?_
        have hcopies := other.withoutCopies_addCopy (scope.basePath ++ [.plain first.1.field])
        exact ⟨(congrArg Entry.selectTarget hcopies :), (congrArg Entry.lazyJoin hcopies :)⟩
      · rw [heq]
        exact h.push _

namespace Plan

variable {plan next : Plan} {entry : Entry}

theorem holds_mapTarget {target : Target} {mapped : MappedTarget} (h : plan.columns.Holds entry)
    (hmap : plan.mapTarget target = (next, .ok mapped)) : next.columns.Holds entry := by
  cases target with
  | model target =>
      rw [(mapModel_eq hmap).1]
      exact MappingScope.holds_mapColumns _ _ h
  | raw target query =>
      rw [columns_mapRaw hmap]
      exact h.pushAll _
  | plan sub =>
      have hnext : (plan.mapPlan sub).1 = next := congrArg Prod.fst hmap
      rw [← hnext, columns_mapPlan]
      exact h.pushAll _

/-- A lazy join is opened for another field only. -/
theorem holds_addField {token : Token} (h : plan.columns.Holds entry)
    (herrors : (plan.addField token).errors = []) : (plan.addField token).columns.Holds entry := by
  rcases addField_cases herrors with ⟨found, hfound, ⟨join, -, hlazy, heq⟩ | ⟨-, -, heq⟩⟩
  · have htoken : found.token = token := by simpa using List.find?_some hfound
    rw [heq, openLazyJoin, touch_eq]
    refine h.modify (fun _ => rfl) fun hsame => ?_
    -- what was taken in has no lazy join to be opened
    rcases h with ⟨later, hlater, -, -, hnone⟩
    have hlater' : later = found := by simpa [← hsame, htoken, hfound] using hlater.symm
    simp [hlater', hlazy] at hnone
  · rw [heq]
    exact h.modify (fun _ => rfl) fun _ _ => ⟨rfl, rfl⟩

theorem holds_addFields {tokens : List Token} (h : plan.columns.Holds entry)
    (herrors : (tokens.foldl addField plan).errors = []) :
    (tokens.foldl addField plan).columns.Holds entry := by
  induction tokens generalizing plan with
  | nil => exact h
  | cons token rest ih =>
      have hclean := (continues_addFields rest _).errors_nil herrors
      exact ih (holds_addField h hclean) herrors

/-- Targets bring in other fields, and narrowing only changes which are wanted. -/
theorem holds_apply {call : Call} (h : plan.columns.Holds entry)
    (herrors : (plan.apply call).errors = []) : (plan.apply call).columns.Holds entry := by
  cases hchanges : call.changesFields with
  | false =>
      rw [columns_apply hchanges]
      exact h
  | true =>
    cases call with
    | join kind target =>
        have hopened : (plan.openJoinOn kind target).errors = [] := herrors
        rcases mapTarget_of_openJoinOn hopened with ⟨next, mapped, hmap, -⟩
        have hclosed : plan.closeJoin.columns.Holds entry := h
        show (plan.openJoinOn kind target).columns.Holds entry
        rw [columns_openJoinOn hmap]
        exact holds_mapTarget hclosed hmap
    | fields tokens =>
        have hcleared : plan.unwanted.columns.Holds entry := by
          rcases h with ⟨later, hfound, hfixed, hplain⟩
          refine ⟨{ later with wanted := false }, ?_, hfixed, hplain⟩
          have hlater : plan.columns.entries.find? (·.token == entry.token) = some later := hfound
          simp only [unwanted, ColumnMap.find?, List.find?_map, Function.comp_def, hlater,
            Option.map_some]
        have hnamed : (tokens.foldl addField plan.unwanted).errors = [] := herrors
        exact holds_addFields hcleared hnamed
    | addField token => exact holds_addField h herrors
    | _ => cases hchanges

/-- A field that was taken in stays as it was, whatever calls are made. -/
theorem holds_calls {calls : List Call} (h : plan.columns.Holds entry)
    (herrors : (calls.foldl apply plan).errors = []) :
    (calls.foldl apply plan).columns.Holds entry := by
  induction calls generalizing plan with
  | nil => exact h
  | cons call rest ih =>
      have hclean := (continues_calls rest _).errors_nil herrors
      exact ih (holds_apply h hclean) herrors

theorem sources_calls {calls : List Call} (herrors : (calls.foldl apply plan).errors = []) :
    plan.allSources ⊆ (calls.foldl apply plan).allSources := by
  induction calls generalizing plan with
  | nil => exact List.Subset.refl _
  | cons call rest ih =>
      have hclean := (continues_calls rest _).errors_nil herrors
      exact List.Subset.trans (sources_of_apply hclean) (ih herrors)

/-! ## What a derived table returns -/

/-- The aliases that the select list of a plan gives, which are the columns of the derived table
that it becomes. -/
def outputs (plan : Plan) : List String :=
  plan.columns.selected.map fun entry => plan.dialect.quote entry.label

theorem selectStatement_items {statement : Statement} (h : plan.selectStatement = .ok statement) :
    ∃ clauses, statement = .ofText ("SELECT " ++
      ", ".intercalate (plan.columns.selected.map (selectItem plan.dialect))) ++ clauses := by
  rcases bind_eq_ok.1 h with ⟨-, -, hrest⟩
  split at hrest
  · cases hrest
  · rcases bind_eq_ok.1 hrest with ⟨clauses, -, hall⟩
    cases hall
    exact ⟨clauses, rfl⟩

/-- What a field of a plan is known by outside, once the plan has become a derived table. -/
def nameOutside (sub : Plan) (dialect : Dialect) (entry : Entry) : ColumnName :=
  ⟨sub.quotedTable, if entry.isSelected then dialect.quote entry.label else entry.quotedColumn⟩

/-- The derived table returns a column of that name if the field is selected; if it is not, then
only where the name that it has inside is spelled like an alias. -/
theorem nameOutside_mem_outputs {sub : Plan} (hentry : entry ∈ sub.columns.entries) :
    (sub.nameOutside sub.dialect entry).column ∈ sub.outputs ↔
      entry.isSelected = true ∨ entry.quotedColumn ∈ sub.outputs := by
  cases hselected : entry.isSelected with
  | true =>
      have hmem : entry ∈ sub.columns.selected := List.mem_filter.2 ⟨hentry, hselected⟩
      have hreturned : sub.dialect.quote entry.label ∈ sub.outputs :=
        List.mem_map.2 ⟨entry, hmem, rfl⟩
      simp [nameOutside, hselected, hreturned]
  | false => simp [nameOutside, hselected]

end Plan

/-- How a known field is written. -/
theorem Operand.render_field {columns : ColumnMap} {token : Token} {entry : Entry}
    (h : columns.find? token = some entry) : (Operand.field token).render columns =
      if entry.column.transient then .error (.transientField entry.column.name)
      else .ok (.ofText entry.name.text) := by
  rw [Operand.render, ColumnMap.qualifiedColumn, ColumnMap.queryable, ColumnMap.locate, h]
  dsimp only
  split <;> rfl

/-- An unknown field cannot be written. -/
theorem Operand.render_unknown {columns : ColumnMap} {token : Token}
    (h : columns.contains token = false) :
    (Operand.field token).render columns = .error (.unresolvedField token) := by
  have habsent : columns.find? token = none := by
    simpa [ColumnMap.contains, ColumnMap.find?] using h
  rw [Operand.render, ColumnMap.qualifiedColumn, ColumnMap.queryable, ColumnMap.locate, habsent]
  rfl

/-! ## Targets -/

namespace Query

/-- A query that has just taken in a target, and the plan that it was taken into. -/
inductive Takes (target : Target) : Plan → Query → Prop
  | root {dialect : Dialect} {catalog : Catalog} {cacheable : Bool} {lazyJoins : List JoinRule} :
      Takes target
        { dialect := dialect, catalog := catalog, model := target.toModel.table
          cacheable := cacheable, lazyJoins := lazyJoins }
        (.start dialect catalog cacheable lazyJoins target)
  | join {query next : Query} {kind : JoinKind}
      (hnext : query.call? (.join kind target) = some next) :
      Takes target query.plan.closeJoin next

/-- The target is mapped, and what it is read from is a source of the query. -/
theorem Takes.mapped {target : Target} {before : Plan} {query : Query}
    (h : query.Takes target before) (herrors : query.plan.errors = []) :
    ∃ next mapped, before.mapTarget target = (next, .ok mapped) ∧ next.errors = [] ∧
      query.plan.dialect = before.dialect ∧ query.plan.columns = next.columns ∧
      mapped.source ∈ query.plan.allSources := by
  cases h with
  | root =>
      rcases Plan.mapTarget_of_mapRoot herrors with ⟨next, mapped, hmap, hclean⟩
      have hroot := Plan.mapRoot_of_ok hmap
      have hgrounds := congrArg Grounds.dialect (Plan.continues_of_mapTarget hmap).grounds
      have hdialect := (congrArg Plan.dialect hroot).trans hgrounds
      have hcolumns := congrArg Plan.columns hroot
      have hsource := congrArg Plan.source hroot
      refine ⟨next, mapped, hmap, hclean, hdialect, hcolumns, List.mem_append_left _ ?_⟩
      exact Option.mem_toList.2 hsource
  | @join former _ kind hnext =>
      have hdialect := congrArg Grounds.dialect (continues_call? hnext).grounds
      have hplan : query.plan = former.plan.openJoinOn kind target := (call?_eq_some.1 hnext).2
      rw [hplan] at herrors
      rcases Plan.mapTarget_of_openJoinOn herrors with ⟨next, mapped, hmap, hclean⟩
      refine ⟨next, mapped, hmap, hclean, hdialect, ?_⟩
      rw [hplan]
      refine ⟨Plan.columns_openJoinOn hmap kind, ?_⟩
      rw [Plan.openJoinOn_of_ok hmap]
      simp [Plan.allSources, Plan.allJoins]

/-- Each field of a plan comes in, if its token is new. -/
theorem Takes.holds {sub before : Plan} {query : Query} (h : query.Takes (.plan sub) before)
    (herrors : query.plan.errors = []) (hdistinct : sub.columns.Distinct) {entry : Entry}
    (hentry : entry ∈ sub.columns.entries) (hnew : before.columns.contains entry.token = false) :
    query.plan.columns.Holds
      (Plan.importEntry before.dialect sub.quotedTable before.isBare entry) := by
  rcases h.mapped herrors with ⟨next, mapped, hmap, -, -, hcolumns, -⟩
  have hnext : (before.mapPlan sub).1 = next := congrArg Prod.fst hmap
  have hmem := List.mem_map_of_mem
    (f := Plan.importEntry before.dialect sub.quotedTable before.isBare) hentry
  rw [hcolumns, ← hnext, Plan.columns_mapPlan]
  refine ⟨_, ColumnMap.find?_pushAll hmem ?_ hnew, rfl, rfl, rfl⟩
  have htokens : (sub.columns.entries.map (·.token)).Nodup := hdistinct
  simpa [Function.comp_def, Plan.importEntry] using htokens

/-- The plan becomes a derived table with its own select statement. -/
theorem Takes.derived {sub before : Plan} {query : Query} (h : query.Takes (.plan sub) before)
    (herrors : query.plan.errors = []) : ∃ statement, sub.selectStatement = .ok statement ∧
      .derived statement sub.quotedTable ∈ query.plan.allSources := by
  rcases h.mapped herrors with ⟨next, mapped, hmap, hclean, -, -, hmem⟩
  have hwritten : (Target.plan sub).WrittenAs mapped.source :=
    (Plan.maps_mapTarget hmap hclean).written
  rcases hwritten with ⟨-, statement, -, hstatement, -⟩
  have hmapped : (before.mapPlan sub).2 = mapped := Except.ok.inj (congrArg Prod.snd hmap)
  rcases Plan.mapPlan_result before sub with ⟨errors, touched, query, heq, hquery⟩
  rw [← hmapped, heq, hquery statement hstatement] at hmem
  exact ⟨statement, hstatement, hmem⟩

variable {first query : Query} {before : Plan} {calls : List Call}

/-- A query written by hand brings in no field of a column that it does not return, so behind calls
without further targets a condition on it cannot be written. -/
theorem Takes.unreturned_unresolved {reference : ModelTarget} {written : RawQuery}
    (h : first.Takes (.raw reference written) before) (hcalls : first.calls? calls = some query)
    (herrors : query.plan.errors = []) (hnone : ∀ call ∈ calls, call.target? = none)
    {token : Token} (hnew : before.columns.contains token = false)
    (hunreturned : ∀ pair ∈ reference.table.columns.zip reference.tokens, pair.2 = token →
      pair.1.transient = true ∨ pair.1.name ∉ written.columns) :
    (Operand.field token).render query.plan.columns = .error (.unresolvedField token) := by
  have hplan := plan_calls? hcalls
  rw [hplan] at herrors
  have hclean := (Plan.continues_calls calls first.plan).errors_nil herrors
  rcases h.mapped hclean with ⟨next, mapped, hmap, -, -, hcolumns, -⟩
  have hraw : next.columns = (before.rawEntries reference written).foldl .push before.columns :=
    Plan.columns_mapRaw hmap
  refine Operand.render_unknown ?_
  -- whether a token is known depends on what stays of the fields only
  rw [ColumnMap.contains_eq, hplan, Plan.fixed_calls hnone, ← ColumnMap.contains_eq, hcolumns, hraw]
  refine Bool.eq_false_iff.2 fun hknown => ?_
  rcases ColumnMap.contains_iff.1 hknown with ⟨entry, hentry, htoken⟩
  rcases ColumnMap.mem_pushAll hentry with hold | hreturned
  · have hbefore : before.columns.contains token = true :=
      ColumnMap.contains_iff.2 ⟨entry, hold, htoken⟩
    rw [hnew] at hbefore
    cases hbefore
  · rcases Plan.mem_rawEntries.1 hreturned with ⟨pair, hpair, hstored, hname, rfl⟩
    rcases hunreturned pair hpair htoken with htransient | hmissing
    · rw [hstored] at htransient
      cases htransient
    · exact hmissing hname

/-- Behind a query that has taken in another one's plan, to whatever depth that has others in
itself: the plan is a derived table among the sources, and each of its fields that the outer query
did not know is known by the derived table's name.  A selected one goes by its alias; any other goes
by the name that it has inside, and only a transient one is refused.  So what is written for a field
names a column of the derived table just if the field is selected or its inner name is spelled like
an alias. -/
theorem Takes.named_outside {inner : Query} {target : Target} (hinner : inner.On target)
    (h : first.Takes (.plan inner.plan) before) (hcalls : first.calls? calls = some query)
    (herrors : query.plan.errors = []) :
    (∃ statement clauses, inner.plan.selectStatement = .ok statement ∧
      statement = .ofText ("SELECT " ++ ", ".intercalate
        (inner.plan.columns.selected.map (Plan.selectItem inner.plan.dialect))) ++ clauses ∧
      .derived statement inner.plan.quotedTable ∈ query.plan.allSources) ∧
    ∀ entry ∈ inner.plan.columns.entries, before.columns.contains entry.token = false →
      ∃ later, query.plan.columns.find? entry.token = some later ∧
        later.name = inner.plan.nameOutside query.plan.dialect entry ∧
        later.selectExpr = later.name.text ∧
        (Operand.field entry.token).render query.plan.columns =
          (if entry.column.transient then .error (.transientField entry.column.name)
            else .ok (.ofText later.name.text)) ∧
        (query.plan.dialect = inner.plan.dialect →
          (later.name.column ∈ inner.plan.outputs ↔
            entry.isSelected = true ∨ entry.quotedColumn ∈ inner.plan.outputs)) := by
  have hplan := plan_calls? hcalls
  rw [hplan] at herrors
  have hcontinues := Plan.continues_calls calls first.plan
  have hclean := hcontinues.errors_nil herrors
  rcases h.mapped hclean with ⟨-, -, -, -, hbefore, -, -⟩
  have hdialect : query.plan.dialect = before.dialect := by
    rw [hplan]
    exact (congrArg Grounds.dialect hcontinues.grounds).trans hbefore
  refine ⟨?_, ?_⟩
  -- later calls lose neither the derived table nor its fields
  · rcases h.derived hclean with ⟨statement, hstatement, hmem⟩
    rcases Plan.selectStatement_items hstatement with ⟨clauses, hitems⟩
    refine ⟨statement, clauses, hstatement, hitems, ?_⟩
    simpa [hplan] using Plan.sources_calls herrors hmem
  · intro entry hentry hnew
    have hholds : query.plan.columns.Holds
        (Plan.importEntry before.dialect inner.plan.quotedTable before.isBare entry) := by
      simpa [hplan] using Plan.holds_calls (h.holds hclean hinner.distinct hentry hnew) herrors
    rcases hholds with ⟨later, hfound, hfixed, htarget, -⟩
    have hname : later.name = inner.plan.nameOutside query.plan.dialect entry := by
      rw [hdialect]
      exact (congrArg Entry.name hfixed :)
    have hcolumn : later.column = entry.column := (congrArg Entry.column hfixed :)
    have hshown : later.selectExpr = later.name.text := by
      simp [Entry.selectExpr, htarget, Entry.qualified, Entry.name, ColumnName.text]
    have hwritten := Operand.render_field hfound
    rw [hcolumn] at hwritten
    refine ⟨later, hfound, hname, hshown, hwritten, fun hsame => ?_⟩
    -- in one dialect the aliases are quoted alike on both sides
    rw [hname, hsame]
    exact Plan.nameOutside_mem_outputs hentry

end Query

namespace Callups

def catalog : Catalog :=
  Rosters.catalog "nick"

/-- The keys of the players. -/
def keys : Query :=
  ⟨.selecting, (Rosters.start "nick").plan.apply (.fields [⟨2⟩])⟩

/-- The keys as a derived table. -/
def start : Query :=
  .start .postgres catalog false [] (.plan keys.plan)

def calls : List Call :=
  [.startWhere, .filter [.compare (.field ⟨3⟩) .equal (.value (.text "Kim"))]]

/-- Those of the players who are called Kim. -/
def named : Query :=
  ⟨.filtering, calls.foldl Plan.apply start.plan⟩

/-- The nicknames are not selected, so the derived table does not return them; the condition on them
is written all the same. -/
theorem named_outside_nick :
    (∃ statement, named.plan.selectStatement = .ok statement) ∧
      ∃ later, named.plan.columns.find? ⟨3⟩ = some later ∧
        later.name = ⟨"\"players\"", "\"nick\""⟩ ∧ later.name.column ∉ keys.plan.outputs ∧
        (Operand.field ⟨3⟩).render named.plan.columns =
          .ok (.ofText "\"players\".\"nick\"") := by
  have hnarrowed : (Rosters.start "nick").call? (.fields [⟨2⟩]) = some keys := rfl
  have hkeys : keys.On (.model ((Rosters.planted "nick").1.target catalog)) :=
    .call .start hnarrowed
  have hstart : start.Takes (.plan keys.plan) _ := .root
  have hcalls : start.calls? calls = some named := rfl
  have hnick : ∃ nick, keys.plan.columns.entries[1]? = some nick ∧ nick.token = ⟨3⟩ ∧
      nick.isSelected = false ∧ nick.column.transient = false ∧
      keys.plan.nameOutside named.plan.dialect nick = ⟨"\"players\"", "\"nick\""⟩ ∧
      nick.quotedColumn ∉ keys.plan.outputs :=
    ⟨_, rfl, rfl, rfl, rfl, rfl, by decide⟩
  rcases hnick with ⟨nick, hnick, htoken, hunselected, hstored, houtside, hunlike⟩
  have hnamed := (hstart.named_outside hkeys hcalls rfl).2 nick (List.mem_of_getElem? hnick) rfl
  rcases hnamed with ⟨later, hfound, hname, -, hwritten, houtputs⟩
  rw [hname, houtside, hstored] at hwritten
  rw [htoken] at hfound hwritten
  refine ⟨⟨_, rfl⟩, later, hfound, hname.trans houtside, ?_, hwritten⟩
  intro hmem
  rcases (houtputs rfl).1 hmem with hselected | hlike
  · rw [hunselected] at hselected
    cases hselected
  · exact hunlike hlike

end Callups

end FieldQuery
