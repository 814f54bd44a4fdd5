import FieldQuery.Plan.Build
import FieldQuery.Proofs.Plan.Sources

/-!
# How a plan grows

Builder calls only add to a plan that stays free of errors: no source and no condition is lost, a
table that becomes a source is touched at once, and besides these only those tables are touched that
a target brings along.

Main definitions:

- `Plan.Grows`: what a change adds to a plan.
- `Plan.Maps`: what mapping a target adds.

Main statements: one for each change, such as `Plan.maps_mapTarget`, `Plan.grows_openJoinOn` and
`Plan.grows_addField`; `Plan.mapRoot_names` is about the primary target.
-/

namespace FieldQuery

namespace Plan

/-- A plan without errors becomes another one, which names more tables and touches these and some
others. -/
structure Grows (added others : List String) (plan next : Plan) : Prop where
  errors : plan.errors = []
  sources : plan.allSources ⊆ next.allSources
  conditions : plan.allConditions ⊆ next.allConditions
  named : ∀ table, table ∈ next.named ↔ table ∈ plan.named ∨ table ∈ added
  touched : ∀ table, table ∈ next.touched ↔
    table ∈ plan.touched ∨ table ∈ added ∨ table ∈ others

variable {plan next last : Plan}

/-- A change that leaves the sources and the touched tables alone. -/
theorem Grows.of_sources (herrors : plan.errors = []) (hsources : next.allSources = plan.allSources)
    (hconditions : plan.allConditions ⊆ next.allConditions)
    (htouched : next.touched = plan.touched) : Grows [] [] plan next := by
  refine ⟨herrors, ?_, hconditions, ?_, ?_⟩
  · rw [hsources]
    exact List.Subset.refl _
  · intro table
    rw [Plan.named, Plan.named, hsources]
    simp
  · intro table
    rw [htouched]
    simp

theorem Grows.of_eq (herrors : plan.errors = []) (hsource : next.source = plan.source)
    (hjoins : next.allJoins = plan.allJoins) (hconditions : next.conditions = plan.conditions)
    (htouched : next.touched = plan.touched) : Grows [] [] plan next := by
  refine .of_sources herrors ?_ ?_ htouched
  · rw [allSources, hsource, hjoins, ← allSources]
  · rw [allConditions, allConditions, hconditions, hjoins]
    exact List.Subset.refl _

theorem Grows.refl (herrors : plan.errors = []) : Grows [] [] plan plan :=
  .of_eq herrors rfl rfl rfl rfl

theorem Grows.trans {added others added' others' : List String} (h : Grows added others plan next)
    (h' : Grows added' others' next last) :
    Grows (added ++ added') (others ++ others') plan last where
  errors := h.errors
  sources := List.Subset.trans h.sources h'.sources
  conditions := List.Subset.trans h.conditions h'.conditions
  named := by
    intro table
    rw [h'.named, h.named, List.mem_append]
    tauto
  touched := by
    intro table
    rw [h'.touched, h.touched, List.mem_append, List.mem_append]
    tauto

/-- One more join names its source, if that is a table. -/
theorem Grows.of_join {join : JoinClause} {others : List String} (herrors : plan.errors = [])
    (hsource : next.source = plan.source)
    (hjoins : ∀ other, other ∈ next.allJoins ↔ other ∈ plan.allJoins ∨ other = join)
    (hconditions : next.conditions = plan.conditions)
    (htouched : ∀ table, table ∈ next.touched ↔
      table ∈ plan.touched ∨ join.source.name? = some table ∨ table ∈ others) :
    Grows join.source.name?.toList others plan next := by
  have hsources : ∀ source, source ∈ next.allSources ↔
      source ∈ plan.allSources ∨ source = join.source := by
    intro source
    simp only [allSources, hsource, List.mem_append, List.mem_map, hjoins]
    constructor
    · rintro (hroot | ⟨other, hother | rfl, rfl⟩)
      · exact .inl (.inl hroot)
      · exact .inl (.inr ⟨other, hother, rfl⟩)
      · exact .inr rfl
    · rintro ((hroot | ⟨other, hother, rfl⟩) | rfl)
      · exact .inl hroot
      · exact .inr ⟨other, .inl hother, rfl⟩
      · exact .inr ⟨join, .inr rfl, rfl⟩
  refine ⟨herrors, fun source h => (hsources source).2 (.inl h), ?_, ?_, ?_⟩
  · intro filter hfilter
    simp only [allConditions, hconditions, List.mem_append, List.mem_flatMap, hjoins] at hfilter ⊢
    rcases hfilter with hwhere | ⟨other, hother, hon⟩
    · exact .inl hwhere
    · exact .inr ⟨other, .inl hother, hon⟩
  · intro table
    simp only [Plan.named, List.mem_filterMap, hsources, Option.mem_toList]
    constructor
    · rintro ⟨source, hmem | rfl, hname⟩
      · exact .inl ⟨source, hmem, hname⟩
      · exact .inr hname
    · rintro (⟨source, hmem, hname⟩ | hname)
      · exact ⟨source, .inl hmem, hname⟩
      · exact ⟨join.source, .inr rfl, hname⟩
  · intro table
    rw [htouched, Option.mem_toList]

theorem errors_fail (plan : Plan) (error : PlanError) : (plan.fail error).errors ≠ [] :=
  List.append_ne_nil_of_right_ne_nil _ (List.cons_ne_nil _ _)

/-! ## Touching -/

theorem mem_touched_touch (plan : Plan) (quoted table : String) :
    table ∈ (plan.touch quoted).touched ↔ table ∈ plan.touched ∨ table = quoted := by
  unfold touch
  split
  · rename_i hknown
    have hmem : quoted ∈ plan.touched := by simpa using hknown
    constructor
    · exact Or.inl
    · rintro (h | rfl)
      · exact h
      · exact hmem
  · simp

theorem touch_eq (plan : Plan) (quoted : String) :
    plan.touch quoted = { plan with touched := (plan.touch quoted).touched } := by
  unfold touch
  split
  · rfl
  · rfl

theorem mem_touched_foldl (quoted : List String) (plan : Plan) (table : String) :
    table ∈ (quoted.foldl touch plan).touched ↔ table ∈ plan.touched ∨ table ∈ quoted := by
  induction quoted generalizing plan with
  | nil => simp
  | cons first rest ih =>
      rw [List.foldl_cons, ih, mem_touched_touch, List.mem_cons]
      tauto

theorem foldl_touch_eq (quoted : List String) (plan : Plan) :
    quoted.foldl touch plan = { plan with touched := (quoted.foldl touch plan).touched } := by
  induction quoted generalizing plan with
  | nil => rfl
  | cons first rest ih => rw [List.foldl_cons, ih, touch_eq plan first]

/-! ## Joins -/

/-- Conditions are added to the open join. -/
theorem grows_addOn {filters : List Filter} (h : (plan.addOn filters).errors = []) :
    Grows [] [] plan (plan.addOn filters) ∧ filters ⊆ (plan.addOn filters).allConditions := by
  unfold addOn at h ⊢
  cases hopen : plan.openJoin with
  | none =>
      rw [hopen] at h
      exact absurd h (errors_fail _ _)
  | some join =>
      rw [hopen] at h
      refine ⟨.of_sources h ?_ ?_ rfl, ?_⟩
      · simp [allSources, allJoins, hopen]
      · intro filter hfilter
        simp only [allConditions, allJoins, hopen, Option.toList_some, List.flatMap_append,
          List.flatMap_singleton, List.mem_append] at hfilter ⊢
        tauto
      · intro filter hfilter
        simp only [allConditions, allJoins, Option.toList_some, List.flatMap_append,
          List.flatMap_singleton, List.mem_append]
        exact .inr (.inr (.inr hfilter))

theorem joining_addOn {filters : List Filter} (h : (plan.addOn filters).errors = []) :
    (plan.addOn filters).conditions = plan.conditions ∧ (plan.addOn filters).openJoin.isSome := by
  unfold addOn at h ⊢
  split at h
  · exact ⟨rfl, rfl⟩
  · exact absurd h (errors_fail _ _)

theorem grows_addReferences (h : plan.addReferences.errors = []) :
    Grows [] [] plan plan.addReferences := by
  unfold addReferences at h ⊢
  split at h
  · exact absurd h (errors_fail _ _)
  · have hadded := (grows_addOn h).1
    have hcleared : Grows [] [] plan { plan with links := [] } :=
      .of_eq hadded.errors rfl rfl rfl rfl
    exact hcleared.trans hadded

theorem joining_addReferences (h : plan.addReferences.errors = []) :
    plan.addReferences.conditions = plan.conditions ∧ plan.addReferences.openJoin.isSome := by
  unfold addReferences at h ⊢
  split at h
  · exact absurd h (errors_fail _ _)
  · exact joining_addOn h

/-! ## Conditions -/

/-- Beginning the `WHERE` clause loses nothing where it has not begun. -/
theorem grows_startWhere (herrors : plan.errors = []) (hnone : plan.conditions = none) :
    Grows [] [] plan plan.startWhere := by
  refine .of_sources herrors ?_ ?_ rfl
  · simp [startWhere, closeJoin, allSources, allJoins]
  · intro filter hfilter
    simpa [startWhere, closeJoin, allConditions, allJoins, hnone] using hfilter

theorem addFilter_of_joining (hnone : plan.conditions = none) (hopen : plan.openJoin.isSome)
    (filter : Filter) : plan.addFilter filter = plan.addOn [filter] := by
  rcases Option.isSome_iff_exists.1 hopen with ⟨join, hjoin⟩
  unfold addFilter addOn
  rw [hnone, hjoin]

theorem grows_addFilter (herrors : plan.errors = []) (filter : Filter) :
    Grows [] [] plan (plan.addFilter filter) ∧ filter ∈ (plan.addFilter filter).allConditions := by
  cases hconditions : plan.conditions with
  | some filters =>
      unfold addFilter
      rw [hconditions]
      refine ⟨.of_sources herrors rfl ?_ rfl, ?_⟩
      · intro other hother
        simp only [allConditions, allJoins, hconditions, Option.getD_some, List.mem_append]
          at hother ⊢
        tauto
      · simp [allConditions]
  | none =>
      cases hopen : plan.openJoin with
      | some join =>
          rw [addFilter_of_joining hconditions (by rw [hopen]; rfl)]
          have hclean : (plan.addOn [filter]).errors = [] := by
            unfold addOn
            rw [hopen]
            exact herrors
          have hadded := grows_addOn hclean
          exact ⟨hadded.1, hadded.2 List.mem_cons_self⟩
      | none =>
          have hadd : plan.addFilter filter = { plan with conditions := some [filter] } := by
            unfold addFilter
            rw [hconditions, hopen]
          rw [hadd]
          refine ⟨.of_sources herrors rfl ?_ rfl, ?_⟩
          · intro other hother
            simp only [allConditions, hconditions, Option.getD_none, List.nil_append] at hother
            exact List.mem_append_right _ hother
          · simp [allConditions]

theorem errors_addFilter (plan : Plan) (filter : Filter) :
    (plan.addFilter filter).errors = plan.errors := by
  unfold addFilter
  split <;> rfl

theorem errors_addFilters (filters : List Filter) (plan : Plan) :
    (filters.foldl addFilter plan).errors = plan.errors := by
  induction filters generalizing plan with
  | nil => rfl
  | cons filter rest ih => rw [List.foldl_cons, ih, errors_addFilter]

theorem grows_addFilters (filters : List Filter) (herrors : plan.errors = []) :
    Grows [] [] plan (filters.foldl addFilter plan) ∧
      filters ⊆ (filters.foldl addFilter plan).allConditions := by
  induction filters generalizing plan with
  | nil => exact ⟨.refl herrors, List.nil_subset _⟩
  | cons filter rest ih =>
      have hone := grows_addFilter herrors filter
      have hrest := ih ((plan.errors_addFilter filter).trans herrors)
      rw [List.foldl_cons]
      -- what the later conditions are added to still has the first one
      exact ⟨hone.1.trans hrest.1, List.cons_subset.2 ⟨hrest.1.conditions hone.2, hrest.2⟩⟩

/-- While a join is open, conditions that are not said to be for it are for it all the same. -/
theorem joining_addFilters (filters : List Filter) (herrors : plan.errors = [])
    (hnone : plan.conditions = none) (hopen : plan.openJoin.isSome) :
    (filters.foldl addFilter plan).conditions = none ∧
      (filters.foldl addFilter plan).openJoin.isSome := by
  induction filters generalizing plan with
  | nil => exact ⟨hnone, hopen⟩
  | cons filter rest ih =>
      have hclean : (plan.addFilter filter).errors = [] :=
        (plan.errors_addFilter filter).trans herrors
      have hkept : (plan.addFilter filter).conditions = none ∧
          (plan.addFilter filter).openJoin.isSome := by
        rw [addFilter_of_joining hnone hopen filter] at hclean ⊢
        exact ⟨(joining_addOn hclean).1.trans hnone, (joining_addOn hclean).2⟩
      rw [List.foldl_cons]
      exact ih hclean hkept.1 hkept.2

/-! ## Fields -/

theorem grows_openLazyJoin (herrors : plan.errors = []) (entry : Entry)
    (join : JoinSite → LazyJoin) : ∃ added, Grows added [] plan (plan.openLazyJoin entry join) := by
  unfold openLazyJoin
  dsimp only
  generalize join ⟨entry.quotedTable, entry.quotedColumn, plan.dialect⟩ = opened
  -- the clause stands in front of the open join, so only membership can be compared
  let clause : JoinClause :=
    ⟨opened.kind, .named opened.table, opened.correlation, [.verbatim opened.on]⟩
  rw [touch_eq]
  refine ⟨_, @Grows.of_join plan _ clause [] herrors rfl ?_ rfl ?_⟩
  · intro other
    simp only [allJoins, List.mem_append, List.mem_singleton, clause]
    tauto
  · intro table
    dsimp only
    rw [mem_touched_touch]
    simp [clause, Source.name?, eq_comm]

/-- A lazy join is opened for a field that no expression stands for yet. -/
theorem addField_of_lazy {token : Token} {entry : Entry} {join : JoinSite → LazyJoin}
    (hfound : plan.columns.find? token = some entry) (hnone : entry.selectTarget = none)
    (hlazy : entry.lazyJoin = some join) :
    plan.addField token = plan.openLazyJoin entry join := by
  simp [addField, ColumnMap.locate, hfound, hnone, hlazy]

/-- Any other field is marked as wanted, if there is anything to select for it. -/
theorem addField_of_plain {token : Token} {entry : Entry}
    (hfound : plan.columns.find? token = some entry)
    (hplain : entry.selectTarget.isSome ∨ entry.lazyJoin = none) :
    plan.addField token =
      if entry.column.transient && entry.selectTarget.isNone then
        plan.fail (.transientField entry.column.name)
      else { plan with
        columns := plan.columns.modify token fun entry => { entry with wanted := true } } := by
  cases htarget : entry.selectTarget with
  | some expression => simp [addField, ColumnMap.locate, hfound, htarget]
  | none =>
      have hlazy : entry.lazyJoin = none := by simpa [htarget] using hplain
      simp [addField, ColumnMap.locate, hfound, htarget, hlazy]

/-- A field that can be asked for is known.  Its lazy join is opened if it has one and no expression
stands for it yet; else it is stored or has an expression, and is only marked as wanted. -/
theorem addField_cases {token : Token} (h : (plan.addField token).errors = []) :
    ∃ entry, plan.columns.find? token = some entry ∧
      ((∃ join, entry.selectTarget = none ∧ entry.lazyJoin = some join ∧
          plan.addField token = plan.openLazyJoin entry join) ∨
        (entry.selectTarget.isSome ∨ entry.lazyJoin = none) ∧
          (entry.column.transient = false ∨ entry.selectTarget.isSome) ∧
          plan.addField token = { plan with
            columns := plan.columns.modify token fun entry => { entry with wanted := true } }) := by
  cases hfound : plan.columns.find? token with
  | none =>
      simp only [addField, ColumnMap.locate, hfound] at h
      exact absurd h (errors_fail _ _)
  | some entry =>
      refine ⟨entry, rfl, ?_⟩
      by_cases hplain : entry.selectTarget.isSome ∨ entry.lazyJoin = none
      · have heq := addField_of_plain hfound hplain
        split at heq
        · rw [heq] at h
          exact absurd h (errors_fail _ _)
        · rename_i hshown
          refine .inr ⟨hplain, ?_, heq⟩
          simpa [imp_iff_not_or, Option.isSome_iff_ne_none] using hshown
      · rcases not_or.1 hplain with ⟨hnone, hlazy⟩
        rcases Option.ne_none_iff_exists'.1 hlazy with ⟨join, hjoin⟩
        have htarget : entry.selectTarget = none := Option.not_isSome_iff_eq_none.1 hnone
        exact .inl ⟨join, htarget, hjoin, addField_of_lazy hfound htarget hjoin⟩

theorem grows_addField {token : Token} (h : (plan.addField token).errors = []) :
    ∃ added, Grows added [] plan (plan.addField token) := by
  rcases addField_cases h with ⟨entry, -, ⟨join, -, -, heq⟩ | ⟨-, -, heq⟩⟩
  · have herrors : plan.errors = [] := by
      rw [heq, openLazyJoin, touch_eq] at h
      exact h
    rw [heq]
    exact grows_openLazyJoin herrors entry join
  · rw [heq] at h ⊢
    exact ⟨[], .of_eq h rfl rfl rfl rfl⟩

theorem grows_addFields {tokens : List Token} (h : (tokens.foldl addField plan).errors = []) :
    ∃ added, Grows added [] plan (tokens.foldl addField plan) := by
  induction tokens generalizing plan with
  | nil => exact ⟨[], .refl h⟩
  | cons token rest ih =>
      rw [List.foldl_cons] at h ⊢
      rcases ih h with ⟨later, hrest⟩
      -- the later fields could not have been added without errors to a plan that has some
      rcases grows_addField hrest.errors with ⟨added, hone⟩
      exact ⟨_, hone.trans hrest⟩

/-- The plan with none of its fields wanted. -/
def unwanted (plan : Plan) : Plan :=
  { plan with columns := ⟨plan.columns.entries.map fun entry => { entry with wanted := false }⟩ }

theorem restrictFields_eq (plan : Plan) (tokens : List Token) :
    plan.restrictFields tokens = tokens.foldl addField plan.unwanted := rfl

theorem grows_restrictFields {tokens : List Token} (h : (plan.restrictFields tokens).errors = []) :
    ∃ added, Grows added [] plan (plan.restrictFields tokens) := by
  rw [restrictFields_eq] at h ⊢
  rcases grows_addFields h with ⟨added, hfields⟩
  have hcleared : Grows [] [] plan plan.unwanted := .of_eq hfields.errors rfl rfl rfl rfl
  exact ⟨_, hcleared.trans hfields⟩

/-! ## Targets -/

end Plan

/-- The tables that a target brings along, besides the one that it names. -/
def Target.brings (dialect : Dialect) : Target → List String
  | .model _ => []
  | .plan sub => sub.touched
  | .raw target query =>
    ((target.table.schema, target.table.name) :: query.reads).map fun (schema, name) =>
      dialect.quotedTable schema name

/-- A plan that is a target has no errors, and its statement becomes the source. -/
def Target.WrittenAs (source : Source) : Target → Prop
  | .plan sub => sub.errors = [] ∧
    ∃ query correlation, sub.selectStatement = .ok query ∧ source = .derived query correlation
  | _ => True

namespace Plan

variable {plan next : Plan}

/-- A target is mapped, to be read from a source: besides fields and links, only the touched tables
change. -/
structure Maps (target : Target) (plan next : Plan) (mapped : Source) : Prop where
  errors : plan.errors = []
  source : next.source = plan.source
  joins : next.joins = plan.joins
  openJoin : next.openJoin = plan.openJoin
  conditions : next.conditions = plan.conditions
  touched : ∀ table, table ∈ next.touched ↔
    table ∈ plan.touched ∨ mapped.name? = some table ∨ table ∈ target.brings plan.dialect
  written : target.WrittenAs mapped

theorem maps_mapModel {target : ModelTarget} {mapped : MappedTarget}
    (h : plan.mapModel target = (next, .ok mapped)) (herrors : next.errors = []) :
    Maps (.model target) plan next mapped.source := by
  unfold mapModel at h
  dsimp only at h
  rw [touch_eq] at h
  split at h
  · cases h
  · split at h
    · cases h
      refine ⟨herrors, rfl, rfl, rfl, rfl, ?_, trivial⟩
      intro table
      dsimp only
      rw [mem_touched_touch]
      simp [Target.brings, Source.name?, eq_comm]
    · cases h

theorem foldl_touch_reads (reads : List (Option String × String)) (plan : Plan) :
    reads.foldl (fun plan (schema, name) =>
        plan.touch (plan.dialect.quotedTable schema name)) plan =
      (reads.map fun (schema, name) => plan.dialect.quotedTable schema name).foldl touch plan := by
  induction reads generalizing plan with
  | nil => rfl
  | cons read rest ih =>
      have hdialect : (plan.touch (plan.dialect.quotedTable read.1 read.2)).dialect =
          plan.dialect := by
        rw [touch_eq]
      rw [List.foldl_cons, List.map_cons, List.foldl_cons, ih]
      dsimp only
      rw [hdialect]

theorem maps_mapRaw {target : ModelTarget} {query : RawQuery} {mapped : MappedTarget}
    (h : plan.mapRaw target query = (next, .ok mapped)) (herrors : next.errors = []) :
    Maps (.raw target query) plan next mapped.source := by
  unfold mapRaw at h
  dsimp only at h
  split at h
  · cases h
  · split at h
    · cases h
    · rw [foldl_touch_reads, foldl_touch_eq] at h
      cases h
      refine ⟨herrors, rfl, rfl, rfl, rfl, ?_, trivial⟩
      intro table
      dsimp only
      rw [mem_touched_foldl]
      simp [Target.brings, Source.name?]

theorem maps_mapPlan {sub : Plan} (herrors : (plan.mapPlan sub).1.errors = []) :
    Maps (.plan sub) plan (plan.mapPlan sub).1 (plan.mapPlan sub).2.source := by
  unfold mapPlan at herrors ⊢
  dsimp only at herrors ⊢
  rw [foldl_touch_eq] at herrors ⊢
  cases hquery : sub.selectStatement with
  | error error =>
      -- the error is noted, so the plan would have one
      rw [hquery] at herrors
      exact absurd herrors (errors_fail _ _)
  | ok query =>
      rw [hquery] at herrors
      rcases List.append_eq_nil_iff.1 herrors with ⟨hplan, hsub⟩
      refine ⟨hplan, rfl, rfl, rfl, rfl, ?_, hsub, query, _, hquery, rfl⟩
      intro table
      dsimp only
      rw [mem_touched_foldl]
      simp [Target.brings, Source.name?]

theorem maps_mapTarget {target : Target} {mapped : MappedTarget}
    (h : plan.mapTarget target = (next, .ok mapped)) (herrors : next.errors = []) :
    Maps target plan next mapped.source := by
  cases target with
  | model target => exact maps_mapModel h herrors
  | raw target query => exact maps_mapRaw h herrors
  | plan sub =>
      cases h
      exact maps_mapPlan herrors

/-- A join with a target that can be mapped. -/
theorem openJoinOn_of_ok {target : Target} {mapped : MappedTarget}
    (hmap : plan.closeJoin.mapTarget target = (next, .ok mapped)) (kind : JoinKind) :
    plan.openJoinOn kind target =
      { next with openJoin := some ⟨kind, mapped.source, mapped.correlation, []⟩ } := by
  unfold openJoinOn
  rw [hmap]

/-- The columns behind a join are those of the target that is mapped. -/
theorem columns_openJoinOn {target : Target} {mapped : MappedTarget}
    (hmap : plan.closeJoin.mapTarget target = (next, .ok mapped)) (kind : JoinKind) :
    (plan.openJoinOn kind target).columns = next.columns := by
  rw [openJoinOn_of_ok hmap]

/-- The target of a join is mapped, unless there is an error. -/
theorem mapTarget_of_openJoinOn {kind : JoinKind} {target : Target}
    (h : (plan.openJoinOn kind target).errors = []) :
    ∃ next mapped, plan.closeJoin.mapTarget target = (next, .ok mapped) ∧ next.errors = [] := by
  rcases hmap : plan.closeJoin.mapTarget target with ⟨next, result⟩
  cases result with
  | error error =>
      have hopened : plan.openJoinOn kind target = next.fail error := by
        unfold openJoinOn
        rw [hmap]
      rw [hopened] at h
      exact absurd h (errors_fail _ _)
  | ok mapped => exact ⟨next, mapped, rfl, by rwa [openJoinOn_of_ok hmap] at h⟩

/-- A join is opened with a target. -/
theorem grows_openJoinOn {kind : JoinKind} {target : Target}
    (h : (plan.openJoinOn kind target).errors = []) :
    (∃ added, Grows added (target.brings plan.dialect) plan (plan.openJoinOn kind target)) ∧
      (∃ source ∈ (plan.openJoinOn kind target).allSources, target.WrittenAs source) ∧
      (plan.openJoinOn kind target).conditions = plan.conditions ∧
      (plan.openJoinOn kind target).openJoin.isSome := by
  rcases mapTarget_of_openJoinOn h with ⟨next, mapped, hmap, herrors⟩
  have hmaps := maps_mapTarget hmap herrors
  -- the join that was open is among the finished ones before the target is mapped
  have hjoins : ∀ join, ({ next with openJoin := some join } : Plan).allJoins =
      plan.allJoins ++ [join] := by
    intro join
    rw [allJoins, hmaps.joins]
    rfl
  rw [openJoinOn_of_ok hmap]
  refine ⟨⟨_, @Grows.of_join plan _ ⟨kind, mapped.source, mapped.correlation, []⟩ _
    hmaps.errors hmaps.source ?_ hmaps.conditions hmaps.touched⟩, ⟨mapped.source, ?_,
    hmaps.written⟩, hmaps.conditions, rfl⟩
  · intro other
    rw [hjoins, List.mem_append, List.mem_singleton]
  · rw [allSources, hjoins]
    simp

/-- A primary target that can be mapped. -/
theorem mapRoot_of_ok {target : Target} {mapped : MappedTarget}
    (hmap : plan.mapTarget target = (next, .ok mapped)) :
    plan.mapRoot target = { next with
      table := some mapped.table, quotedTable := mapped.quotedTable
      source := some mapped.source } := by
  unfold mapRoot
  rw [hmap]

/-- A primary target is mapped, unless there is an error. -/
theorem mapTarget_of_mapRoot {target : Target} (h : (plan.mapRoot target).errors = []) :
    ∃ next mapped, plan.mapTarget target = (next, .ok mapped) ∧ next.errors = [] := by
  rcases hmap : plan.mapTarget target with ⟨next, result⟩
  cases result with
  | error error =>
      have hroot : plan.mapRoot target = next.fail error := by
        unfold mapRoot
        rw [hmap]
      rw [hroot] at h
      exact absurd h (errors_fail _ _)
  | ok mapped => exact ⟨next, mapped, rfl, by rwa [mapRoot_of_ok hmap] at h⟩

/-- Mapping the primary target opens no join. -/
theorem allJoins_mapRoot {target : Target} (h : (plan.mapRoot target).errors = []) :
    (plan.mapRoot target).allJoins = plan.allJoins := by
  rcases mapTarget_of_mapRoot h with ⟨next, mapped, hmap, herrors⟩
  have hmaps := maps_mapTarget hmap herrors
  rw [mapRoot_of_ok hmap]
  show next.joins ++ next.openJoin.toList = _
  rw [hmaps.joins, hmaps.openJoin]
  rfl

/-- The primary target of a plan that has no joins and has touched nothing. -/
theorem mapRoot_names {target : Target} (hjoins : plan.allJoins = []) (htouched : plan.touched = [])
    (h : (plan.mapRoot target).errors = []) :
    (∀ table, table ∈ (plan.mapRoot target).touched ↔
      table ∈ (plan.mapRoot target).named ∨ table ∈ target.brings plan.dialect) ∧
      (∃ source ∈ (plan.mapRoot target).allSources, target.WrittenAs source) ∧
      (plan.mapRoot target).conditions = plan.conditions := by
  rcases mapTarget_of_mapRoot h with ⟨next, mapped, hmap, herrors⟩
  have hroot := mapRoot_of_ok hmap
  have hmaps := maps_mapTarget hmap herrors
  have hsources : (plan.mapRoot target).allSources = [mapped.source] := by
    have hsource : (plan.mapRoot target).source = some mapped.source := by rw [hroot]
    rw [allSources, hsource, allJoins_mapRoot h, hjoins]
    rfl
  refine ⟨?_, ⟨mapped.source, ?_, hmaps.written⟩, ?_⟩
  · intro table
    rw [Plan.named, hsources, hroot]
    simpa [htouched] using hmaps.touched table
  · rw [hsources]
    exact List.mem_cons_self
  · rw [hroot]
    exact hmaps.conditions

end Plan

end FieldQuery
