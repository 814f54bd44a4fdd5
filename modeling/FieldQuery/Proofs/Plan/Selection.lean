import FieldQuery.Proofs.Plan.Aliases

/-!
# Which fields are selected

The fields of the primary target are selected from the start, and so are those of any reference that
a mapped relation leads to; what another target brings in is not.  A relation may hang off such a
target, though, and a field may be asked for by its name wherever it came from.  So what is selected
does not always descend from the primary target: these are the two ways in which other fields get
among the selected ones.

Main definitions:

- `Trace`: what the calls on a query say about its fields; `Query.Traced`: a query behind calls.
- `Trace.Chooses`: a field that the calls have selected.

Main statement: `Query.Traced.selected_iff`.
-/

namespace FieldQuery

/-- What the calls on a query say about its fields. -/
structure Trace where
  /-- Brought in by the primary target, or by a chain of relations from there. -/
  lineage : List Token
  /-- Brought in by relations that hang off anything else. -/
  strays : List Token
  /-- Asked for by name since the fields were last narrowed. -/
  asked : List Token
  narrowed : Bool

namespace Trace

/-- The trace behind a call on a plan, after which the plan's columns are these. -/
def after (trace : Trace) (plan : Plan) (call : Call) (next : ColumnMap) : Trace :=
  match call with
  | .join _ (.model reference) =>
    match plan.parentOf reference with
    | none => trace
    | some parent =>
      let added := plan.columns.added next
      if parent.token ∈ trace.lineage then { trace with lineage := trace.lineage ++ added }
      -- a relation without a prefix is as detached as the target that it hangs off
      else if parent.stem = detachedStem then trace
      else { trace with strays := trace.strays ++ added }
  | .fields tokens => { trace with asked := tokens, narrowed := true }
  | .addField token => { trace with asked := trace.asked ++ [token] }
  | _ => trace

/-- A field that the calls have selected, although it is not of the lineage: it was asked for, or
it came in with a stray relation, stored and without a lazy join, and the fields have not been
narrowed. -/
def Chooses (trace : Trace) (entry : Entry) : Prop :=
  entry.token ∈ trace.asked ∨
    trace.narrowed = false ∧ entry.token ∈ trace.strays ∧ entry.column.transient = false ∧
      entry.lazyJoin = none

/-- The other calls say nothing about the fields. -/
theorem after_of_not_changesFields {trace : Trace} {plan : Plan} {call : Call} {next : ColumnMap}
    (hcall : call.changesFields = false) : trace.after plan call next = trace := by
  cases call with
  | join kind target => cases hcall
  | fields tokens => cases hcall
  | addField token => cases hcall
  | _ => rfl

/-- A join leaves out what was asked for, and whether that was to be all. -/
theorem after_join_narrowed (trace : Trace) (plan : Plan) (kind : JoinKind) (target : Target)
    (next : ColumnMap) : (trace.after plan (.join kind target) next).narrowed = trace.narrowed := by
  cases target with
  | model reference =>
      simp only [after]
      split
      · rfl
      · split
        · rfl
        · split <;> rfl
  | plan sub => rfl
  | raw reference query => rfl

end Trace

/-- A query behind calls on its primary target, and what these say about its fields. -/
inductive Query.Traced (target : Target) : Query → Trace → Prop
  | start {dialect : Dialect} {catalog : Catalog} {cacheable : Bool} {lazyJoins : List JoinRule}
      {query : Query} (hquery : query = .start dialect catalog cacheable lazyJoins target) :
      Traced target query ⟨query.plan.columns.tokens, [], [], false⟩
  | call {query next : Query} {trace : Trace} {call : Call} (h : Traced target query trace)
      (hnext : query.call? call = some next) :
      Traced target next (trace.after query.plan call next.plan.columns)

/-! ## One column map behind another -/

namespace ColumnMap

variable {columns next : ColumnMap} {trace later : Trace} {token : Token}

theorem mem_added : token ∈ columns.added next ↔
    (∃ entry ∈ next.entries, entry.token = token) ∧ columns.contains token = false := by
  simp [added, tokens]

/-- A trace that has taken in nothing but new tokens. -/
structure TraceGrows (columns next : ColumnMap) (trace later : Trace) : Prop where
  asked : later.asked = trace.asked
  narrowed : later.narrowed = trace.narrowed
  lineage : ∃ more ⊆ columns.added next, later.lineage = trace.lineage ++ more
  strays : ∃ more ⊆ columns.added next, later.strays = trace.strays ++ more

theorem TraceGrows.refl (columns next : ColumnMap) (trace : Trace) :
    TraceGrows columns next trace trace where
  asked := rfl
  narrowed := rfl
  lineage := ⟨[], List.nil_subset _, (List.append_nil _).symm⟩
  strays := ⟨[], List.nil_subset _, (List.append_nil _).symm⟩

/-- A token that was known is in no list of new ones. -/
theorem not_mem_of_known {more : List Token} (hmore : more ⊆ columns.added next)
    (hknown : columns.contains token = true) : token ∉ more := by
  intro hmem
  have hnew := (mem_added.1 (hmore hmem)).2
  rw [hknown] at hnew
  cases hnew

/-- What the later trace lists is known. -/
theorem TraceGrows.known (htrace : TraceGrows columns next trace later)
    (hextends : columns.Extends next)
    (hknown : ∀ token, token ∈ trace.lineage ∨ token ∈ trace.strays ∨ token ∈ trace.asked →
      columns.contains token = true) :
    ∀ token, token ∈ later.lineage ∨ token ∈ later.strays ∨ token ∈ later.asked →
      next.contains token = true := by
  rcases htrace.lineage with ⟨moreLineage, hmoreLineage, hlineage⟩
  rcases htrace.strays with ⟨moreStrays, hmoreStrays, hstrays⟩
  intro token hmem
  have hnew : ∀ {more : List Token}, more ⊆ columns.added next → token ∈ more →
      next.contains token = true := by
    intro more hmore hadded
    exact contains_iff.2 (mem_added.1 (hmore hadded)).1
  simp only [hlineage, hstrays, htrace.asked, List.mem_append] at hmem
  rcases hmem with (hmem | hadded) | (hmem | hadded) | hmem
  · exact hextends.contains (hknown token (.inl hmem))
  · exact hnew hmoreLineage hadded
  · exact hextends.contains (hknown token (.inr (.inl hmem)))
  · exact hnew hmoreStrays hadded
  · exact hextends.contains (hknown token (.inr (.inr hmem)))

/-- Of a known field it says what the earlier trace said. -/
theorem TraceGrows.chooses_iff (htrace : TraceGrows columns next trace later) {entry known : Entry}
    (hknown : columns.contains known.token = true)
    (hsame : entry.withoutCopies = known.withoutCopies) :
    later.Chooses entry ↔ trace.Chooses known := by
  rcases htrace.strays with ⟨more, hmore, hstrays⟩
  have htoken : entry.token = known.token := (congrArg Entry.token hsame :)
  have hcolumn : entry.column = known.column := (congrArg Entry.column hsame :)
  have hlazy : entry.lazyJoin = known.lazyJoin := (congrArg Entry.lazyJoin hsame :)
  have hold : known.token ∉ more := not_mem_of_known hmore hknown
  simp only [Trace.Chooses, htoken, hcolumn, hlazy, htrace.asked, htrace.narrowed, hstrays,
    List.mem_append, hold, or_false]

/-- The fields are as the trace says. -/
structure Follows (trace : Trace) (columns : ColumnMap) : Prop where
  distinct : columns.Distinct
  known : ∀ token, token ∈ trace.lineage ∨ token ∈ trace.strays ∨ token ∈ trace.asked →
    columns.contains token = true
  wanted : ∀ entry ∈ columns.entries, entry.token ∉ trace.lineage →
    (entry.wanted = true ↔ trace.Chooses entry)
  /-- What is asked for can be selected. -/
  shown : ∀ entry ∈ columns.entries, entry.token ∈ trace.asked →
    entry.column.transient = false ∨ entry.selectTarget.isSome

/-- Selected is what is chosen. -/
theorem Follows.mem_selected (h : columns.Follows trace) {entry : Entry}
    (hentry : entry ∈ columns.entries) (houtside : entry.token ∉ trace.lineage) :
    entry ∈ columns.selected ↔ trace.Chooses entry := by
  have hwanted := h.wanted entry hentry houtside
  have hselected : entry ∈ columns.selected ↔ entry.wanted = true ∧
      (entry.column.transient = false ∨ entry.selectTarget.isSome) := by
    simp [selected, Entry.isSelected, hentry]
  rw [hselected, hwanted]
  constructor
  · exact And.left
  · intro hchosen
    refine ⟨hchosen, ?_⟩
    rcases hchosen with hasked | ⟨-, -, hstored, -⟩
    · exact h.shown entry hentry hasked
    · exact .inl hstored

/-- Other fields come in, which are as the later trace says. -/
theorem Follows.grow (h : columns.Follows trace) (hextends : columns.Extends next)
    (htrace : TraceGrows columns next trace later)
    (hentries : ∀ entry ∈ next.entries,
      (∃ known ∈ columns.entries, entry.withoutCopies = known.withoutCopies) ∨
        columns.contains entry.token = false ∧ (entry.token ∉ later.lineage →
          (entry.wanted = true ↔ later.narrowed = false ∧ entry.token ∈ later.strays ∧
            entry.column.transient = false ∧ entry.lazyJoin = none))) :
    next.Follows later := by
  -- nothing can have been asked for before it was known
  have hunasked : ∀ token, columns.contains token = false → token ∉ later.asked := by
    intro token hnew hmem
    rw [htrace.asked] at hmem
    rw [h.known token (.inr (.inr hmem))] at hnew
    cases hnew
  refine ⟨hextends.distinct h.distinct, htrace.known hextends h.known, ?_, ?_⟩
  · intro entry hentry houtside
    rcases hentries entry hentry with ⟨known, hknown, hsame⟩ | ⟨hnew, hwanted⟩
    · have htoken : entry.token = known.token := (congrArg Entry.token hsame :)
      have hstill : entry.wanted = known.wanted := (congrArg Entry.wanted hsame :)
      have hbefore : known.token ∉ trace.lineage := by
        rcases htrace.lineage with ⟨more, -, hlineage⟩
        intro hmem
        rw [htoken, hlineage] at houtside
        exact houtside (List.mem_append_left _ hmem)
      calc entry.wanted = true
          ↔ known.wanted = true := by rw [hstill]
        _ ↔ trace.Chooses known := h.wanted known hknown hbefore
        _ ↔ later.Chooses entry :=
          (htrace.chooses_iff (contains_iff.2 ⟨known, hknown, rfl⟩) hsame).symm
    · exact (hwanted houtside).trans (or_iff_right (hunasked _ hnew)).symm
  · intro entry hentry hmem
    rcases hentries entry hentry with ⟨known, hknown, hsame⟩ | ⟨hnew, -⟩
    · have htoken : entry.token = known.token := (congrArg Entry.token hsame :)
      have hcolumn : entry.column = known.column := (congrArg Entry.column hsame :)
      have hshown : entry.selectTarget = known.selectTarget := (congrArg Entry.selectTarget hsame :)
      rw [htrace.asked, htoken] at hmem
      rw [hcolumn, hshown]
      exact h.shown known hknown hmem
    · exact absurd hmem (hunasked _ hnew)

/-- Other fields come in that are not wanted. -/
theorem Follows.grow_unwanted (h : columns.Follows trace) (hextends : columns.Extends next)
    (hentries : ∀ entry ∈ next.entries,
      (∃ known ∈ columns.entries, entry.withoutCopies = known.withoutCopies) ∨
        columns.contains entry.token = false ∧ entry.wanted = false) :
    next.Follows trace := by
  refine h.grow hextends (.refl columns next trace) ?_
  intro entry hentry
  rcases hentries entry hentry with hold | ⟨hnew, hunwanted⟩
  · exact .inl hold
  · refine .inr ⟨hnew, fun _ => ?_⟩
    have hstray : entry.token ∉ trace.strays := by
      intro hmem
      rw [h.known _ (.inr (.inl hmem))] at hnew
      cases hnew
    simp [hunwanted, hstray]

/-- No field is wanted any more. -/
theorem Follows.clear (h : columns.Follows trace) :
    Follows { trace with asked := [], narrowed := true }
      ⟨columns.entries.map fun entry => { entry with wanted := false }⟩ := by
  have htokens : ∀ token, contains ⟨columns.entries.map fun entry => { entry with wanted := false }⟩
      token = columns.contains token := by
    intro token
    simp [contains, Function.comp_def]
  refine ⟨?_, ?_, ?_, ?_⟩
  · have hdistinct := h.distinct
    simpa [Distinct, Function.comp_def] using hdistinct
  · intro token hmem
    rw [htokens]
    exact h.known token (hmem.imp_right (.inl <| ·.resolve_right List.not_mem_nil))
  · intro entry hentry _
    rcases List.mem_map.1 hentry with ⟨known, -, rfl⟩
    simp [Trace.Chooses]
  · intro entry _ hmem
    cases hmem

/-- A field is asked for, and may be given an expression to be selected by. -/
theorem Follows.ask (h : columns.Follows trace) (hknown : columns.contains token = true)
    {expression : Entry → Option String}
    (hshown : ∀ entry ∈ columns.entries, entry.token = token →
      entry.column.transient = false ∨ (expression entry).isSome) :
    Follows { trace with asked := trace.asked ++ [token] }
      (columns.modify token fun entry =>
        { entry with selectTarget := expression entry, wanted := true }) := by
  have hextends : columns.Extends (columns.modify token fun entry =>
      { entry with selectTarget := expression entry, wanted := true }) :=
    extends_modify columns token fun _ => rfl
  refine ⟨hextends.distinct h.distinct, ?_, ?_, ?_⟩
  · intro other hmem
    refine hextends.contains ?_
    simp only [List.mem_append, List.mem_singleton] at hmem
    rcases hmem with hmem | hmem | hmem | rfl
    · exact h.known other (.inl hmem)
    · exact h.known other (.inr (.inl hmem))
    · exact h.known other (.inr (.inr hmem))
    · exact hknown
  · intro entry hentry houtside
    rcases List.mem_map.1 hentry with ⟨known, hbefore, rfl⟩
    by_cases htoken : known.token = token
    · simp [htoken, Trace.Chooses]
    · simp only [htoken, if_false] at houtside ⊢
      rw [h.wanted known hbefore houtside]
      simp [Trace.Chooses, htoken]
  · intro entry hentry hmem
    rcases List.mem_map.1 hentry with ⟨known, hbefore, rfl⟩
    by_cases htoken : known.token = token
    · simpa only [htoken, if_true] using hshown known hbefore htoken
    · simp only [htoken, if_false] at hmem ⊢
      rw [List.mem_append, List.mem_singleton, or_iff_left htoken] at hmem
      exact h.shown known hbefore hmem

end ColumnMap

/-! ## Calls -/

namespace Plan

variable {plan next : Plan} {trace : Trace}

/-- A field that is asked for without an error can be selected. -/
theorem follows_addField {token : Token} (h : plan.columns.Follows trace)
    (herrors : (plan.addField token).errors = []) :
    (plan.addField token).columns.Follows { trace with asked := trace.asked ++ [token] } := by
  rcases addField_cases herrors with ⟨found, hfound, hcases⟩
  have hknown := ColumnMap.contains_of_find? hfound
  have htoken : found.token = token := by simpa using List.find?_some hfound
  have hunique : ∀ entry ∈ plan.columns.entries, entry.token = token → entry = found := by
    intro entry hentry hsame
    have hfirst := h.distinct.find? hentry
    rw [hsame, hfound] at hfirst
    exact (Option.some.inj hfirst).symm
  rcases hcases with ⟨join, -, -, heq⟩ | ⟨-, hshown, heq⟩
  · -- the lazy join's expression stands for the column from now on
    rw [heq, openLazyJoin, touch_eq, htoken]
    exact h.ask hknown fun _ _ _ => .inr rfl
  · rw [heq]
    have hstored : ∀ entry ∈ plan.columns.entries, entry.token = token →
        entry.column.transient = false ∨ entry.selectTarget.isSome := by
      intro entry hentry hsame
      rw [hunique entry hentry hsame]
      exact hshown
    exact h.ask hknown hstored

theorem follows_addFields {tokens : List Token} (h : plan.columns.Follows trace)
    (herrors : (tokens.foldl addField plan).errors = []) :
    (tokens.foldl addField plan).columns.Follows
      { trace with asked := trace.asked ++ tokens } := by
  induction tokens generalizing plan trace with
  | nil => simpa using h
  | cons token rest ih =>
      have hclean : (plan.addField token).errors = [] :=
        (continues_addFields rest _).errors_nil herrors
      have hrest := ih (follows_addField h hclean) herrors
      simpa using hrest

/-- Narrowed fields are those that are named. -/
theorem follows_restrictFields {tokens : List Token} (h : plan.columns.Follows trace)
    (herrors : (plan.restrictFields tokens).errors = []) :
    (plan.restrictFields tokens).columns.Follows
      { trace with asked := tokens, narrowed := true } := by
  have hcleared : plan.unwanted.columns.Follows { trace with asked := [], narrowed := true } :=
    h.clear
  rw [restrictFields_eq] at herrors ⊢
  exact follows_addFields hcleared herrors

/-! ## Targets -/

/-- A field is wanted from the start if it is stored, has no lazy join and does not belong to a
detached target. -/
theorem wanted_entry (scope : MappingScope) (column : Column) (token : Token) :
    (scope.entry column token).wanted = true ↔
      column.transient = false ∧ scope.stem ≠ detachedStem ∧
        (scope.entry column token).lazyJoin = none := by
  simp [MappingScope.entry, and_assoc]

/-- What another target than a reference brings in with a join is not wanted. -/
theorem follows_mapPlan (hbare : plan.isBare = false) (h : plan.columns.Follows trace)
    (sub : Plan) : (plan.mapPlan sub).1.columns.Follows trace := by
  refine h.grow_unwanted (continues_mapPlan plan sub).columns ?_
  intro entry hentry
  rw [columns_mapPlan] at hentry
  rcases ColumnMap.mem_pushAll_cases hentry with hold | ⟨himported, hnew⟩
  · exact .inl ⟨entry, hold, rfl⟩
  · rcases List.mem_map.1 himported with ⟨inner, -, rfl⟩
    exact .inr ⟨hnew, by simp [importEntry, hbare]⟩

theorem follows_mapRaw {target : ModelTarget} {query : RawQuery} {mapped : MappedTarget}
    (hmap : plan.mapRaw target query = (next, .ok mapped)) (hbare : plan.isBare = false)
    (h : plan.columns.Follows trace) : next.columns.Follows trace := by
  have hextends := (continues_mapRaw plan target query).columns
  rw [hmap] at hextends
  refine h.grow_unwanted hextends ?_
  intro entry hentry
  rw [columns_mapRaw hmap] at hentry
  rcases ColumnMap.mem_pushAll_cases hentry with hold | ⟨hraw, hnew⟩
  · exact .inl ⟨entry, hold, rfl⟩
  · rcases mem_rawEntries.1 hraw with ⟨pair, -, -, -, rfl⟩
    exact .inr ⟨hnew, hbare⟩

/-- What a reference brings in is a column of it, under the stem of its scope. -/
theorem wanted_mappedColumns {target : ModelTarget} {entry : Entry}
    (h : entry ∈ (plan.mappedColumns target).1.entries) :
    (∃ known ∈ plan.columns.entries, entry.withoutCopies = known.withoutCopies) ∨
      plan.columns.contains entry.token = false ∧ (entry.wanted = true ↔
        entry.column.transient = false ∧ (plan.scopeOf target).stem ≠ detachedStem ∧
          entry.lazyJoin = none) := by
  rcases MappingScope.mem_mapColumns h with hold | ⟨hnew, pair, -, hsame⟩
  · exact .inl hold
  · have hcolumn : entry.column = pair.1 := (congrArg Entry.column hsame :)
    have hlazy : entry.lazyJoin = ((plan.scopeOf target).entry pair.1 pair.2).lazyJoin :=
      (congrArg Entry.lazyJoin hsame :)
    have hwanted : entry.wanted = ((plan.scopeOf target).entry pair.1 pair.2).wanted :=
      (congrArg Entry.wanted hsame :)
    rw [hwanted, hcolumn, hlazy]
    exact .inr ⟨hnew, wanted_entry _ _ _⟩

/-- What a reference brings in: the fields of a related one are wanted, and are new to the trace. -/
theorem follows_mapModel {target : ModelTarget} {mapped : MappedTarget} (kind : JoinKind)
    (hmap : plan.mapModel target = (next, .ok mapped)) (hbare : plan.isBare = false)
    (hnarrowed : trace.narrowed = false) (h : plan.columns.Follows trace) :
    next.columns.Follows (trace.after plan (.join kind (.model target)) next.columns) := by
  have hcolumns := (mapModel_eq hmap).1
  have hextends : plan.columns.Extends next.columns := by
    rw [hcolumns]
    exact MappingScope.extends_mapColumns _ _ (plan.columns, [])
  have hentries : ∀ entry ∈ next.columns.entries,
      (∃ known ∈ plan.columns.entries, entry.withoutCopies = known.withoutCopies) ∨
        plan.columns.contains entry.token = false ∧ (entry.wanted = true ↔
          entry.column.transient = false ∧ (plan.scopeOf target).stem ≠ detachedStem ∧
            entry.lazyJoin = none) := by
    intro entry hentry
    rw [hcolumns] at hentry
    exact wanted_mappedColumns hentry
  have hdetached : (plan.scopeOf target).stem = detachedStem → next.columns.Follows trace := by
    intro hstem
    refine h.grow_unwanted hextends ?_
    intro entry hentry
    refine (hentries entry hentry).imp_right fun ⟨hnew, hwanted⟩ => ⟨hnew, ?_⟩
    simpa [hstem] using hwanted
  have hadded : ∀ entry ∈ next.columns.entries, plan.columns.contains entry.token = false →
      entry.token ∈ plan.columns.added next.columns := by
    intro entry hentry hnew
    exact ColumnMap.mem_added.2 ⟨⟨entry, hentry, rfl⟩, hnew⟩
  cases hparent : plan.parentOf target with
  | none =>
      have hstem : (plan.scopeOf target).stem = detachedStem := by
        simp [scopeOf, hparent, hbare]
      simpa only [Trace.after, hparent] using hdetached hstem
  | some parent =>
      have hstem : (plan.scopeOf target).stem = parent.stem := by
        simp [scopeOf, hparent]
      simp only [Trace.after, hparent]
      split
      · -- new to the lineage, so nothing is to be shown of it
        refine h.grow hextends ?_ ?_
        · exact ⟨rfl, rfl, ⟨_, List.Subset.refl _, rfl⟩,
            ⟨[], List.nil_subset _, (List.append_nil _).symm⟩⟩
        · intro entry hentry
          refine (hentries entry hentry).imp_right fun ⟨hnew, _⟩ => ⟨hnew, fun houtside => ?_⟩
          exact absurd (List.mem_append_right _ (hadded entry hentry hnew)) houtside
      · split
        · rename_i hplain
          exact hdetached (hstem.trans hplain)
        · rename_i hprefixed
          refine h.grow hextends ?_ ?_
          · exact ⟨rfl, rfl, ⟨[], List.nil_subset _, (List.append_nil _).symm⟩,
              ⟨_, List.Subset.refl _, rfl⟩⟩
          · intro entry hentry
            refine (hentries entry hentry).imp_right fun ⟨hnew, hwanted⟩ => ⟨hnew, fun _ => ?_⟩
            have hmem := List.mem_append_right trace.strays (hadded entry hentry hnew)
            simpa [hstem, hprefixed, hnarrowed, hmem] using hwanted

theorem follows_openJoinOn {kind : JoinKind} {target : Target}
    (herrors : (plan.openJoinOn kind target).errors = []) (hbare : plan.isBare = false)
    (hnarrowed : trace.narrowed = false) (h : plan.columns.Follows trace) :
    (plan.openJoinOn kind target).columns.Follows
      (trace.after plan (.join kind target) (plan.openJoinOn kind target).columns) := by
  rcases mapTarget_of_openJoinOn herrors with ⟨next, mapped, hmap, -⟩
  rw [columns_openJoinOn hmap]
  -- the plan with its join closed knows the same fields
  have hclosed : plan.closeJoin.columns.Follows trace := h
  cases target with
  | model target =>
      have hmodel : plan.closeJoin.mapModel target = (next, .ok mapped) := hmap
      have hmapped := follows_mapModel kind hmodel hbare hnarrowed hclosed
      exact hmapped
  | raw target query =>
      have hraw : plan.closeJoin.mapRaw target query = (next, .ok mapped) := hmap
      have hmapped := follows_mapRaw hraw hbare hclosed
      exact hmapped
  | plan sub =>
      have hnext : (plan.closeJoin.mapPlan sub).1 = next := congrArg Prod.fst hmap
      rw [← hnext]
      exact @follows_mapPlan plan.closeJoin trace hbare hclosed sub

end Plan

/-! ## Queries -/

namespace Query

/-- A query without errors has its primary table. -/
theorem On.isBare {target : Target} {query : Query} (h : query.On target)
    (herrors : query.plan.errors = []) : query.plan.isBare = false := by
  induction h with
  | start =>
      rcases Plan.mapTarget_of_mapRoot herrors with ⟨next, mapped, hmap, -⟩
      have hroot := congrArg Plan.table (Plan.mapRoot_of_ok hmap)
      exact congrArg Option.isNone hroot
  | call _ hnext ih =>
      have hcontinues := continues_call? hnext
      have htable := congrArg Grounds.table hcontinues.grounds
      exact (congrArg Option.isNone htable).trans (ih (hcontinues.errors_nil herrors))

/-- The fields of a query are as its trace says, and once they are narrowed there are no joins. -/
structure Follows (trace : Trace) (query : Query) : Prop where
  narrowed : trace.narrowed = true → query.stage = .selecting
  columns : query.plan.columns.Follows trace

namespace Traced

variable {target : Target} {query : Query} {trace : Trace}

theorem on (h : query.Traced target trace) : query.On target := by
  induction h with
  | start hquery => exact hquery ▸ .start
  | call _ hnext ih => exact .call ih hnext

theorem follows (h : query.Traced target trace) (herrors : query.plan.errors = []) :
    query.Follows trace := by
  induction h with
  | @start dialect catalog cacheable lazyJoins query hquery =>
      have hdistinct := (Traced.start hquery).on.distinct
      have hnarrowed : false = true → query.stage = .selecting := fun h => by cases h
      refine ⟨hnarrowed, hdistinct, ?_, ?_, ?_⟩
      · intro token hmem
        simpa [ColumnMap.tokens, ColumnMap.contains_iff] using hmem
      · intro entry hentry houtside
        exact absurd (List.mem_map_of_mem hentry) houtside
      · intro entry _ hmem
        cases hmem
  | @call query next trace call h hnext ih =>
      have hclean := (continues_call? hnext).errors_nil herrors
      have hbare := h.on.isBare hclean
      rcases ih hclean with ⟨hstage, hfollows⟩
      rcases call?_eq_some.1 hnext with ⟨hafter, hplan⟩
      rw [hplan] at herrors
      rw [hplan]
      -- once the fields are narrowed, the stage stays the last one
      have hlast : query.stage = .selecting → next.stage = .selecting :=
        fun hselecting => (Stage.selecting_of_after hafter (.inl hselecting)).1
      cases hcall : call.changesFields with
      | false =>
          rw [Trace.after_of_not_changesFields hcall]
          refine ⟨fun hnarrowed => hlast (hstage hnarrowed), ?_⟩
          rw [hplan, Plan.columns_apply hcall]
          exact hfollows
      | true =>
        cases call with
        | join kind target =>
            have hnarrowed : trace.narrowed = false := by
              refine Bool.eq_false_iff.2 fun hnarrowed => ?_
              exact (Stage.selecting_of_after hafter (.inl (hstage hnarrowed))).2 rfl
            refine ⟨?_, ?_⟩
            · rw [Trace.after_join_narrowed, hnarrowed]
              intro h
              cases h
            · rw [hplan]
              exact Plan.follows_openJoinOn herrors hbare hnarrowed hfollows
        | fields tokens =>
            have hshape := (Stage.selecting_of_after hafter (.inr rfl)).1
            refine ⟨fun _ => hshape, ?_⟩
            rw [hplan]
            exact Plan.follows_restrictFields hfollows herrors
        | addField token =>
            have hshape := (Stage.selecting_of_after hafter (.inr rfl)).1
            refine ⟨fun _ => hshape, ?_⟩
            rw [hplan]
            exact Plan.follows_addField hfollows herrors
        | _ => cases hcall

end Traced

/-- Outside of the lineage of the primary target, the selected fields are those that were asked for
by their names and, while nothing has been narrowed, the stored ones of stray relations. -/
theorem Traced.selected_iff {target : Target} {query : Query} {trace : Trace}
    (h : query.Traced target trace) (herrors : query.plan.errors = []) :
    ∀ entry ∈ query.plan.columns.entries, entry.token ∉ trace.lineage →
      (entry ∈ query.plan.columns.selected ↔ trace.Chooses entry) := by
  intro entry hentry houtside
  have hfollows := (h.follows herrors).columns
  exact hfollows.mem_selected hentry houtside

end Query

namespace Visitors

def catalog : Catalog :=
  Rosters.catalog "nick"

def team : Reference × Forest :=
  ({} : Forest).plant catalog 0

/-- Players, whom no relation leads to. -/
def players : Reference × Forest :=
  team.2.plant catalog 1

/-- The team of those players. -/
def club : Reference × Forest :=
  players.2.enter catalog players.1 3 ⟨8⟩ [("id", ⟨7⟩)] 0

def start : Query :=
  .start .postgres catalog false [] (.model (team.1.target catalog))

def visited : Query :=
  ⟨.joining, start.plan.apply (.join .inner (.model (players.1.target catalog)))⟩

def hosted : Query :=
  ⟨.joining, visited.plan.apply (.join .leftOuter (.model (club.1.target catalog)))⟩

def listed : Query :=
  ⟨.joining, hosted.plan.apply .references⟩

/-- The players' nicknames are asked for. -/
def named : Query :=
  ⟨.selecting, listed.plan.apply (.addField ⟨6⟩)⟩

/-- The name of the players' team is selected although no relation leads from the first team to the
players, and so are the nicknames once they are asked for. -/
theorem selected_iff_visited :
    ∃ trace, Query.Traced (.model (team.1.target catalog)) named trace ∧
      trace.lineage = [⟨2⟩, ⟨3⟩] ∧
      ∃ nick name, nick ∈ named.plan.columns.selected ∧ name ∈ named.plan.columns.selected ∧
        nick.token = ⟨6⟩ ∧ name.token = ⟨9⟩ ∧ name.label = "-team_name" ∧
        name.path.map (·.field) = ["team", "name"] := by
  have hstart : Query.Traced (.model (team.1.target catalog)) start _ := .start rfl
  have hvisited : start.call? (.join .inner (.model (players.1.target catalog))) = some visited :=
    rfl
  have hhosted : visited.call? (.join .leftOuter (.model (club.1.target catalog))) = some hosted :=
    rfl
  have hlisted : hosted.call? .references = some listed := rfl
  have hpicked : listed.call? (.addField ⟨6⟩) = some named := rfl
  have hnamed : Query.Traced (.model (team.1.target catalog)) named _ :=
    .call (.call (.call (.call hstart hvisited) hhosted) hlisted) hpicked
  have hselected := hnamed.selected_iff rfl
  have hentries : ∃ nick name, named.plan.columns.entries[3]? = some nick ∧
      named.plan.columns.entries[6]? = some name ∧ nick.token = ⟨6⟩ ∧ name.token = ⟨9⟩ ∧
      name.label = "-team_name" ∧ name.path.map (·.field) = ["team", "name"] ∧
      name.column.transient = false ∧ name.lazyJoin = none :=
    ⟨_, _, rfl, rfl, rfl, rfl, rfl, rfl, rfl, rfl⟩
  rcases hentries with ⟨nick, name, hnick, hname, hnickToken, hnameToken, hlabel, hpath, hstored,
    hplain⟩
  refine ⟨_, hnamed, rfl, nick, name, ?_, ?_, hnickToken, hnameToken, hlabel, hpath⟩
  · refine (hselected nick (List.mem_of_getElem? hnick) ?_).2 (.inl ?_)
    · rw [hnickToken]
      decide
    · rw [hnickToken]
      decide
  · refine (hselected name (List.mem_of_getElem? hname) ?_).2 (.inr ⟨rfl, ?_, hstored, hplain⟩)
    · rw [hnameToken]
      decide
    · rw [hnameToken]
      decide

end Visitors

end FieldQuery
