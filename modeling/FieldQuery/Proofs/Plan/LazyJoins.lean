import FieldQuery.Proofs.Plan.Destinations
import FieldQuery.Proofs.Plan.Selection

/-!
# Which lazy joins are opened

A field that a reference brings in has a lazy join ready if there is a rule for its column.  The join
is opened when the field is asked for, and whether that is still to be done shows only in the field
itself: an expression stands for its column from then on.  Narrowing the fields takes none of this
back.  So beside a run of calls stands a log of what was asked for, ever and since the last narrowing:
the first says which lazy joins are open, each of them once, and the second which expressions are
selected.

Main definitions:

- `LazyJoin.clause`, `Entry.ruled?`: the clause of a lazy join, and the join that a rule makes.
- `RequestLog`: what references have brought in and what was asked for; `Query.Requested`: a query
  behind calls, with what these have given and asked for.
- `Plan.Answers`: a plan that has opened what was asked for.

Main statement: `Query.Requested.lazy_joins_opened`.
-/

namespace FieldQuery

/-! ## What rules make of a column -/

/-- The clause of a lazy join, on its own condition. -/
def LazyJoin.clause (join : LazyJoin) : JoinClause :=
  ⟨join.kind, .named join.table, join.correlation, [.verbatim join.on]⟩

namespace Entry

/-- The column, as a rule is told of it. -/
def site (entry : Entry) (dialect : Dialect) : JoinSite :=
  ⟨entry.quotedTable, entry.quotedColumn, dialect⟩

/-- The lazy join that an entry has ready. -/
def ready? (entry : Entry) (dialect : Dialect) : Option LazyJoin :=
  entry.lazyJoin.map fun join => join (entry.site dialect)

/-- The lazy join that the first rule for the column makes of it. -/
def ruled? (entry : Entry) (rules : List JoinRule) (dialect : Dialect) : Option LazyJoin :=
  (rules.find? fun rule => rule.table == entry.table.name && rule.column == entry.column.name).map
    fun rule => rule.join (entry.site dialect)

end Entry

/-- The lazy join of a field is ready if there is a rule for its column. -/
theorem MappingScope.ready?_entry (scope : MappingScope) (column : Column) (token : Token)
    (dialect : Dialect) : (scope.entry column token).ready? dialect =
      (scope.entry column token).ruled? scope.lazyJoins dialect := by
  unfold Entry.ready? Entry.ruled?
  exact Option.map_map _ _ _

/-! ## What is asked for -/

/-- What references have brought in, and what was asked for by name. -/
structure RequestLog where
  referenced : List Token := []
  /-- Asked for at any time. -/
  ever : List Token := []
  /-- Asked for since the fields were last narrowed. -/
  standing : List Token := []

namespace RequestLog

/-- The log behind a target, with which other fields may have come in. -/
def brought (log : RequestLog) (columns next : ColumnMap) : Target → RequestLog
  | .model _ => { log with referenced := log.referenced ++ columns.added next }
  | _ => log

def ask (log : RequestLog) (tokens : List Token) : RequestLog :=
  { log with ever := log.ever ++ tokens, standing := log.standing ++ tokens }

/-- The log behind a call on a plan, after which the plan's columns are these. -/
def after (log : RequestLog) (plan : Plan) (call : Call) (next : ColumnMap) : RequestLog :=
  match call with
  | .join _ target => log.brought plan.columns next target
  | .fields tokens => { log with standing := [] }.ask tokens
  | .addField token => log.ask [token]
  | _ => log

/-- The other calls ask for nothing. -/
theorem after_of_not_changesFields {log : RequestLog} {plan : Plan} {call : Call}
    {next : ColumnMap} (hcall : call.changesFields = false) : log.after plan call next = log := by
  cases call with
  | join kind target => cases hcall
  | fields tokens => cases hcall
  | addField token => cases hcall
  | _ => rfl

/-- What was asked for last was asked for. -/
theorem standing_after {log : RequestLog} (h : log.standing ⊆ log.ever) (plan : Plan) (call : Call)
    (next : ColumnMap) : (log.after plan call next).standing ⊆ (log.after plan call next).ever := by
  cases call with
  | join kind target => cases target <;> exact h
  | fields tokens => exact List.subset_append_right _ _
  | addField token =>
      exact List.append_subset.2 ⟨List.subset_append_of_subset_left _ h,
        List.subset_append_right _ _⟩
  | _ => exact h

end RequestLog

/-- A query behind calls on its primary target, what these have given and what they asked for. -/
inductive Query.Requested (target : Target) : Query → ConditionLog → RequestLog → Prop
  | start {dialect : Dialect} {catalog : Catalog} {cacheable : Bool} {lazyJoins : List JoinRule}
      {query : Query} (hquery : query = .start dialect catalog cacheable lazyJoins target) :
      Requested target query {} (RequestLog.brought {} {} query.plan.columns target)
  | call {query next : Query} {given : ConditionLog} {log : RequestLog} {call : Call}
      (h : Requested target query given log) (hnext : query.call? call = some next) :
      Requested target next (given.after query.plan call)
        (log.after query.plan call next.plan.columns)

/-! ## One field -/

namespace Entry

variable {log : RequestLog} {rules : List JoinRule} {dialect : Dialect} {entry known : Entry}

/-- An entry is as the log says: what a reference has brought in has its lazy join ready, whose
expression stands for the column as soon as the field is asked for. -/
structure Answers (log : RequestLog) (rules : List JoinRule) (dialect : Dialect) (entry : Entry) :
    Prop where
  ready : entry.ready? dialect =
    if entry.token ∈ log.referenced then entry.ruled? rules dialect else none
  shown : entry.selectTarget =
    if entry.token ∈ log.ever then (entry.ready? dialect).map (·.select) else none
  wanted : (entry.ready? dialect).isSome → (entry.wanted = true ↔ entry.token ∈ log.standing)

theorem Answers.of_withoutCopies (h : known.Answers log rules dialect)
    (hsame : entry.withoutCopies = known.withoutCopies) : entry.Answers log rules dialect := by
  have hplain : known.withoutCopies.Answers log rules dialect := ⟨h.ready, h.shown, h.wanted⟩
  rw [← hsame] at hplain
  exact ⟨hplain.ready, hplain.shown, hplain.wanted⟩

/-- Other fields may be brought in and asked for. -/
theorem Answers.of_log {later : RequestLog} (h : entry.Answers log rules dialect)
    (hreferenced : entry.token ∈ later.referenced ↔ entry.token ∈ log.referenced)
    (hever : entry.token ∈ later.ever ↔ entry.token ∈ log.ever)
    (hstanding : entry.token ∈ later.standing ↔ entry.token ∈ log.standing) :
    entry.Answers later rules dialect where
  ready := by simpa only [hreferenced] using h.ready
  shown := by simpa only [hever] using h.shown
  wanted := by simpa only [hstanding] using h.wanted

/-- A field that has its lazy join ready was asked for if and only if an expression stands for it. -/
theorem Answers.isSome_iff (h : entry.Answers log rules dialect) {join : LazyJoin}
    (hready : entry.ready? dialect = some join) :
    entry.selectTarget.isSome ↔ entry.token ∈ log.ever := by
  rw [h.shown, hready]
  split
  · rename_i hasked
    simp [hasked]
  · rename_i hnew
    simp [hnew]

/-- A field is asked for: what stands for it now is the expression of its lazy join. -/
theorem Answers.ask (h : entry.Answers log rules dialect) {expression : Option String}
    (hexpression : expression = (entry.ready? dialect).map (·.select)) :
    Answers (log.ask [entry.token]) rules dialect
      { entry with selectTarget := expression, wanted := true } where
  ready := h.ready
  shown := by
    have hasked : entry.token ∈ (log.ask [entry.token]).ever :=
      List.mem_append_right _ List.mem_cons_self
    exact hexpression.trans (if_pos hasked).symm
  wanted _ := iff_of_true rfl (List.mem_append_right _ List.mem_cons_self)

end Entry

/-! ## All fields -/

namespace ColumnMap

/-- The lazy join that the field of a token has ready. -/
def ready? (columns : ColumnMap) (dialect : Dialect) (token : Token) : Option LazyJoin :=
  (columns.find? token).bind fun entry => entry.ready? dialect

end ColumnMap

namespace Plan

variable {plan next : Plan} {log : RequestLog} {opened : List (Token × LazyJoin)}

/-- A plan has opened the lazy joins of what was asked for, each of them once. -/
structure Answers (log : RequestLog) (opened : List (Token × LazyJoin)) (plan : Plan) : Prop where
  distinct : plan.columns.Distinct
  known : ∀ token, token ∈ log.referenced ∨ token ∈ log.ever ∨ token ∈ log.standing →
    plan.columns.contains token = true
  entries : ∀ entry ∈ plan.columns.entries, entry.Answers log plan.lazyJoins plan.dialect
  once : (opened.map (·.1)).Nodup
  mem_opened : ∀ token join, (token, join) ∈ opened ↔
    token ∈ log.ever ∧ plan.columns.ready? plan.dialect token = some join
  touched : ∀ pair ∈ opened, pair.2.table ∈ plan.touched

/-- A change that leaves the fields alone. -/
theorem Answers.of_columns (h : plan.Answers log opened) (hgrounds : next.grounds = plan.grounds)
    (hcolumns : next.columns = plan.columns) (htouched : plan.touched ⊆ next.touched) :
    next.Answers log opened := by
  have hrules : next.lazyJoins = plan.lazyJoins := congrArg Grounds.lazyJoins hgrounds
  have hdialect : next.dialect = plan.dialect := congrArg Grounds.dialect hgrounds
  refine ⟨?_, ?_, ?_, h.once, ?_, fun pair hpair => htouched (h.touched pair hpair)⟩
  · rw [hcolumns]
    exact h.distinct
  · rw [hcolumns]
    exact h.known
  · rw [hcolumns, hrules, hdialect]
    exact h.entries
  · rw [hcolumns, hdialect]
    exact h.mem_opened

/-! ## Targets -/

/-- Other fields come in, and none of them has been asked for. -/
theorem Answers.grow {more : List Token} (h : plan.Answers log opened)
    (hcontinues : plan.Continues next) (htouched : plan.touched ⊆ next.touched)
    (hmore : more ⊆ plan.columns.added next.columns)
    (hentries : ∀ entry ∈ next.columns.entries,
      (∃ known ∈ plan.columns.entries, entry.withoutCopies = known.withoutCopies) ∨
        plan.columns.contains entry.token = false ∧ entry.selectTarget = none ∧
          (entry.ready? plan.dialect =
            if entry.token ∈ more then entry.ruled? plan.lazyJoins plan.dialect else none) ∧
          ((entry.ready? plan.dialect).isSome → entry.wanted = false)) :
    next.Answers { log with referenced := log.referenced ++ more } opened := by
  have hrules : next.lazyJoins = plan.lazyJoins := congrArg Grounds.lazyJoins hcontinues.grounds
  have hdialect : next.dialect = plan.dialect := congrArg Grounds.dialect hcontinues.grounds
  have hextends := hcontinues.columns
  have hdistinct := hextends.distinct h.distinct
  refine ⟨hdistinct, ?_, ?_, h.once, ?_, fun pair hpair => htouched (h.touched pair hpair)⟩
  · intro token hmem
    rw [List.mem_append, or_assoc] at hmem
    rcases hmem with hmem | hadded | hmem
    · exact hextends.contains (h.known token (.inl hmem))
    · exact ColumnMap.contains_iff.2 (ColumnMap.mem_added.1 (hmore hadded)).1
    · exact hextends.contains (h.known token (.inr hmem))
  · rw [hrules, hdialect]
    intro entry hentry
    rcases hentries entry hentry with ⟨known, hknown, hsame⟩ | ⟨hnew, hplain, hready, hwanted⟩
    · have htoken : entry.token = known.token := (congrArg Entry.token hsame :)
      have hcontains : plan.columns.contains entry.token = true :=
        ColumnMap.contains_iff.2 ⟨known, hknown, htoken.symm⟩
      refine ((h.entries known hknown).of_withoutCopies hsame).of_log ?_ .rfl .rfl
      simp [ColumnMap.not_mem_of_known hmore hcontains]
    · -- the log has not heard of a new field before
      have hunknown : ∀ {tokens : List Token}, (∀ token ∈ tokens,
          plan.columns.contains token = true) → entry.token ∉ tokens := by
        intro tokens htokens hmem
        rw [htokens _ hmem] at hnew
        cases hnew
      have hreferenced := hunknown fun token hmem => h.known token (.inl hmem)
      have hever := hunknown fun token hmem => h.known token (.inr (.inl hmem))
      have hstanding := hunknown fun token hmem => h.known token (.inr (.inr hmem))
      refine ⟨?_, ?_, fun hsome => ?_⟩
      · simpa only [List.mem_append, hreferenced, false_or] using hready
      · rw [hplain, if_neg hever]
      · simp [hwanted hsome, hstanding]
  · intro token join
    rw [h.mem_opened, hdialect]
    refine and_congr_right fun hasked => ?_
    -- what was asked for was known, and goes on having the same join ready
    rcases ColumnMap.exists_find? (h.known token (.inr (.inl hasked))) with ⟨known, hknown⟩
    rcases hextends.find? hknown with ⟨later, hlater, hfixed⟩
    have hmem := List.mem_of_find?_eq_some hlater
    have hready : later.ready? plan.dialect = known.ready? plan.dialect := by
      have htoken : known.token = token := by simpa using List.find?_some hknown
      have hsame : later.token = known.token := (congrArg Entry.token hfixed :)
      rcases hentries later hmem with ⟨other, hother, hcopies⟩ | ⟨hnew, -⟩
      · have hfound := h.distinct.find? hother
        have hothertoken : later.token = other.token := (congrArg Entry.token hcopies :)
        rw [← hothertoken, hsame, htoken, hknown] at hfound
        cases hfound
        exact (congrArg (Entry.ready? · plan.dialect) hcopies :)
      · rw [hsame, htoken, h.known token (.inr (.inl hasked))] at hnew
        cases hnew
    simp only [ColumnMap.ready?, hknown, hlater, Option.bind_some, hready]

/-- Other fields come in that have no lazy join. -/
theorem Answers.grow_plain (h : plan.Answers log opened) (hcontinues : plan.Continues next)
    (htouched : plan.touched ⊆ next.touched)
    (hentries : ∀ entry ∈ next.columns.entries, entry ∈ plan.columns.entries ∨
      plan.columns.contains entry.token = false ∧ entry.selectTarget = none ∧
        entry.lazyJoin = none) :
    next.Answers log opened := by
  have hgrown := h.grow hcontinues htouched (List.nil_subset _) fun entry hentry => by
    refine (hentries entry hentry).imp (fun hold => ⟨entry, hold, rfl⟩) ?_
    rintro ⟨hnew, hplain, hnone⟩
    have hready : entry.ready? plan.dialect = none := by
      rw [Entry.ready?, hnone]
      rfl
    refine ⟨hnew, hplain, ?_, ?_⟩
    · rw [hready, if_neg List.not_mem_nil]
    · rw [hready]
      exact nofun
  rwa [List.append_nil] at hgrown

/-- Only what a reference brings in has lazy joins ready, as the rules have it. -/
theorem Answers.mapTarget {target : Target} {mapped : MappedTarget} (h : plan.Answers log opened)
    (hmap : plan.mapTarget target = (next, .ok mapped)) (herrors : next.errors = []) :
    next.Answers (log.brought plan.columns next.columns target) opened := by
  have hcontinues := continues_of_mapTarget hmap
  have htouched : plan.touched ⊆ next.touched := fun table hmem =>
    ((maps_mapTarget hmap herrors).touched table).2 (.inl hmem)
  cases target with
  | model reference =>
      refine h.grow hcontinues htouched (List.Subset.refl _) fun entry hentry => ?_
      have hmem : entry ∈ (plan.mappedColumns reference).1.entries := by
        rw [← (mapModel_eq hmap).1]
        exact hentry
      rcases MappingScope.mem_mapColumns hmem with hold | ⟨hnew, ⟨column, token⟩, -, hsame⟩
      · exact .inl hold
      · let made := (plan.scopeOf reference).entry column token
        have hshown : entry.selectTarget = made.selectTarget := (congrArg Entry.selectTarget hsame :)
        have hready : entry.ready? plan.dialect = made.ready? plan.dialect :=
          (congrArg (Entry.ready? · plan.dialect) hsame :)
        have hruled : entry.ruled? plan.lazyJoins plan.dialect =
            made.ruled? plan.lazyJoins plan.dialect :=
          (congrArg (Entry.ruled? · plan.lazyJoins plan.dialect) hsame :)
        have hwanted : entry.wanted = made.wanted := (congrArg Entry.wanted hsame :)
        have hadded : entry.token ∈ plan.columns.added next.columns :=
          ColumnMap.mem_added.2 ⟨⟨entry, hentry, rfl⟩, hnew⟩
        refine .inr ⟨hnew, hshown, ?_, fun hsome => ?_⟩
        · rw [if_pos hadded, hready, hruled]
          exact MappingScope.ready?_entry _ _ _ _
        · rw [hwanted, Bool.eq_false_iff]
          intro hmade
          have hnone := ((wanted_entry _ _ _).1 hmade).2.2
          rw [hready, Entry.ready?, hnone] at hsome
          cases hsome
  | plan sub =>
      have hnext : (plan.mapPlan sub).1 = next := congrArg Prod.fst hmap
      refine h.grow_plain hcontinues htouched fun entry hentry => ?_
      rw [← hnext, columns_mapPlan] at hentry
      refine (ColumnMap.mem_pushAll_cases hentry).imp_right ?_
      rintro ⟨himported, hnew⟩
      rcases List.mem_map.1 himported with ⟨inner, -, rfl⟩
      exact ⟨hnew, rfl, rfl⟩
  | raw reference query =>
      have hraw : plan.mapRaw reference query = (next, .ok mapped) := hmap
      refine h.grow_plain hcontinues htouched fun entry hentry => ?_
      rw [columns_mapRaw hraw] at hentry
      refine (ColumnMap.mem_pushAll_cases hentry).imp_right ?_
      rintro ⟨hentered, hnew⟩
      rcases mem_rawEntries.1 hentered with ⟨pair, -, -, -, rfl⟩
      exact ⟨hnew, rfl, rfl⟩

theorem Answers.openJoinOn {kind : JoinKind} {target : Target} (h : plan.Answers log opened)
    (herrors : (plan.openJoinOn kind target).errors = []) :
    (plan.openJoinOn kind target).Answers
      (log.brought plan.columns (plan.openJoinOn kind target).columns target) opened := by
  rcases mapTarget_of_openJoinOn herrors with ⟨next, mapped, hmap, hclean⟩
  have hclosed : plan.closeJoin.Answers log opened := h.of_columns rfl rfl (List.Subset.refl _)
  have hmapped := hclosed.mapTarget hmap hclean
  rw [columns_openJoinOn hmap, openJoinOn_of_ok hmap]
  exact hmapped.of_columns rfl rfl (List.Subset.refl _)

/-! ## Requests -/

/-- A field that has its lazy join ready has it ready whatever is selected. -/
theorem ready?_modify (columns : ColumnMap) (dialect : Dialect) (token : Token)
    (expression : Entry → Option String) (other : Token) :
    (columns.modify token fun entry =>
      { entry with selectTarget := expression entry, wanted := true }).ready? dialect other =
        columns.ready? dialect other := by
  have hentry : ∀ entry : Entry, (if entry.token = token then
      { entry with selectTarget := expression entry, wanted := true } else entry).token =
        entry.token ∧
      (if entry.token = token then
        { entry with selectTarget := expression entry, wanted := true } else entry).ready? dialect =
          entry.ready? dialect := by
    intro entry
    split <;> exact ⟨rfl, rfl⟩
  simp only [ColumnMap.ready?, ColumnMap.find?, ColumnMap.modify, List.find?_map, Function.comp_def,
    hentry, Option.bind_map]

/-- A field is asked for, and the joins that are open now are those of what was asked for. -/
theorem Answers.ask {token : Token} (expression : Entry → Option String)
    {opened' : List (Token × LazyJoin)} (h : plan.Answers log opened)
    (hknown : plan.columns.contains token = true)
    (hexpression : ∀ entry ∈ plan.columns.entries, entry.token = token →
      expression entry = (entry.ready? plan.dialect).map (·.select))
    (hgrounds : next.grounds = plan.grounds)
    (hcolumns : next.columns = plan.columns.modify token fun entry =>
      { entry with selectTarget := expression entry, wanted := true })
    (honce : (opened'.map (·.1)).Nodup)
    (hopened : ∀ other join, (other, join) ∈ opened' ↔ (other, join) ∈ opened ∨
      other = token ∧ plan.columns.ready? plan.dialect token = some join)
    (htouched : ∀ pair ∈ opened', pair.2.table ∈ next.touched) :
    next.Answers (log.ask [token]) opened' := by
  have hrules : next.lazyJoins = plan.lazyJoins := congrArg Grounds.lazyJoins hgrounds
  have hdialect : next.dialect = plan.dialect := congrArg Grounds.dialect hgrounds
  have hextends : plan.columns.Extends next.columns := by
    rw [hcolumns]
    exact ColumnMap.extends_modify _ _ fun _ => rfl
  refine ⟨hextends.distinct h.distinct, fun other hmem => hextends.contains ?_, ?_, honce, ?_,
    htouched⟩
  · simp only [RequestLog.ask, List.mem_append, List.mem_singleton] at hmem
    rcases hmem with hmem | (hmem | rfl) | hmem | rfl
    · exact h.known other (.inl hmem)
    · exact h.known other (.inr (.inl hmem))
    · exact hknown
    · exact h.known other (.inr (.inr hmem))
    · exact hknown
  · rw [hcolumns, hrules, hdialect]
    intro entry hentry
    rcases List.mem_map.1 hentry with ⟨known, hbefore, rfl⟩
    by_cases htoken : known.token = token
    · subst htoken
      rw [if_pos rfl]
      exact (h.entries known hbefore).ask (hexpression known hbefore rfl)
    · rw [if_neg htoken]
      have hother : ∀ {tokens : List Token},
          known.token ∈ tokens ++ [token] ↔ known.token ∈ tokens := by
        simp [htoken]
      exact (h.entries known hbefore).of_log .rfl hother hother
  · intro other join
    rw [hopened, h.mem_opened, hcolumns, hdialect, ready?_modify]
    simp only [RequestLog.ask, List.mem_append, List.mem_singleton, or_and_right]
    refine or_congr_right (and_congr_right ?_)
    rintro rfl
    exact .rfl

/-- A field is asked for: its lazy join is opened, unless it was asked for before. -/
theorem Answers.addField {token : Token} (h : plan.Answers log opened)
    (herrors : (plan.addField token).errors = []) :
    ∃ more, (plan.addField token).Answers (log.ask [token]) (opened ++ more) ∧
      (plan.addField token).joins = plan.joins ++ more.map fun pair => pair.2.clause := by
  rcases addField_cases herrors with ⟨found, hfound, hcases⟩
  have hknown := ColumnMap.contains_of_find? hfound
  have hmem := List.mem_of_find?_eq_some hfound
  have htoken : found.token = token := by simpa using List.find?_some hfound
  have hanswers := h.entries found hmem
  have hready : plan.columns.ready? plan.dialect token = found.ready? plan.dialect := by
    rw [ColumnMap.ready?, hfound]
    rfl
  have hunique : ∀ entry ∈ plan.columns.entries, entry.token = token → entry = found := by
    intro entry hentry hsame
    have hfirst := h.distinct.find? hentry
    rw [hsame, hfound] at hfirst
    exact (Option.some.inj hfirst).symm
  rcases hcases with ⟨join, hnone, hlazy, heq⟩ | ⟨hplain, -, heq⟩
  · let made := join (found.site plan.dialect)
    have hmade : found.ready? plan.dialect = some made := by
      rw [Entry.ready?, hlazy]
      rfl
    -- no expression stands for the field, so it was not asked for before
    have hnew : token ∉ opened.map (·.1) := by
      intro hopened
      rcases List.mem_map.1 hopened with ⟨⟨other, clause⟩, hpair, hother⟩
      have hasked : found.token ∈ log.ever := by
        rw [htoken, ← hother]
        exact ((h.mem_opened _ _).1 hpair).1
      have hshown := (hanswers.isSome_iff hmade).2 hasked
      rw [hnone] at hshown
      cases hshown
    have hjoins : (plan.openLazyJoin found join).joins = plan.joins ++ [made.clause] := by
      rw [openLazyJoin, touch_eq]
      rfl
    have hgrounds : (plan.openLazyJoin found join).grounds = plan.grounds :=
      (continues_openLazyJoin plan found join).grounds
    have hcolumns : (plan.openLazyJoin found join).columns = plan.columns.modify token fun entry =>
        { entry with selectTarget := some made.select, wanted := true } := by
      rw [openLazyJoin, touch_eq, htoken]
      rfl
    have htouched : ∀ table, table ∈ (plan.openLazyJoin found join).touched ↔
        table ∈ plan.touched ∨ table = made.table := by
      intro table
      exact mem_touched_touch _ _ _
    rw [heq]
    refine ⟨[(token, made)], ?_, hjoins⟩
    refine h.ask (fun _ => some made.select) hknown ?_ hgrounds hcolumns ?_ ?_ ?_
    · intro entry hentry hsame
      rw [hunique entry hentry hsame, hmade]
      rfl
    · rw [List.map_append, List.nodup_append]
      refine ⟨h.once, List.nodup_singleton _, ?_⟩
      intro other hother added hadded hsame
      rw [hsame, List.mem_singleton.1 hadded] at hother
      exact hnew hother
    · intro other clause
      rw [List.mem_append, List.mem_singleton, hready, hmade, Prod.mk.injEq, Option.some.injEq]
      exact or_congr_right (and_congr_right fun _ => eq_comm)
    · intro pair hpair
      rw [htouched]
      rcases List.mem_append.1 hpair with hold | hadded
      · exact .inl (h.touched pair hold)
      · rw [List.mem_singleton.1 hadded]
        exact .inr rfl
  · -- an expression stands for the field already, or it has no lazy join
    have hshown : found.selectTarget = (found.ready? plan.dialect).map (·.select) ∧
        (found.ready? plan.dialect ≠ none → token ∈ log.ever) := by
      cases hmade : found.ready? plan.dialect with
      | none =>
          refine ⟨?_, fun hsome => absurd rfl hsome⟩
          rw [hanswers.shown, hmade]
          exact ite_self _
      | some made =>
          have hlazy : found.lazyJoin ≠ none := by
            intro hnone
            rw [Entry.ready?, hnone] at hmade
            cases hmade
          have hasked := (hanswers.isSome_iff hmade).1 (hplain.resolve_right hlazy)
          refine ⟨?_, fun _ => htoken ▸ hasked⟩
          rw [hanswers.shown, if_pos hasked, hmade]
    rw [heq]
    refine ⟨[], ?_, (List.append_nil _).symm⟩
    rw [List.append_nil]
    refine h.ask Entry.selectTarget hknown ?_ rfl rfl h.once ?_ h.touched
    · intro entry hentry hsame
      rw [hunique entry hentry hsame]
      exact hshown.1
    · intro other clause
      refine (or_iff_left_of_imp ?_).symm
      rintro ⟨rfl, hclause⟩
      refine (h.mem_opened _ _).2 ⟨hshown.2 ?_, hclause⟩
      rw [← hready, hclause]
      exact Option.some_ne_none clause

theorem Answers.addFields {tokens : List Token} (h : plan.Answers log opened)
    (herrors : (tokens.foldl Plan.addField plan).errors = []) :
    ∃ more, (tokens.foldl Plan.addField plan).Answers (log.ask tokens) (opened ++ more) ∧
      (tokens.foldl Plan.addField plan).joins =
        plan.joins ++ more.map fun pair => pair.2.clause := by
  induction tokens generalizing plan log opened with
  | nil =>
      refine ⟨[], ?_, (List.append_nil _).symm⟩
      rw [List.append_nil]
      simpa [RequestLog.ask] using h
  | cons token rest ih =>
      have hclean : (plan.addField token).errors = [] :=
        (continues_addFields rest _).errors_nil herrors
      rcases h.addField hclean with ⟨first, hfirst, hjoins⟩
      rcases ih hfirst herrors with ⟨later, hlater, hothers⟩
      refine ⟨first ++ later, ?_, ?_⟩
      · have hask : (log.ask [token]).ask rest = log.ask (token :: rest) := by
          simp [RequestLog.ask]
        rwa [hask, List.append_assoc] at hlater
      · rw [List.foldl_cons, hothers, hjoins, List.map_append, List.append_assoc]

/-- Narrowing forgets what was asked for last, but closes no join. -/
theorem Answers.unwanted (h : plan.Answers log opened) :
    plan.unwanted.Answers { log with standing := [] } opened := by
  have hextends : plan.columns.Extends plan.unwanted.columns :=
    ColumnMap.extends_of_fixed (fixed_unwanted plan)
  refine ⟨hextends.distinct h.distinct, fun token hmem => hextends.contains ?_, ?_, h.once, ?_,
    h.touched⟩
  · rcases hmem with hmem | hmem | hmem
    · exact h.known token (.inl hmem)
    · exact h.known token (.inr (.inl hmem))
    · cases hmem
  · intro entry hentry
    rcases List.mem_map.1 hentry with ⟨known, hknown, rfl⟩
    have hanswers := h.entries known hknown
    exact ⟨hanswers.ready, hanswers.shown, fun _ => iff_of_false Bool.false_ne_true List.not_mem_nil⟩
  · intro token join
    have hready : plan.unwanted.columns.ready? plan.dialect token =
        plan.columns.ready? plan.dialect token := by
      simp only [ColumnMap.ready?, ColumnMap.find?, Plan.unwanted, List.find?_map,
        Function.comp_def, Option.bind_map]
      rfl
    exact (h.mem_opened token join).trans (and_congr_right fun _ => by rw [← hready]; rfl)

theorem touched_apply {call : Call} (herrors : (plan.apply call).errors = []) :
    plan.touched ⊆ (plan.apply call).touched := by
  by_cases hwhere : call = .startWhere
  · subst hwhere
    exact List.Subset.refl _
  · rcases (applies_apply (fun heq => absurd heq hwhere) herrors).grows with ⟨added, hgrows⟩
    exact fun table hmem => (hgrows.touched table).2 (.inl hmem)

/-- A call that asks for nothing opens no lazy join. -/
theorem Answers.apply {call : Call} (h : plan.Answers log opened) (hasks : call.asks = false)
    (herrors : (plan.apply call).errors = []) :
    (plan.apply call).Answers (log.after plan call (plan.apply call).columns) opened := by
  cases hcall : call.changesFields with
  | false =>
      rw [RequestLog.after_of_not_changesFields hcall]
      exact h.of_columns (continues_apply plan call).grounds (columns_apply hcall)
        (touched_apply herrors)
  | true =>
      cases call with
      | join kind target => exact h.openJoinOn herrors
      | fields tokens => cases hasks
      | addField token => cases hasks
      | _ => cases hcall

/-- A call that asks for fields opens the lazy joins that are still to be opened. -/
theorem Answers.apply_asks {call : Call} (h : plan.Answers log opened) (hasks : call.asks = true)
    (herrors : (plan.apply call).errors = []) :
    ∃ more, (plan.apply call).Answers (log.after plan call (plan.apply call).columns)
        (opened ++ more) ∧
      (plan.apply call).joins = plan.joins ++ more.map fun pair => pair.2.clause := by
  cases call with
  | fields tokens => exact h.unwanted.addFields herrors
  | addField token => exact h.addField herrors
  | _ => cases hasks

end Plan

/-! ## Queries -/

namespace Query

variable {target : Target} {query : Query} {given : ConditionLog} {log : RequestLog}

namespace Requested

theorem standing_subset (h : query.Requested target given log) : log.standing ⊆ log.ever := by
  induction h with
  | start _ => cases target <;> exact List.Subset.refl _
  | call _ _ ih => exact RequestLog.standing_after ih _ _ _

theorem answers_start {dialect : Dialect} {catalog : Catalog} {cacheable : Bool}
    {lazyJoins : List JoinRule}
    (herrors : (Query.start dialect catalog cacheable lazyJoins target).plan.errors = []) :
    (Query.start dialect catalog cacheable lazyJoins target).plan.Answers
      (RequestLog.brought {} {}
        (Query.start dialect catalog cacheable lazyJoins target).plan.columns target) [] := by
  rcases Plan.mapTarget_of_mapRoot herrors with ⟨next, mapped, hmap, hclean⟩
  let empty : Plan :=
    { dialect := dialect, catalog := catalog, model := target.toModel.table, cacheable := cacheable
      lazyJoins := lazyJoins }
  have hempty : empty.Answers {} [] := by
    refine ⟨List.nodup_nil, ?_, List.forall_mem_nil _, List.nodup_nil, ?_, List.forall_mem_nil _⟩
    · rintro token (hmem | hmem | hmem) <;> cases hmem
    · intro token join
      exact iff_of_false List.not_mem_nil fun hasked => List.not_mem_nil hasked.1
  have hmapped := hempty.mapTarget hmap hclean
  have hroot : (Query.start dialect catalog cacheable lazyJoins target).plan = { next with
      table := some mapped.table, quotedTable := mapped.quotedTable
      source := some mapped.source } := Plan.mapRoot_of_ok hmap
  rw [hroot]
  exact ⟨hmapped.distinct, hmapped.known, hmapped.entries, hmapped.once, hmapped.mem_opened,
    hmapped.touched⟩

/-- A query has opened the lazy joins of what was asked for, and no others. -/
theorem answers (h : query.Requested target given log) (herrors : query.plan.errors = []) :
    ∃ opened, query.plan.Answers log opened ∧
      query.Holds given (opened.map fun pair => pair.2.clause) := by
  induction h with
  | start hquery =>
      subst hquery
      exact ⟨[], answers_start herrors, holds_start herrors⟩
  | @call query next given log call _ hnext ih =>
      rcases ih ((continues_call? hnext).errors_nil herrors) with ⟨opened, hanswers, hholds⟩
      have hplan := (call?_eq_some.1 hnext).2
      rcases hholds.of_call hnext herrors with ⟨lazy, hsame, hlater⟩
      rw [hplan] at herrors
      cases hasks : call.asks with
      | false =>
          rw [hsame hasks] at hlater
          have hnone := hanswers.apply hasks herrors
          rw [← hplan] at hnone
          exact ⟨opened, hnone, hlater⟩
      | true =>
          rcases hanswers.apply_asks hasks herrors with ⟨more, hmore, hjoins⟩
          rw [← hplan] at hmore hjoins
          -- the log of what was given says the same, so these are the lazy joins that came in
          have hgiven : given.after query.plan call = given := by
            cases call with
            | fields tokens => rfl
            | addField token => rfl
            | _ => cases hasks
          have hadded : lazy = (opened ++ more).map fun pair => pair.2.clause := by
            have hfinished := hlater.plan.joins
            rw [hgiven, hjoins, hholds.plan.joins, List.append_assoc] at hfinished
            rw [List.map_append]
            exact (List.append_cancel_left hfinished).symm
          rw [hadded] at hlater
          exact ⟨opened ++ more, hmore, hlater⟩

end Requested

/-- Each field that a reference has brought in, for whose column there is a rule and that was asked
for at any time, has its lazy join opened once, in front of the join that is open; no other field has
one.  The tables of these joins are touched.  Such a field is selected if and only if it was asked for
since the fields were last narrowed, and then by the expression of its join. -/
theorem Requested.lazy_joins_opened (h : query.Requested target given log)
    (herrors : query.plan.errors = []) : ∃ opened : List (Token × LazyJoin),
      (opened.map (·.1)).Nodup ∧
      (∀ token join, (token, join) ∈ opened ↔
        token ∈ log.ever ∧ token ∈ log.referenced ∧ ∃ entry,
          query.plan.columns.find? token = some entry ∧
            entry.ruled? query.plan.lazyJoins query.plan.dialect = some join) ∧
      (∀ pair ∈ opened, pair.2.table ∈ query.plan.touched) ∧
      (∀ entry ∈ query.plan.columns.entries, ∀ join, entry.token ∈ log.referenced →
        entry.ruled? query.plan.lazyJoins query.plan.dialect = some join →
          (entry ∈ query.plan.columns.selected ↔ entry.token ∈ log.standing) ∧
          (entry ∈ query.plan.columns.selected → Plan.selectItem query.plan.dialect entry =
            join.select ++ " AS " ++ query.plan.dialect.quote entry.label)) ∧
      ∀ statement, query.plan.statement .select = .ok statement →
        query.plan.Places (given.clauses (opened.map fun pair => pair.2.clause))
          (given.conditions.getD []) statement .select := by
  rcases h.answers herrors with ⟨opened, hanswers, hholds⟩
  refine ⟨opened, hanswers.once, fun token join => ?_, hanswers.touched, ?_, ?_⟩
  · rw [hanswers.mem_opened, ColumnMap.ready?, Option.bind_eq_some_iff]
    refine and_congr_right fun _ => ?_
    rw [← exists_and_left]
    refine exists_congr fun entry => ?_
    rw [and_left_comm]
    refine and_congr_right fun hentry => ?_
    -- only what a reference has brought in has a lazy join ready
    have htoken : entry.token = token := by simpa using List.find?_some hentry
    have hready := (hanswers.entries entry (List.mem_of_find?_eq_some hentry)).ready
    rw [hready, htoken]
    split
    · rename_i hmem
      exact (and_iff_right hmem).symm
    · rename_i hmem
      exact iff_of_false nofun fun hruled => hmem hruled.1
  · intro entry hentry join hreferenced hruled
    have hentryAnswers := hanswers.entries entry hentry
    have hready : entry.ready? query.plan.dialect = some join := by
      rw [hentryAnswers.ready, if_pos hreferenced, hruled]
    have hwanted := hentryAnswers.wanted (by rw [hready]; rfl)
    have hshown : entry.token ∈ log.standing → entry.selectTarget = some join.select := by
      intro hstanding
      rw [hentryAnswers.shown, if_pos (h.standing_subset hstanding), hready]
      rfl
    have hselected : entry ∈ query.plan.columns.selected ↔ entry.token ∈ log.standing := by
      simp only [ColumnMap.selected, List.mem_filter, hentry, true_and, Entry.isSelected,
        Bool.and_eq_true, hwanted]
      refine and_iff_left_of_imp fun hstanding => ?_
      rw [hshown hstanding, Option.isSome_some, Bool.or_true]
    refine ⟨hselected, fun hmem => ?_⟩
    rw [Plan.selectItem, Entry.selectExpr, hshown (hselected.1 hmem), Option.getD_some]
  · intro statement hstatement
    rw [← hholds.plan.allJoins, ← hholds.plan.conditions]
    exact Plan.places_statement hstatement

end Query

namespace Towns

/-- The name of the team is asked for, left out when the fields are narrowed, and asked for again. -/
def recalls : List Call :=
  [.join .leftOuter (.model (team.1.target catalog)), .references, .addField ⟨6⟩, .fields [⟨3⟩],
    .addField ⟨6⟩]

def recalled : Query :=
  ⟨.selecting, recalls.foldl Plan.apply start.plan⟩

def town : LazyJoin :=
  rule.join ⟨"\"team\"", "\"name\"", .postgres⟩

/-- The town is joined once for all that. -/
theorem lazy_joins_opened_recalled :
    ∃ given log, Query.Requested (.model (players.1.target catalog)) recalled given log ∧
      log.ever = [⟨6⟩, ⟨3⟩, ⟨6⟩] ∧ log.standing = [⟨3⟩, ⟨6⟩] ∧
      ∃ opened : List (Token × LazyJoin), ∃ statement entry,
        (opened.map (·.1)).Nodup ∧ (⟨6⟩, town) ∈ opened ∧ "\"towns\"" ∈ recalled.plan.touched ∧
        entry ∈ recalled.plan.columns.selected ∧
        Plan.selectItem .postgres entry = "\"t\".\"name\" AS \"team_name\"" ∧
        recalled.plan.statement .select = .ok statement ∧
        recalled.plan.Places (given.clauses (opened.map fun pair => pair.2.clause))
          (given.conditions.getD []) statement .select := by
  have hjoined : start.call? (.join .leftOuter (.model (team.1.target catalog))) = some joined :=
    rfl
  have hlisted : joined.call? .references = some listed := rfl
  have hnamed : listed.call? (.addField ⟨6⟩) = some named := rfl
  have hlast : ∃ narrowed, named.call? (.fields [⟨3⟩]) = some narrowed ∧
      narrowed.call? (.addField ⟨6⟩) = some recalled := ⟨_, rfl, rfl⟩
  rcases hlast with ⟨narrowed, hnarrowed, hrecalled⟩
  have hstart : Query.Requested (.model (players.1.target catalog)) start _ _ := .start rfl
  have hlog : ∃ given log, Query.Requested (.model (players.1.target catalog)) recalled given log ∧
      log.ever = [⟨6⟩, ⟨3⟩, ⟨6⟩] ∧ log.standing = [⟨3⟩, ⟨6⟩] ∧
      log.referenced = [⟨2⟩, ⟨3⟩, ⟨4⟩, ⟨5⟩, ⟨6⟩] :=
    ⟨_, _, .call (.call (.call (.call (.call hstart hjoined) hlisted) hnamed) hnarrowed) hrecalled,
      rfl, rfl, rfl⟩
  rcases hlog with ⟨given, log, hrequested, hever, hstanding, hreferenced⟩
  rcases hrequested.lazy_joins_opened rfl with
    ⟨opened, honce, hopened, htouched, hselected, hplaces⟩
  have hentry : ∃ entry, recalled.plan.columns.entries[4]? = some entry ∧
      recalled.plan.columns.find? ⟨6⟩ = some entry ∧ entry.token = ⟨6⟩ ∧
      entry.ruled? recalled.plan.lazyJoins recalled.plan.dialect = some town ∧
      entry.label = "team_name" := ⟨_, rfl, rfl, rfl, rfl, rfl⟩
  rcases hentry with ⟨entry, hmem, hfound, htoken, hruled, hlabel⟩
  have hstatement : ∃ statement, recalled.plan.statement .select = .ok statement := ⟨_, rfl⟩
  rcases hstatement with ⟨statement, hstatement⟩
  have htown : (⟨6⟩, town) ∈ opened := by
    refine (hopened ⟨6⟩ town).2 ⟨?_, ?_, entry, hfound, hruled⟩
    · rw [hever]
      decide
    · rw [hreferenced]
      decide
  have hbrought : entry.token ∈ log.referenced := by
    rw [hreferenced, htoken]
    decide
  rcases hselected entry (List.mem_of_getElem? hmem) town hbrought hruled with ⟨hshown, hitem⟩
  have hchosen : entry ∈ recalled.plan.columns.selected := by
    rw [hshown, hstanding, htoken]
    decide
  have hwritten := hitem hchosen
  rw [hlabel] at hwritten
  exact ⟨given, log, hrequested, hever, hstanding, opened, statement, entry, honce, htown,
    htouched _ htown, hchosen, hwritten, hstatement, hplaces statement hstatement⟩

end Towns

end FieldQuery
