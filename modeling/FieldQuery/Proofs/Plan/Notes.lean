import FieldQuery.Proofs.Plan.Aliases
import FieldQuery.Proofs.Plan.Segments
import FieldQuery.Proofs.Plan.WriteTargets

/-!
# Names of mapped targets

The columns of a target are qualified by a name, and the target is known by one in the statement.
The first is made of the relation's prefix for a related reference, and of the table or of a derived
table's alias for any other target; the second is made elsewhere.  They agree as long as relations
have the prefix that they are declared with by default.

Main definitions:

- `Table.Standard`: relations are declared as usual.
- `Query.Noted`: a query behind calls with such tables, and the columns behind the texts it keeps.
- `MappingScope.linksOf`: the columns that are linked when a reference is mapped.
- `Entry.Underscored`: a relation has a stem that ends with its prefix.

Main statements: `Plan.mem_mapTarget` and `Plan.links_mapTarget`.
-/

namespace FieldQuery

/-! ## Queries on declared models -/

/-- Relations are marked as such, and have the name of their field as prefix. -/
def Table.Standard (table : Table) : Prop :=
  ∀ column ∈ table.columns, ∀ relation ∈ column.relation,
    relation.joinPrefix = column.field ++ "_" ∧
      ∃ plain : Column, column = plain.withRelation relation

namespace MappingScope

/-- The link that a column becomes, if its token stands for a known one. -/
def linkFor (scope : MappingScope) (columns : ColumnMap) (column : Column) (token : Token) :
    Option Link :=
  match scope.mayLink column, columns.queryable token with
  | true, .ok existing =>
    some ⟨existing.name, ⟨scope.quotedTable, scope.dialect.quote column.name⟩⟩
  | _, _ => none

/-- The links that columns become, in turn. -/
def linksOf (scope : MappingScope) : List (Column × Token) → ColumnMap → List Link
  | [], _ => []
  | (column, token) :: rest, columns =>
    (scope.linkFor columns column token).toList ++
      scope.linksOf rest (scope.mapColumn (columns, []) column token).1

end MappingScope

/-- The links found when a reference is mapped. -/
def Plan.linksTo (plan : Plan) (target : ModelTarget) : List Link :=
  (plan.scopeOf target).linksOf (target.table.columns.zip target.tokens) plan.columns

/-- The notes behind a call on a plan. -/
def Notes.after (notes : Notes) (plan : Plan) : Call → Notes
  | .join _ (.model target) =>
    { notes with links := notes.links ++ plan.closeJoin.linksTo target }
  | .groupBy token => { notes with grouped := notes.grouped ++ [token] }
  | _ => notes

theorem Notes.mem_links_after {notes : Notes} {plan : Plan} {kind : JoinKind} {target : Target}
    {link : Link} : link ∈ (notes.after plan (.join kind target)).links ↔
      link ∈ notes.links ∨
        ∃ reference, target = .model reference ∧ link ∈ plan.closeJoin.linksTo reference := by
  cases target <;> simp [after]

mutual

/-- A query behind calls with targets on declared models, and the notes that were taken. -/
inductive Query.Noted : Query → Notes → Prop
  | start {dialect : Dialect} {catalog : Catalog} {cacheable : Bool} {lazyJoins : List JoinRule}
      {target : Target} (htarget : Target.Standard target) :
      Query.Noted (.start dialect catalog cacheable lazyJoins target) {}
  | call {query next : Query} {notes : Notes} {call : Call} (h : Query.Noted query notes)
      (htarget : ∀ target, call.target? = some target → Target.Standard target)
      (hnext : query.call? call = some next) : Query.Noted next (notes.after query.plan call)

/-- A target on a declared model; a plan as a target is one behind such calls itself. -/
inductive Target.Standard : Target → Prop
  | model {reference : ModelTarget} (h : reference.table.Standard) :
      Target.Standard (.model reference)
  | raw {reference : ModelTarget} {query : RawQuery} (h : reference.table.Standard) :
      Target.Standard (.raw reference query)
  | plan {query : Query} {notes : Notes} (h : Query.Noted query notes) :
      Target.Standard (.plan query.plan)

end

/-! ## Links -/

theorem Link.filter_eq (link : Link) :
    link.filter = .link link.near.source link.near.column link.far.source link.far.column := by
  simp [Link.filter, Link.condition, ColumnName.text, Filter.link, String.append_assoc]

namespace MappingScope

variable {scope : MappingScope}

theorem mapColumn_eq (mapped : ColumnMap × List Filter) (column : Column) (token : Token) :
    scope.mapColumn mapped column token = ((scope.mapColumn (mapped.1, []) column token).1,
      mapped.2 ++ ((scope.linkFor mapped.1 column token).map Link.filter).toList) := by
  cases hlinks : scope.mayLink column with
  | false => simp [mapColumn, linkFor, hlinks]
  | true =>
      cases hfound : mapped.1.queryable token with
      | error error => simp [mapColumn, linkFor, hlinks, hfound]
      | ok existing =>
          simp only [mapColumn, linkFor, hlinks, hfound, List.nil_append, Option.map_some,
            Option.toList_some, Link.filter_eq]
          rfl

/-- The conditions found when columns are mapped are those of the links. -/
theorem links_eq (pairs : List (Column × Token)) (mapped : ColumnMap × List Filter) :
    (scope.mapColumns pairs mapped).2 =
      mapped.2 ++ (scope.linksOf pairs mapped.1).map Link.filter := by
  induction pairs generalizing mapped with
  | nil => simp [mapColumns, linksOf]
  | cons first rest ih =>
      rcases first with ⟨column, token⟩
      have hlink : ((scope.linkFor mapped.1 column token).map Link.filter).toList =
          (scope.linkFor mapped.1 column token).toList.map Link.filter := by
        cases scope.linkFor mapped.1 column token <;> rfl
      rw [mapColumns, mapColumn_eq, ih, linksOf, List.map_append, hlink, List.append_assoc]

theorem linkFor_eq_some {columns : ColumnMap} {column : Column} {token : Token} {link : Link}
    (h : scope.linkFor columns column token = some link) :
    scope.isRelated = true ∧ link.far.source = scope.quotedTable ∧
      ∃ entry, columns.queryable token = .ok entry ∧ link.near.source = entry.quotedTable := by
  unfold linkFor at h
  split at h
  · rename_i existing hlinks hfound
    cases h
    have hrelated : scope.isRelated = true := (Bool.and_eq_true_iff.1 hlinks).1
    exact ⟨hrelated, rfl, existing, hfound, rfl⟩
  · cases h

/-- Each link is of a known column, and of a column of a related reference. -/
theorem mem_linksOf {pairs : List (Column × Token)} {mapped : ColumnMap × List Filter} {link : Link}
    (h : link ∈ scope.linksOf pairs mapped.1) :
    scope.isRelated = true ∧ link.far.source = scope.quotedTable ∧
      ∃ entry ∈ (scope.mapColumns pairs mapped).1.entries,
        link.near.source = entry.quotedTable := by
  induction pairs generalizing mapped with
  | nil => cases h
  | cons first rest ih =>
      rcases first with ⟨column, token⟩
      rcases List.mem_append.1 h with hfirst | hrest
      · rcases linkFor_eq_some (Option.mem_toList.1 hfirst) with
          ⟨hrelated, hfar, entry, hfound, hnear⟩
        -- what the token stood for it still stands for when all columns are mapped
        have hextends := extends_mapColumns scope ((column, token) :: rest) mapped
        rcases hextends.queryable hfound with ⟨later, hlater, hfixed⟩
        have hmem := List.mem_of_find?_eq_some (ColumnMap.queryable_eq_ok.1 hlater).1
        have hname : later.quotedTable = entry.quotedTable := (congrArg Entry.quotedTable hfixed :)
        exact ⟨hrelated, hfar, later, hmem, hnear.trans hname.symm⟩
      · have hmapped := @ih (scope.mapColumn mapped column token)
        rw [mapColumn_eq] at hmapped
        rw [mapColumns, mapColumn_eq]
        exact hmapped hrest

end MappingScope

/-! ## Names of sources -/

/-- What a mapped target is known by in the conditions of a statement. -/
def MappedTarget.name (mapped : MappedTarget) : String :=
  mapped.correlation.getD mapped.source.name

/-- A primary target's source is known by the name that it brings along. -/
theorem Target.StandsAs.name_eq {dialect : Dialect} {target : Target} {source : Source}
    {name : String} (h : target.StandsAs dialect source name) : source.name = name := by
  cases h <;> rfl

theorem Target.StandsAs.quoted {dialect : Dialect} {reference : ModelTarget} {source : Source}
    {name : String} (h : (Target.model reference).StandsAs dialect source name) :
    name = dialect.quotedTable reference.table.schema reference.table.name := by
  cases h
  rfl

/-- The stem of a relation ends with the underscore of its prefix. -/
def Entry.Underscored (entry : Entry) : Prop :=
  entry.column.relation.isSome → ∃ front, entry.stem = front ++ "_"

theorem Entry.Underscored.of_fixed {entry known : Entry} (h : known.Underscored)
    (hfixed : entry.fixed = known.fixed) : entry.Underscored := by
  have hcolumn : entry.column = known.column := (congrArg Entry.column hfixed :)
  have hstem : entry.stem = known.stem := (congrArg Entry.stem hfixed :)
  intro hrelation
  rw [hcolumn] at hrelation
  rw [hstem]
  exact h hrelation

def ColumnMap.Underscored (columns : ColumnMap) : Prop :=
  ∀ entry ∈ columns.entries, entry.Underscored

theorem Table.Standard.underscored_entry {table : Table} (h : table.Standard)
    (scope : MappingScope) {column : Column} (hcolumn : column ∈ table.columns) (token : Token) :
    (scope.entry column token).Underscored := by
  intro hsome
  rcases Option.isSome_iff_exists.1 hsome with ⟨relation, hrelation⟩
  have hdeclared : column.relation = some relation := hrelation
  have hprefix := (h column hcolumn relation hdeclared).1
  refine ⟨scope.stem ++ column.field, ?_⟩
  rw [String.append_assoc, ← hprefix]
  simp [MappingScope.entry, hdeclared]

theorem Table.Standard.relation_eq_none {table : Table} (h : table.Standard) {column : Column}
    (hcolumn : column ∈ table.columns) (hstored : column.transient = false) :
    column.relation = none := by
  refine Option.eq_none_iff_forall_ne_some.2 fun relation hrelation => ?_
  rcases (h column hcolumn relation hrelation).2 with ⟨plain, rfl⟩
  cases hstored

namespace Plan

variable {plan next : Plan}

/-- What leads to a reference is a relation that is mapped. -/
theorem relation_of_parentOf {target : ModelTarget} {parent : Entry}
    (h : plan.parentOf target = some parent) :
    parent ∈ plan.columns.entries ∧ parent.column.relation.isSome := by
  rcases Option.bind_eq_some_iff.1 h with ⟨token, -, hfound⟩
  have hmatch : parent.token = token ∧ parent.column.relation.isSome = true := by
    simpa using List.find?_some hfound
  exact ⟨List.mem_of_find?_eq_some hfound, hmatch.2⟩

/-- A relation that leads to a reference gives it an alias. -/
theorem isRelated_scopeOf (h : plan.columns.Underscored) {target : ModelTarget} {parent : Entry}
    (hparent : plan.parentOf target = some parent) :
    (plan.scopeOf target).isRelated = true := by
  rcases relation_of_parentOf hparent with ⟨hmem, hrelation⟩
  rcases h parent hmem hrelation with ⟨front, hstem⟩
  have hscope : (plan.scopeOf target).stem = front ++ "_" := by
    rw [← hstem]
    simp [scopeOf, hparent]
  have hdetached := append_underscore_ne_detachedStem front
  simp [MappingScope.isRelated, hscope, hdetached]

/-- A mapped reference is known by the name that its columns are qualified by, if the relation that
leads to it gives it an alias. -/
theorem name_mapModel_of_related {target : ModelTarget} {mapped : MappedTarget}
    (hrelated : ∀ parent, plan.parentOf target = some parent →
      (plan.scopeOf target).isRelated = true)
    (hmap : plan.mapModel target = (next, .ok mapped)) (herrors : next.errors = []) :
    mapped.name = (plan.scopeOf target).quotedTable := by
  have htarget : plan.mapTarget (.model target) = (next, .ok mapped) := hmap
  have hstands := standsAs_mapTarget htarget herrors
  have hcorrelation := (mapModel_eq hmap).2.2
  have hsource : mapped.source.name =
      plan.dialect.quotedTable target.table.schema target.table.name :=
    hstands.name_eq.trans hstands.quoted
  cases hparent : plan.parentOf target with
  | some parent =>
      rw [hparent] at hcorrelation
      rw [MappedTarget.name, hcorrelation, MappingScope.quotedTable, if_pos (hrelated _ hparent)]
      simp [scopeOf, hparent]
  | none =>
      have hplain : (plan.scopeOf target).isRelated = false := by
        simp only [MappingScope.isRelated, scopeOf, hparent]
        cases plan.isBare <;> decide
      rw [hparent] at hcorrelation
      rw [MappedTarget.name, hcorrelation, MappingScope.quotedTable, hplain]
      exact hsource

theorem name_mapModel (h : plan.columns.Underscored) {target : ModelTarget}
    {mapped : MappedTarget} (hmap : plan.mapModel target = (next, .ok mapped))
    (herrors : next.errors = []) : mapped.name = (plan.scopeOf target).quotedTable :=
  name_mapModel_of_related (fun _ hparent => isRelated_scopeOf h hparent) hmap herrors

/-- A link compares a known column with one of the reference. -/
theorem linksTo_mapModel (h : plan.columns.Underscored) {target : ModelTarget}
    {mapped : MappedTarget} (hmap : plan.mapModel target = (next, .ok mapped))
    (herrors : next.errors = []) {link : Link} (hlink : link ∈ plan.linksTo target) :
    link.far.source = mapped.name ∧
      ∃ entry ∈ next.columns.entries, link.near.source = entry.quotedTable := by
  rcases @MappingScope.mem_linksOf _ _ (plan.columns, []) link hlink with ⟨-, hfar, hnear⟩
  -- the far end is a column of the reference itself
  refine ⟨hfar.trans (name_mapModel h hmap herrors).symm, ?_⟩
  rw [(mapModel_eq hmap).1]
  exact hnear

theorem name_mapPlan (plan sub : Plan) :
    (plan.mapPlan sub).2.name = sub.quotedTable ∧
      (plan.mapPlan sub).2.quotedTable = sub.quotedTable := by
  rcases mapPlan_result plan sub with ⟨errors, touched, query, heq, -⟩
  rw [heq]
  exact ⟨rfl, rfl⟩

theorem name_mapRaw {target : ModelTarget} {query : RawQuery} {mapped : MappedTarget}
    (hmap : plan.mapRaw target query = (next, .ok mapped)) :
    mapped.name = plan.dialect.quote (query.correlation.getD target.table.name) ∧
      mapped.quotedTable = mapped.name := by
  rcases mapRaw_result hmap with ⟨-, rfl⟩
  exact ⟨rfl, rfl⟩

/-- Mapping a target replaces the links, and groups by nothing. -/
theorem links_mapTarget {target : Target} {mapped : MappedTarget}
    (hmap : plan.mapTarget target = (next, .ok mapped)) :
    next.grouping = plan.grouping ∧ ∀ filter ∈ next.links, ∃ reference, target = .model reference ∧
      ∃ link ∈ plan.linksTo reference, filter = link.filter := by
  cases target with
  | model reference =>
      rcases mapModel_result hmap with ⟨⟨touched, rfl⟩, -⟩
      refine ⟨rfl, fun filter hfilter => ⟨reference, rfl, ?_⟩⟩
      have hlinked : filter ∈ (plan.linksTo reference).map Link.filter := by
        simpa [mappedColumns, MappingScope.links_eq, linksTo] using hfilter
      rcases List.mem_map.1 hlinked with ⟨link, hlink, heq⟩
      exact ⟨link, hlink, heq.symm⟩
  | plan sub =>
      have hnext : (plan.mapPlan sub).1 = next := congrArg Prod.fst hmap
      rcases mapPlan_result plan sub with ⟨errors, touched, query, heq, -⟩
      rw [← hnext, heq]
      exact ⟨rfl, fun _ hfilter => by cases hfilter⟩
  | raw reference query =>
      rcases mapRaw_result hmap with ⟨⟨touched, rfl⟩, -⟩
      exact ⟨rfl, fun _ hfilter => by cases hfilter⟩

/-- What a target brings in stands behind the name that the target is known by, and is as declared.
A plan must have brought it in like that itself. -/
theorem mem_mapTarget {target : Target} {mapped : MappedTarget} (h : plan.columns.Underscored)
    (htarget : target.Standard)
    (hsub : ∀ sub, target = .plan sub → sub.columns.Underscored)
    (hmap : plan.mapTarget target = (next, .ok mapped)) (herrors : next.errors = [])
    {entry : Entry} (hentry : entry ∈ next.columns.entries) :
    (∃ known ∈ plan.columns.entries, entry.fixed = known.fixed) ∨
      entry.quotedTable = mapped.name ∧ entry.Underscored := by
  cases htarget with
  | @model reference hstandard =>
      rw [(mapModel_eq hmap).1] at hentry
      rcases MappingScope.fixed_mapColumns hentry with hold | ⟨⟨column, token⟩, hpair, hfixed⟩
      · exact .inl hold
      · have htable : entry.quotedTable = (plan.scopeOf reference).quotedTable :=
          (congrArg Entry.quotedTable hfixed :)
        have hcolumn : column ∈ reference.table.columns := (List.of_mem_zip hpair).1
        have hunderscored := hstandard.underscored_entry (plan.scopeOf reference) hcolumn token
        exact .inr ⟨htable.trans (name_mapModel h hmap herrors).symm, hunderscored.of_fixed hfixed⟩
  | @raw reference query hstandard =>
      have hraw : plan.mapRaw reference query = (next, .ok mapped) := hmap
      rcases mem_mapRaw hraw hentry with hold | ⟨⟨column, token⟩, hpair, hstored, rfl⟩
      · exact .inl ⟨entry, hold, rfl⟩
      · refine .inr ⟨(name_mapRaw hraw).1.symm, fun hsome => ?_⟩
        -- a relation is not stored, so no query returns it
        have hplain := hstandard.relation_eq_none (List.of_mem_zip hpair).1 hstored
        have hrelation : column.relation.isSome := hsome
        rw [hplain] at hrelation
        cases hrelation
  | @plan query notes hnoted =>
      have hnext : (plan.mapPlan query.plan).1 = next := congrArg Prod.fst hmap
      have hmapped : (plan.mapPlan query.plan).2 = mapped :=
        Except.ok.inj (congrArg Prod.snd hmap)
      rw [← hnext, columns_mapPlan] at hentry
      rcases ColumnMap.mem_pushAll hentry with hold | himported
      · exact .inl ⟨entry, hold, rfl⟩
      · rcases List.mem_map.1 himported with ⟨inner, hinner, rfl⟩
        rw [← hmapped, (name_mapPlan plan query.plan).1]
        exact .inr ⟨rfl, hsub query.plan rfl inner hinner⟩

/-! ## Calls without target -/

/-- No link is added, and nothing is grouped by anew. -/
structure Keeps (plan next : Plan) : Prop where
  links : next.links ⊆ plan.links
  grouping : next.grouping = plan.grouping

theorem Keeps.of_eq (hlinks : next.links = plan.links) (hgrouping : next.grouping = plan.grouping) :
    Keeps plan next :=
  ⟨hlinks ▸ List.Subset.refl _, hgrouping⟩

theorem Keeps.trans {last : Plan} (h : Keeps plan next) (h' : Keeps next last) :
    Keeps plan last :=
  ⟨List.Subset.trans h'.links h.links, h'.grouping.trans h.grouping⟩

theorem keeps_addOn (plan : Plan) (filters : List Filter) : Keeps plan (plan.addOn filters) := by
  unfold addOn
  split <;> exact .of_eq rfl rfl

theorem keeps_addReferences (plan : Plan) : Keeps plan plan.addReferences := by
  unfold addReferences
  split
  · exact .of_eq rfl rfl
  · have hcleared : Keeps plan { plan with links := [] } := ⟨List.nil_subset _, rfl⟩
    exact hcleared.trans (keeps_addOn _ _)

theorem keeps_addFilters (filters : List Filter) (plan : Plan) :
    Keeps plan (filters.foldl addFilter plan) := by
  induction filters generalizing plan with
  | nil => exact .of_eq rfl rfl
  | cons first rest ih =>
      have hone : Keeps plan (plan.addFilter first) := by
        unfold addFilter
        split <;> exact .of_eq rfl rfl
      exact hone.trans (ih (plan.addFilter first))

theorem keeps_addField (plan : Plan) (token : Token) : Keeps plan (plan.addField token) := by
  unfold addField
  split
  · exact .of_eq rfl rfl
  · split
    · unfold openLazyJoin
      dsimp only
      rw [touch_eq]
      exact .of_eq rfl rfl
    · split <;> exact .of_eq rfl rfl

theorem keeps_addFields (tokens : List Token) (plan : Plan) :
    Keeps plan (tokens.foldl addField plan) := by
  induction tokens generalizing plan with
  | nil => exact .of_eq rfl rfl
  | cons first rest ih => exact (keeps_addField plan first).trans (ih (plan.addField first))

/-- Only a target brings links, and only grouping adds to what is grouped by. -/
theorem keeps_apply {call : Call} (htarget : call.target? = none)
    (hgroup : ∀ token, call ≠ .groupBy token) : Keeps plan (plan.apply call) := by
  cases call with
  | join kind target => cases htarget
  | groupBy token => exact absurd rfl (hgroup token)
  | on filters => exact keeps_addOn plan filters
  | references => exact keeps_addReferences plan
  | filter filters => exact keeps_addFilters filters plan
  | assign token value =>
      show Keeps plan (plan.assign token value)
      unfold assign
      split <;> exact .of_eq rfl rfl
  | orderBy operand direction =>
      show Keeps plan (plan.orderBy operand direction)
      unfold orderBy
      split
      · exact .of_eq rfl rfl
      · split <;> exact .of_eq rfl rfl
  | fields tokens =>
      have hcleared : Keeps plan plan.unwanted := .of_eq rfl rfl
      exact hcleared.trans (keeps_addFields tokens _)
  | addField token => exact keeps_addField plan token
  | startWhere => exact .of_eq rfl rfl
  | discardOrder => exact .of_eq rfl rfl
  | limit count => exact .of_eq rfl rfl
  | offset count => exact .of_eq rfl rfl
  | withoutCache => exact .of_eq rfl rfl

theorem groupBy_eq {token : Token} (herrors : (plan.groupBy token).errors = []) :
    ∃ entry, plan.columns.queryable token = .ok entry ∧
      plan.groupBy token = { plan with grouping := plan.grouping ++ [entry.qualified] } := by
  unfold groupBy ColumnMap.qualifiedColumn at herrors ⊢
  cases hfound : plan.columns.queryable token with
  | error error =>
      rw [hfound] at herrors
      exact absurd herrors (errors_fail _ _)
  | ok entry => exact ⟨entry, rfl, rfl⟩

end Plan

end FieldQuery
