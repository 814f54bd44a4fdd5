import FieldQuery.Proofs.Plan.Continuation
import FieldQuery.Proofs.Reference.Forest

/-!
# What mapping a reference enters

The columns of a reference are entered one after the other.  A token that is known already keeps
what it stands for: its column is left out, and where the target hangs off a relation and the column
is linked, it becomes a condition on the column that the token stands for.

Main definitions:

- `Reference.target`: a reference as a target; `ModelTarget.columnOf?`: the column of a token.
- `Plan.scopeOf`: what a reference's columns are mapped under.
- `MappingScope.linkTo`: the condition that a linked column becomes.

Main statements: `MappingScope.find?_mapColumns`, `MappingScope.links_mapColumns` and
`MappingScope.mem_links_mapColumns`.
-/

namespace FieldQuery

/-- A reference as a target. -/
def Reference.target (catalog : Catalog) (reference : Reference) : ModelTarget :=
  ⟨catalog.table reference.table, some reference.own, reference.columnTokens⟩

/-- The first column that has a token. -/
def ModelTarget.columnOf? (target : ModelTarget) (token : Token) : Option Column :=
  ((target.table.columns.zip target.tokens).find? (·.2 == token)).map (·.1)

theorem ModelTarget.columnOf?_eq_some {target : ModelTarget} {token : Token} {column : Column} :
    target.columnOf? token = some column ↔
      (target.table.columns.zip target.tokens).find? (·.2 == token) = some (column, token) := by
  unfold columnOf?
  rw [Option.map_eq_some_iff]
  constructor
  · rintro ⟨⟨found, other⟩, hfound, rfl⟩
    have hsame : other = token := by simpa using List.find?_some hfound
    rw [hfound, hsame]
  · intro hfound
    exact ⟨_, hfound, rfl⟩

theorem ModelTarget.mem_of_columnOf? {target : ModelTarget} {token : Token} {column : Column}
    (h : target.columnOf? token = some column) :
    ∃ place : Nat, target.table.columns[place]? = some column ∧
      target.tokens[place]? = some token := by
  have hmem := List.mem_of_find?_eq_some (columnOf?_eq_some.1 h)
  rcases List.getElem?_of_mem hmem with ⟨place, hplace⟩
  exact ⟨place, List.getElem?_zip_eq_some.1 hplace⟩

theorem ModelTarget.mem_zip {target : ModelTarget} {place : Nat} {column : Column} {token : Token}
    (hcolumn : target.table.columns[place]? = some column)
    (htoken : target.tokens[place]? = some token) :
    (column, token) ∈ target.table.columns.zip target.tokens :=
  List.mem_of_getElem? (List.getElem?_zip_eq_some.2 ⟨hcolumn, htoken⟩)

theorem ModelTarget.exists_columnOf? {target : ModelTarget} {column : Column} {token : Token}
    (h : (column, token) ∈ target.table.columns.zip target.tokens) :
    ∃ first, target.columnOf? token = some first := by
  unfold columnOf?
  cases hfound : (target.table.columns.zip target.tokens).find? (·.2 == token) with
  | some pair => exact ⟨pair.1, rfl⟩
  | none =>
      have hother := List.find?_eq_none.1 hfound (column, token) h
      simp at hother

namespace MappingScope

variable {scope : MappingScope} {mapped : ColumnMap × List Filter} {column : Column} {token : Token}
  {columns : List (Column × Token)} {entry : Entry}

/-- The condition that a linked column becomes, if its token stands for the column of an entry. -/
def linkTo (scope : MappingScope) (entry : Entry) (column : Column) : Filter :=
  .link entry.quotedTable entry.quotedColumn scope.quotedTable (scope.dialect.quote column.name)

theorem linkTo_fixed {other : Entry} (h : other.fixed = entry.fixed) (column : Column) :
    scope.linkTo other column = scope.linkTo entry column := by
  have htable : other.quotedTable = entry.quotedTable := (congrArg Entry.quotedTable h :)
  have hcolumn : other.quotedColumn = entry.quotedColumn := (congrArg Entry.quotedColumn h :)
  rw [linkTo, htable, hcolumn, linkTo]

/-! ## One column -/

theorem mapColumn_linked (hlinks : scope.mayLink column = true)
    (hfound : mapped.1.queryable token = .ok entry) :
    scope.mapColumn mapped column token =
      (mapped.1.modify token (·.addCopy (scope.basePath ++ [.plain column.field])),
        mapped.2 ++ [scope.linkTo entry column]) := by
  unfold mapColumn
  simp only [hlinks, hfound]
  rfl

theorem mapColumn_entered
    (h : scope.mayLink column = false ∨ ∀ entry, mapped.1.queryable token ≠ .ok entry) :
    scope.mapColumn mapped column token =
      (mapped.1.push (scope.entry column token), mapped.2) := by
  unfold mapColumn
  dsimp only
  split
  · rename_i existing hlinks hfound
    rcases h with hnot | hnone
    · rw [hlinks] at hnot
      cases hnot
    · exact absurd hfound (hnone existing)
  · rfl

/-- A column is linked or entered. -/
theorem mapColumn_cases (scope : MappingScope) (mapped : ColumnMap × List Filter) (column : Column)
    (token : Token) :
    (∃ entry, scope.mayLink column = true ∧ mapped.1.queryable token = .ok entry ∧
      scope.mapColumn mapped column token =
        (mapped.1.modify token (·.addCopy (scope.basePath ++ [.plain column.field])),
          mapped.2 ++ [scope.linkTo entry column])) ∨
    scope.mapColumn mapped column token = (mapped.1.push (scope.entry column token), mapped.2) := by
  cases hlinks : scope.mayLink column with
  | false => exact .inr (mapColumn_entered (.inl hlinks))
  | true =>
      cases hfound : mapped.1.queryable token with
      | ok entry => exact .inl ⟨entry, rfl, rfl, mapColumn_linked hlinks hfound⟩
      | error error =>
          refine .inr (mapColumn_entered (.inr fun entry hok => ?_))
          rw [hfound] at hok
          cases hok

theorem contains_mapColumn (scope : MappingScope) (mapped : ColumnMap × List Filter)
    (column : Column) (token : Token) :
    (scope.mapColumn mapped column token).1.contains token = true := by
  rcases mapColumn_cases scope mapped column token with ⟨entry, -, hfound, heq⟩ | heq
  · -- only a known token can be linked
    have hknown : mapped.1.contains token = true :=
      ColumnMap.contains_of_find? (ColumnMap.queryable_eq_ok.1 hfound).1
    exact (extends_mapColumn scope mapped column token).contains hknown
  · rw [heq]
    exact ColumnMap.contains_push mapped.1 (scope.entry column token)

/-- An entry was known, or a column of the target was entered for a new token. -/
theorem mem_mapColumn {later : Entry}
    (h : later ∈ (scope.mapColumn mapped column token).1.entries) :
    (∃ entry ∈ mapped.1.entries, later.withoutCopies = entry.withoutCopies) ∨
      later = scope.entry column token ∧ mapped.1.contains token = false := by
  rcases mapColumn_cases scope mapped column token with ⟨found, -, -, heq⟩ | heq
  · rw [heq] at h
    rcases List.mem_map.1 h with ⟨entry, hentry, rfl⟩
    refine .inl ⟨entry, hentry, ?_⟩
    split
    · exact entry.withoutCopies_addCopy _
    · rfl
  · rw [heq] at h
    cases hknown : mapped.1.contains token with
    | true =>
        have hkept : mapped.1.push (scope.entry column token) = mapped.1 :=
          ColumnMap.push_known hknown
        rw [hkept] at h
        exact .inl ⟨later, h, rfl⟩
    | false =>
        have hadded : mapped.1.push (scope.entry column token) =
            ⟨mapped.1.entries ++ [scope.entry column token]⟩ := ColumnMap.push_new hknown
        rw [hadded] at h
        rcases List.mem_append.1 h with hold | hnew
        · exact .inl ⟨later, hold, rfl⟩
        · exact .inr ⟨List.mem_singleton.1 hnew, rfl⟩

/-- What an entry is of: it was known, or a column of the target was entered. -/
theorem fixed_mapColumn {later : Entry}
    (h : later ∈ (scope.mapColumn mapped column token).1.entries) :
    (∃ entry ∈ mapped.1.entries, later.fixed = entry.fixed) ∨
      later.fixed = (scope.entry column token).fixed := by
  rcases mem_mapColumn h with ⟨entry, hentry, hsame⟩ | ⟨hnew, -⟩
  · exact .inl ⟨entry, hentry, Entry.fixed_of_withoutCopies hsame⟩
  · exact .inr (congrArg Entry.fixed hnew)

/-! ## All columns -/

theorem contains_mapColumns (hmem : (column, token) ∈ columns) :
    (scope.mapColumns columns mapped).1.contains token = true := by
  induction columns generalizing mapped with
  | nil => cases hmem
  | cons first rest ih =>
      rcases List.mem_cons.1 hmem with rfl | hmem
      · have hentered := contains_mapColumn scope mapped column token
        exact (extends_mapColumns scope rest _).contains hentered
      · exact ih hmem

theorem mem_mapColumns {later : Entry}
    (h : later ∈ (scope.mapColumns columns mapped).1.entries) :
    (∃ entry ∈ mapped.1.entries, later.withoutCopies = entry.withoutCopies) ∨
      mapped.1.contains later.token = false ∧
        ∃ pair ∈ columns, later.withoutCopies = (scope.entry pair.1 pair.2).withoutCopies := by
  induction columns generalizing mapped with
  | nil => exact .inl ⟨later, h, rfl⟩
  | cons first rest ih =>
      have hgrown := extends_mapColumn scope mapped first.1 first.2
      rcases ih h with ⟨entry, hentry, hsame⟩ | ⟨hnew, pair, hpair, hsame⟩
      · rcases mem_mapColumn hentry with ⟨known, hknown, hcopies⟩ | ⟨rfl, hnew⟩
        · exact .inl ⟨known, hknown, hsame.trans hcopies⟩
        · have htoken : later.token = first.2 := (congrArg Entry.token hsame :)
          exact .inr ⟨htoken ▸ hnew, first, List.mem_cons_self, hsame⟩
      · exact .inr ⟨hgrown.unknown hnew, pair, List.mem_cons_of_mem first hpair, hsame⟩

theorem fixed_mapColumns {later : Entry}
    (h : later ∈ (scope.mapColumns columns mapped).1.entries) :
    (∃ entry ∈ mapped.1.entries, later.fixed = entry.fixed) ∨
      ∃ pair ∈ columns, later.fixed = (scope.entry pair.1 pair.2).fixed := by
  rcases mem_mapColumns h with ⟨entry, hentry, hsame⟩ | ⟨-, pair, hpair, hsame⟩
  · exact .inl ⟨entry, hentry, Entry.fixed_of_withoutCopies hsame⟩
  · exact .inr ⟨pair, hpair, Entry.fixed_of_withoutCopies hsame⟩

/-- A token that is new stands for the first column that has it. -/
theorem find?_mapColumns (mapped : ColumnMap × List Filter)
    (hnew : mapped.1.contains token = false)
    (hfirst : columns.find? (·.2 == token) = some (column, token)) :
    ∃ entry, (scope.mapColumns columns mapped).1.find? token = some entry ∧
      entry.fixed = (scope.entry column token).fixed := by
  induction columns generalizing mapped with
  | nil => cases hfirst
  | cons first rest ih =>
      have hunknown : ∀ entry, mapped.1.queryable token ≠ .ok entry := by
        intro entry hfound
        have hknown : mapped.1.contains token = true :=
          ColumnMap.contains_of_find? (ColumnMap.queryable_eq_ok.1 hfound).1
        rw [hnew] at hknown
        cases hknown
      by_cases htoken : first.2 = token
      · have hpair : first = (column, token) := by simpa [htoken] using hfirst
        subst hpair
        have hentered : scope.mapColumn mapped column token =
            (mapped.1.push (scope.entry column token), mapped.2) :=
          mapColumn_entered (.inr hunknown)
        have hadded : mapped.1.push (scope.entry column token) =
            ⟨mapped.1.entries ++ [scope.entry column token]⟩ := ColumnMap.push_new hnew
        have hpushed : (scope.mapColumn mapped column token).1.find? token =
            some (scope.entry column token) := by
          have habsent : mapped.1.entries.find? (·.token == token) = none := by
            simpa [ColumnMap.contains] using hnew
          rw [hentered, hadded]
          simp [ColumnMap.find?, habsent, MappingScope.entry]
        exact (extends_mapColumns scope rest _).find? hpushed
      · have hrest : rest.find? (·.2 == token) = some (column, token) := by
          simpa [htoken] using hfirst
        refine ih _ ?_ hrest
        -- another token's column does not make this one known
        cases hlater : (scope.mapColumn mapped first.1 first.2).1.contains token with
        | false => rfl
        | true =>
            rcases ColumnMap.contains_iff.1 hlater with ⟨later, hmem, heq⟩
            rcases fixed_mapColumn hmem with ⟨entry, hentry, hfixed⟩ | hfixed
            · have hsame : entry.token = later.token := (congrArg Entry.token hfixed.symm :)
              have hknown : mapped.1.contains token = true :=
                ColumnMap.contains_iff.2 ⟨entry, hentry, hsame.trans heq⟩
              rw [hnew] at hknown
              cases hknown
            · have hsame : later.token = first.2 := (congrArg Entry.token hfixed :)
              exact absurd (hsame.symm.trans heq) htoken

theorem links_kept {link : Filter} (columns : List (Column × Token)) (h : link ∈ mapped.2) :
    link ∈ (scope.mapColumns columns mapped).2 := by
  induction columns generalizing mapped with
  | nil => exact h
  | cons first rest ih =>
      refine ih ?_
      rcases mapColumn_cases scope mapped first.1 first.2 with ⟨found, -, -, heq⟩ | heq
      · rw [heq]
        exact List.mem_append_left _ h
      · rw [heq]
        exact h

/-- A linked column whose token is known becomes a condition. -/
theorem links_mapColumns (mapped : ColumnMap × List Filter) (hmem : (column, token) ∈ columns)
    (hlinks : scope.mayLink column = true) (hfound : mapped.1.queryable token = .ok entry) :
    scope.linkTo entry column ∈ (scope.mapColumns columns mapped).2 := by
  induction columns generalizing mapped entry with
  | nil => cases hmem
  | cons first rest ih =>
      rcases List.mem_cons.1 hmem with rfl | hmem
      · have hlink : scope.linkTo entry column ∈ (scope.mapColumn mapped column token).2 := by
          rw [mapColumn_linked hlinks hfound]
          exact List.mem_append_right _ List.mem_cons_self
        exact links_kept rest hlink
      · rcases (extends_mapColumn scope mapped first.1 first.2).queryable hfound with
          ⟨later, hlater, hfixed⟩
        rw [← linkTo_fixed hfixed column]
        exact ih _ hmem hlater

/-- Each condition comes from a column that may be linked, and names what the token stands for. -/
theorem mem_links_mapColumns {link : Filter}
    (h : link ∈ (scope.mapColumns columns mapped).2) :
    link ∈ mapped.2 ∨ ∃ pair ∈ columns, ∃ entry, scope.mayLink pair.1 = true ∧
      (scope.mapColumns columns mapped).1.queryable pair.2 = .ok entry ∧
      link = scope.linkTo entry pair.1 := by
  induction columns generalizing mapped with
  | nil => exact .inl h
  | cons first rest ih =>
      rcases ih h with hlink | ⟨pair, hpair, entry, hrest⟩
      · rcases mapColumn_cases scope mapped first.1 first.2 with
          ⟨found, hlinks, hfound, heq⟩ | heq
        · rw [heq] at hlink
          rcases List.mem_append.1 hlink with hold | hnew
          · exact .inl hold
          · rcases (extends_mapColumns scope (first :: rest) mapped).queryable hfound with
              ⟨later, hlater, hfixed⟩
            refine .inr ⟨first, List.mem_cons_self, later, hlinks, hlater, ?_⟩
            rw [linkTo_fixed hfixed, List.mem_singleton.1 hnew]
        · rw [heq] at hlink
          exact .inl hlink
      · exact .inr ⟨pair, List.mem_cons_of_mem first hpair, entry, hrest⟩

end MappingScope

namespace Plan

variable {plan next : Plan} {target : ModelTarget}

/-- The relation that leads to a reference, if it is mapped. -/
def parentOf (plan : Plan) (target : ModelTarget) : Option Entry :=
  target.own.bind plan.columns.relation?

/-- What a reference's columns are mapped under. -/
def scopeOf (plan : Plan) (target : ModelTarget) : MappingScope where
  dialect := plan.dialect
  catalog := plan.catalog
  table := target.table
  stem :=
    match plan.parentOf target with
    | some parent => parent.stem
    | none => if plan.isBare then "" else detachedStem
  parent := plan.parentOf target
  lazyJoins := plan.lazyJoins

/-- The columns of a reference, as they are entered. -/
def mappedColumns (plan : Plan) (target : ModelTarget) : ColumnMap × List Filter :=
  (plan.scopeOf target).mapColumns (target.table.columns.zip target.tokens) (plan.columns, [])

/-- A mapped reference: besides its columns and links only a touched table comes in. -/
theorem mapModel_result {mapped : MappedTarget} (h : plan.mapModel target = (next, .ok mapped)) :
    (∃ touched, next = { plan with
      columns := (plan.mappedColumns target).1, links := (plan.mappedColumns target).2
      touched := touched }) ∧
      mapped = ⟨target.table, plan.dialect.quotedTable target.table.schema target.table.name,
        .named (plan.dialect.quotedTable target.table.schema target.table.name),
        (plan.parentOf target).map fun parent => plan.dialect.quote (trimStem parent.stem)⟩ := by
  unfold mapModel at h
  dsimp only at h
  rw [touch_eq] at h
  split at h
  · cases h
  · split at h
    · cases h
      refine ⟨⟨_, rfl⟩, ?_⟩
      unfold parentOf
      cases target.own.bind plan.columns.relation? with
      | some parent => rfl
      | none => rfl
    · cases h

theorem mapModel_eq {mapped : MappedTarget} (h : plan.mapModel target = (next, .ok mapped)) :
    next.columns = (plan.mappedColumns target).1 ∧ next.links = (plan.mappedColumns target).2 ∧
      mapped.correlation = (plan.parentOf target).map fun parent =>
        plan.dialect.quote (trimStem parent.stem) := by
  rcases mapModel_result h with ⟨⟨touched, rfl⟩, rfl⟩
  exact ⟨rfl, rfl, rfl⟩

/-- The fields of a primary reference. -/
theorem columns_mapRoot (h : (plan.mapRoot (.model target)).errors = []) :
    (plan.mapRoot (.model target)).columns = (plan.mappedColumns target).1 := by
  rcases mapTarget_of_mapRoot h with ⟨behind, mapped, hmap, -⟩
  have hroot := congrArg Plan.columns (mapRoot_of_ok hmap)
  exact hroot.trans (mapModel_eq hmap).1

/-- A mapped plan: besides its fields only errors and touched tables come in. -/
theorem mapPlan_result (plan sub : Plan) : ∃ errors touched query,
    plan.mapPlan sub = ({ plan with
      errors := errors, touched := touched, links := []
      columns := (sub.columns.entries.map
        (importEntry plan.dialect sub.quotedTable plan.isBare)).foldl .push plan.columns },
      ⟨sub.tableOrModel, sub.quotedTable, .derived query sub.quotedTable, none⟩) ∧
      ∀ statement, sub.selectStatement = .ok statement → query = statement := by
  unfold mapPlan
  dsimp only
  rw [foldl_touch_eq]
  cases sub.selectStatement with
  | ok query => exact ⟨_, _, query, rfl, fun statement h => Except.ok.inj h⟩
  | error error => exact ⟨_, _, _, rfl, fun statement h => by cases h⟩

/-- The fields that another plan brings in. -/
theorem columns_mapPlan (plan sub : Plan) :
    (plan.mapPlan sub).1.columns =
      (sub.columns.entries.map (importEntry plan.dialect sub.quotedTable plan.isBare)).foldl .push
        plan.columns := by
  rcases mapPlan_result plan sub with ⟨errors, touched, query, heq, -⟩
  rw [heq]

/-- The entries of the columns that a query written by hand returns. -/
def rawEntries (plan : Plan) (target : ModelTarget) (query : RawQuery) : List Entry :=
  ((target.table.columns.zip target.tokens).filter fun (column, _) =>
      !column.transient && query.columns.contains column.name).map fun (column, token) =>
    rawEntry plan.dialect target.table
      (plan.dialect.quote (query.correlation.getD target.table.name)) plan.isBare column token

theorem mem_rawEntries {query : RawQuery} {entry : Entry} :
    entry ∈ plan.rawEntries target query ↔
      ∃ pair ∈ target.table.columns.zip target.tokens, pair.1.transient = false ∧
        pair.1.name ∈ query.columns ∧
        entry = rawEntry plan.dialect target.table
          (plan.dialect.quote (query.correlation.getD target.table.name)) plan.isBare
          pair.1 pair.2 := by
  simp only [rawEntries, List.mem_map, List.mem_filter, Bool.and_eq_true, Bool.not_eq_true',
    List.contains_iff_mem]
  constructor
  · rintro ⟨pair, ⟨hpair, hstored, hreturned⟩, rfl⟩
    exact ⟨pair, hpair, hstored, hreturned, rfl⟩
  · rintro ⟨pair, hpair, hstored, hreturned, rfl⟩
    exact ⟨pair, ⟨hpair, hstored, hreturned⟩, rfl⟩

/-- A mapped query that is written by hand: besides its fields only touched tables come in. -/
theorem mapRaw_result {query : RawQuery} {mapped : MappedTarget}
    (h : plan.mapRaw target query = (next, .ok mapped)) :
    (∃ touched, next = { plan with
      columns := (plan.rawEntries target query).foldl .push plan.columns, links := []
      touched := touched }) ∧
      mapped = ⟨target.table, plan.dialect.quote (query.correlation.getD target.table.name),
        .derived query.statement (plan.dialect.quote (query.correlation.getD target.table.name)),
        none⟩ := by
  unfold mapRaw at h
  dsimp only at h
  split at h
  · cases h
  · split at h
    · cases h
    · rw [foldl_touch_reads, foldl_touch_eq] at h
      cases h
      exact ⟨⟨_, rfl⟩, rfl⟩

theorem columns_mapRaw {query : RawQuery} {mapped : MappedTarget}
    (h : plan.mapRaw target query = (next, .ok mapped)) :
    next.columns = (plan.rawEntries target query).foldl .push plan.columns := by
  rcases mapRaw_result h with ⟨⟨touched, rfl⟩, -⟩
  rfl

/-- The fields that a query written by hand brings in are stored columns of the reference. -/
theorem mem_mapRaw {query : RawQuery} {mapped : MappedTarget}
    (h : plan.mapRaw target query = (next, .ok mapped)) {entry : Entry}
    (hentry : entry ∈ next.columns.entries) :
    entry ∈ plan.columns.entries ∨
      ∃ pair ∈ target.table.columns.zip target.tokens, pair.1.transient = false ∧
        entry = rawEntry plan.dialect target.table
          (plan.dialect.quote (query.correlation.getD target.table.name)) plan.isBare
          pair.1 pair.2 := by
  rw [columns_mapRaw h] at hentry
  rcases ColumnMap.mem_pushAll hentry with hold | hnew
  · exact .inl hold
  · rcases mem_rawEntries.1 hnew with ⟨pair, hpair, hstored, -, heq⟩
    exact .inr ⟨pair, hpair, hstored, heq⟩

end Plan

/-- What a joined reference brings in. -/
theorem Query.mapped_join {query next : Query} {kind : JoinKind} {target : ModelTarget}
    (hnext : query.call? (.join kind (.model target)) = some next)
    (herrors : next.plan.errors = []) :
    next.plan.columns = (query.plan.closeJoin.mappedColumns target).1 ∧
      next.plan.links = (query.plan.closeJoin.mappedColumns target).2 ∧
      ∃ source, next.plan.openJoin = some ⟨kind, source,
        (query.plan.closeJoin.parentOf target).map fun parent =>
          query.plan.dialect.quote (trimStem parent.stem), []⟩ := by
  have hplan := (call?_eq_some.1 hnext).2
  have hopened : (query.plan.openJoinOn kind (.model target)).errors = [] := by
    rw [hplan] at herrors
    exact herrors
  rcases Plan.mapTarget_of_openJoinOn hopened with ⟨behind, mapped, hmap, -⟩
  rcases Plan.mapModel_eq hmap with ⟨hcolumns, hlinks, hcorrelation⟩
  have hjoined := hplan.trans (Plan.openJoinOn_of_ok hmap kind)
  refine ⟨(congrArg Plan.columns hjoined).trans hcolumns,
    (congrArg Plan.links hjoined).trans hlinks, mapped.source, ?_⟩
  rw [hcorrelation] at hjoined
  exact congrArg Plan.openJoin hjoined

end FieldQuery
