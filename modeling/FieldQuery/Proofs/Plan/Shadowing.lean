import FieldQuery.Proofs.Plan.DerivedTables
import FieldQuery.Proofs.Plan.Notes

/-!
# What the columns of a join stand for

A reference shares tokens with the row that it hangs off, so a token of a joined target may be known
before.  Then it goes on standing for what it stood for, in whichever source that is.  A linked
column of a related reference leaves a link behind; any other column is passed over in silence, and
so is every column of a query written by hand: a condition on it is written with the earlier source.

Main definitions:

- `Target.columns`, `Target.returned`: the columns of a target, and those that can be read from it.
- `Plan.qualifier`: the name that they are entered under.
- `Plan.links?`: whether a column becomes a link.

Main statement: `Query.joined_columns`.
-/

namespace FieldQuery

namespace Target

/-- The columns of a target with their tokens.  Those of a plan are not entered one by one. -/
def columns : Target → List (Column × Token)
  | .model reference | .raw reference _ => reference.table.columns.zip reference.tokens
  | .plan _ => []

/-- The stored columns; of a query written by hand, those that it returns. -/
def returned (target : Target) : List (Column × Token) :=
  target.columns.filter fun (column, _) =>
    !column.transient &&
      match target with
      | .raw _ query => query.columns.contains column.name
      | _ => true

variable {target : Target} {pair : Column × Token}

theorem mem_columns_of_returned (h : pair ∈ target.returned) : pair ∈ target.columns :=
  (List.mem_filter.1 h).1

theorem mem_returned_raw {reference : ModelTarget} {query : RawQuery}
    (h : pair ∈ (Target.raw reference query).returned) :
    pair ∈ reference.table.columns.zip reference.tokens ∧ pair.1.transient = false ∧
      pair.1.name ∈ query.columns := by
  rcases List.mem_filter.1 h with ⟨hmem, hread⟩
  refine ⟨hmem, ?_⟩
  simpa using hread

end Target

namespace Plan

variable {plan next : Plan} {target : Target} {mapped : MappedTarget} {pair : Column × Token}

/-- The name that the columns of a target are entered under. -/
def qualifier (plan : Plan) : Target → String
  | .model reference => (plan.scopeOf reference).quotedTable
  | .raw reference query => plan.dialect.quote (query.correlation.getD reference.table.name)
  | .plan sub => sub.quotedTable

/-- Whether a column becomes a link if its token stands for a stored one. -/
def links? (plan : Plan) : Target → Column → Bool
  | .model reference, column => (plan.scopeOf reference).mayLink column
  | _, _ => false

/-- The link of a column of a target to what its token stands for. -/
def linkFrom (plan : Plan) (target : Target) (known : Entry) (column : Column) : Filter :=
  .link known.quotedTable known.quotedColumn (plan.qualifier target)
    (plan.dialect.quote column.name)

/-- The relation that leads to a reference has a prefix of its own. -/
def Prefixed (plan : Plan) (target : Target) : Prop :=
  ∀ reference parent, target = .model reference → plan.parentOf reference = some parent →
    parent.stem ≠ "" ∧ parent.stem ≠ detachedStem

theorem name_mapTarget (hprefixed : plan.Prefixed target)
    (hmap : plan.mapTarget target = (next, .ok mapped)) (herrors : next.errors = []) :
    mapped.name = plan.qualifier target := by
  cases target with
  | model reference =>
      refine name_mapModel_of_related (fun parent hparent => ?_) hmap herrors
      rcases hprefixed reference parent rfl hparent with ⟨hempty, hdetached⟩
      simpa [MappingScope.isRelated, scopeOf, hparent, String.isEmpty_iff] using ⟨hempty, hdetached⟩
  | raw reference query => exact (name_mapRaw hmap).1
  | plan sub =>
      have hmapped : (plan.mapPlan sub).2 = mapped := Except.ok.inj (congrArg Prod.snd hmap)
      rw [← hmapped]
      exact (name_mapPlan plan sub).1

/-! ## One column -/

/-- Every column that can be read from a target has a token that is known once the target is. -/
theorem contains_mapTarget (hmap : plan.mapTarget target = (next, .ok mapped))
    (hpair : pair ∈ target.returned) : next.columns.contains pair.2 = true := by
  cases target with
  | model reference =>
      rw [(mapModel_eq hmap).1]
      exact MappingScope.contains_mapColumns (Target.mem_columns_of_returned hpair)
  | raw reference query =>
      rcases Target.mem_returned_raw hpair with ⟨hmem, hstored, hreturned⟩
      rw [columns_mapRaw hmap]
      exact ColumnMap.contains_pushAll (mem_rawEntries.2 ⟨pair, hmem, hstored, hreturned, rfl⟩)
        plan.columns
  | plan sub => cases hpair

/-- What is known behind a target was known before, or is a column of the target. -/
theorem entered_mapTarget (hplan : ∀ sub, target ≠ .plan sub)
    (hmap : plan.mapTarget target = (next, .ok mapped)) {later : Entry}
    (hlater : later ∈ next.columns.entries) :
    (∃ known ∈ plan.columns.entries, later.token = known.token) ∨
      (later.column, later.token) ∈ target.columns ∧
        later.quotedTable = plan.qualifier target := by
  cases target with
  | model reference =>
      rw [(mapModel_eq hmap).1] at hlater
      rcases MappingScope.fixed_mapColumns hlater with ⟨known, hknown, hfixed⟩ | ⟨pair, hpair, hfixed⟩
      · exact .inl ⟨known, hknown, (congrArg Entry.token hfixed :)⟩
      · have hcolumn : later.column = pair.1 := (congrArg Entry.column hfixed :)
        have htoken : later.token = pair.2 := (congrArg Entry.token hfixed :)
        refine .inr ⟨?_, (congrArg Entry.quotedTable hfixed :)⟩
        rw [hcolumn, htoken]
        exact hpair
  | raw reference query =>
      rcases mem_mapRaw hmap hlater with hknown | ⟨pair, hpair, -, rfl⟩
      · exact .inl ⟨later, hknown, rfl⟩
      · exact .inr ⟨hpair, rfl⟩
  | plan sub => exact absurd rfl (hplan sub)

/-- A column with a new token is found under the target's name. -/
theorem find?_of_new (hmap : plan.mapTarget target = (next, .ok mapped))
    (hpair : pair ∈ target.returned) (hnew : plan.columns.contains pair.2 = false) :
    ∃ later, next.columns.find? pair.2 = some later ∧
      (later.column, pair.2) ∈ target.columns ∧ later.quotedTable = plan.qualifier target := by
  have hplan : ∀ sub, target ≠ .plan sub := by
    rintro sub rfl
    cases hpair
  rcases ColumnMap.exists_find? (contains_mapTarget hmap hpair) with ⟨later, hfound⟩
  have htoken : later.token = pair.2 := by simpa using List.find?_some hfound
  refine ⟨later, hfound, ?_⟩
  rcases entered_mapTarget hplan hmap (List.mem_of_find?_eq_some hfound) with
    ⟨known, hknown, hsame⟩ | ⟨hcolumn, hname⟩
  · have hcontains : plan.columns.contains pair.2 = true :=
      ColumnMap.contains_iff.2 ⟨known, hknown, hsame.symm.trans htoken⟩
    rw [hnew] at hcontains
    cases hcontains
  · rw [htoken] at hcolumn
    exact ⟨hcolumn, hname⟩

/-- A linked column leaves a link to what its token stands for. -/
theorem link_of_known (hmap : plan.mapTarget target = (next, .ok mapped))
    (hpair : pair ∈ target.returned) (hlinks : plan.links? target pair.1 = true) {known : Entry}
    (hknown : plan.columns.queryable pair.2 = .ok known) :
    plan.linkFrom target known pair.1 ∈ next.links := by
  cases target with
  | model reference =>
      rw [(mapModel_eq hmap).2.1]
      exact MappingScope.links_mapColumns (plan.columns, []) (Target.mem_columns_of_returned hpair)
        hlinks hknown
  | raw reference query => cases hlinks
  | plan sub => cases hlinks

/-- Every link is that of a column that may be linked, whose token stands for a stored one. -/
theorem mem_links_mapTarget (hmap : plan.mapTarget target = (next, .ok mapped)) {link : Filter}
    (hlink : link ∈ next.links) : ∃ pair ∈ target.columns, plan.links? target pair.1 = true ∧
      ∃ entry, next.columns.queryable pair.2 = .ok entry ∧
        link = plan.linkFrom target entry pair.1 := by
  cases target with
  | model reference =>
      rw [(mapModel_eq hmap).2.1] at hlink
      rw [(mapModel_eq hmap).1]
      rcases MappingScope.mem_links_mapColumns hlink with
        hold | ⟨pair, hpair, entry, hmay, hfound, rfl⟩
      · cases hold
      · exact ⟨pair, hpair, hmay, entry, hfound, rfl⟩
  | raw reference query =>
      rcases (mapRaw_result hmap).1 with ⟨touched, rfl⟩
      cases hlink
  | plan sub =>
      rcases (links_mapTarget hmap).2 link hlink with ⟨reference, heq, -⟩
      cases heq

/-- A column that may not be linked, or whose token stands for one that is not stored, leaves
nothing behind. -/
theorem links_of_others (hmap : plan.mapTarget target = (next, .ok mapped)) {known : Entry}
    (hknown : next.columns.find? pair.2 = some known)
    (hpassed : plan.links? target pair.1 = false ∨ known.column.transient = true) :
    ∀ link ∈ next.links, ∃ other ∈ target.columns, other ≠ pair ∧
      ∃ entry, next.columns.queryable other.2 = .ok entry ∧
        link = plan.linkFrom target entry other.1 := by
  intro link hlink
  rcases mem_links_mapTarget hmap hlink with ⟨other, hother, hmay, entry, hfound, heq⟩
  refine ⟨other, hother, ?_, entry, hfound, heq⟩
  rintro rfl
  rcases hpassed with hnot | htransient
  · rw [hmay] at hnot
    cases hnot
  · rcases ColumnMap.queryable_eq_ok.1 hfound with ⟨hentry, hstored⟩
    have hsame : entry = known := Option.some.inj (hentry.symm.trans hknown)
    rw [hsame, htransient] at hstored
    cases hstored

end Plan

/-! ## Joins -/

namespace Query

/-- Behind a join, each column that can be read from its target is found under the name of the source
that the join opens, if its token is new.  A token that is known goes on standing for what it stood
for, under the name of that source.  Then a stored column that is linked leaves a link behind, if
the token stands for a stored one; in any other case nothing is left, for all links are those of
other columns. -/
theorem joined_columns {query next : Query} {kind : JoinKind} {target : Target}
    (hnext : query.call? (.join kind target) = some next) (herrors : next.plan.errors = []) :
    (∃ source correlation, next.plan.openJoin = some ⟨kind, source, correlation, []⟩ ∧
      (query.plan.Prefixed target →
        correlation.getD source.name = query.plan.qualifier target)) ∧
      ∀ pair ∈ target.returned,
        (query.plan.columns.contains pair.2 = false →
          ∃ later, next.plan.columns.find? pair.2 = some later ∧
            (later.column, pair.2) ∈ target.columns ∧
            later.quotedTable = query.plan.qualifier target) ∧
        ∀ known, query.plan.columns.find? pair.2 = some known →
          (∃ later, next.plan.columns.find? pair.2 = some later ∧ later.fixed = known.fixed) ∧
          (query.plan.links? target pair.1 = true → known.column.transient = false →
            query.plan.linkFrom target known pair.1 ∈ next.plan.links) ∧
          (query.plan.links? target pair.1 = false ∨ known.column.transient = true →
            ∀ link ∈ next.plan.links, ∃ other ∈ target.columns, other ≠ pair ∧
              ∃ entry, next.plan.columns.queryable other.2 = .ok entry ∧
                link = query.plan.linkFrom target entry other.1) := by
  have hplan : next.plan = query.plan.openJoinOn kind target := (call?_eq_some.1 hnext).2
  rw [hplan] at herrors ⊢
  rcases Plan.mapTarget_of_openJoinOn herrors with ⟨behind, mapped, hmap, hclean⟩
  -- closing the open join changes nothing that mapping looks at
  have hscopes : query.plan.closeJoin.qualifier target = query.plan.qualifier target := by
    cases target <;> rfl
  have hlinked : query.plan.closeJoin.links? target = query.plan.links? target := by
    cases target <;> rfl
  have hfrom : query.plan.closeJoin.linkFrom target = query.plan.linkFrom target := by
    funext known column
    rw [Plan.linkFrom, hscopes, Plan.linkFrom]
    rfl
  rw [Plan.openJoinOn_of_ok hmap]
  refine ⟨⟨mapped.source, mapped.correlation, rfl, fun hprefixed => ?_⟩, fun pair hpair => ?_⟩
  · rw [← hscopes]
    exact Plan.name_mapTarget hprefixed hmap hclean
  · refine ⟨fun hnew => ?_, fun known hknown => ?_⟩
    · have hfound := Plan.find?_of_new hmap hpair hnew
      rw [hscopes] at hfound
      exact hfound
    · have hextends : query.plan.columns.Extends behind.columns :=
        (Plan.continues_of_mapTarget hmap).columns
      rcases hextends.find? hknown with ⟨later, hlater, hfixed⟩
      have htransient : later.column = known.column := (congrArg Entry.column hfixed :)
      rw [← hlinked, ← hfrom]
      refine ⟨⟨later, hlater, hfixed⟩, fun hmay hstored => ?_, fun hpassed => ?_⟩
      · exact Plan.link_of_known hmap hpair hmay (ColumnMap.queryable_eq_ok.2 ⟨hknown, hstored⟩)
      · rw [← htransient] at hpassed
        have hothers := Plan.links_of_others hmap hlater hpassed
        exact hothers

end Query

namespace Rosters

/-- The teams by a query that returns their keys and names, under the reference that the players'
relation leads to. -/
def handwritten : Target :=
  .raw ((entered "nick").1.target (catalog "nick"))
    { statement := .ofText "SELECT id, name FROM teams", columns := ["id", "name"] }

def matched : Query :=
  ⟨.joining, (start "nick").plan.apply (.join .inner handwritten)⟩

/-- The key of the teams goes on standing for the players' foreign key, and no link is left: what
compares the two columns compares one with itself. -/
theorem joined_columns_handwritten :
    (∃ source, matched.plan.openJoin = some ⟨.inner, source, none, []⟩ ∧
      source.name = "\"teams\"") ∧
    matched.plan.links = [] ∧
    (∃ title, matched.plan.columns.find? ⟨6⟩ = some title ∧ title.quotedTable = "\"teams\"") ∧
    ∃ key, matched.plan.columns.find? ⟨4⟩ = some key ∧
      key.name = ⟨"\"players\"", "\"team_id\""⟩ ∧
      (Operand.field ⟨4⟩).render matched.plan.columns =
        .ok (.ofText "\"players\".\"team_id\"") := by
  have hmatched : (start "nick").call? (.join .inner handwritten) = some matched := rfl
  rcases Query.joined_columns hmatched rfl with ⟨⟨source, correlation, hopen, hname⟩, hcolumns⟩
  have hnone : correlation = none := by
    have hsame : matched.plan.openJoin.map (·.correlation) = some none := rfl
    simpa [hopen] using hsame
  have hsource : source.name = "\"teams\"" := by
    have hqualified := hname fun reference parent h => by cases h
    rw [hnone] at hqualified
    exact hqualified
  rw [hnone] at hopen
  have hkey : (Squads.key, (⟨4⟩ : Token)) ∈ handwritten.returned := by decide
  have htitle : (teamName, (⟨6⟩ : Token)) ∈ handwritten.returned := by decide
  have hknown : ∃ known, (start "nick").plan.columns.find? ⟨4⟩ = some known ∧
      known.name = ⟨"\"players\"", "\"team_id\""⟩ := ⟨_, rfl, rfl⟩
  rcases hknown with ⟨known, hknown, hforeign⟩
  rcases (hcolumns _ hkey).2 known hknown with ⟨⟨key, hlater, hfixed⟩, -, -⟩
  rcases (hcolumns _ htitle).1 rfl with ⟨title, hfound, -, hqualifier⟩
  refine ⟨⟨source, hopen, hsource⟩, rfl, ⟨title, hfound, hqualifier⟩, key, hlater,
    (congrArg Entry.name hfixed :).trans hforeign, rfl⟩

end Rosters

end FieldQuery
