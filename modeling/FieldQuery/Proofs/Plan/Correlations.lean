import FieldQuery.Proofs.Plan.JoinOrder
import FieldQuery.Proofs.Plan.Notes
import FieldQuery.Proofs.Plan.SegmentText

/-!
# Columns stand behind listed sources

An entry keeps the name of its source, and a join keeps its own.  No call takes a source away, and a
target brings in columns of its own name only.  So every column that is written from the column map
stands behind the name of a source that the same statement lists.

Main definitions:

- `Plan.correlations`: what the sources of a plan are known by.
- `Plan.Resolves`: all columns that a plan can write stand behind its sources.

Main statement: `Query.Noted.columns_listed`.
-/

namespace FieldQuery

open Condition

/-- What a join is known by in the conditions of a statement. -/
def Opening.name (opening : Opening) : String :=
  opening.correlation.getD opening.source.name

namespace Plan

variable {plan next : Plan}

/-- What the sources of a plan are known by. -/
def correlations (plan : Plan) : List String :=
  plan.quotedTable :: (plan.allJoins.map (·.opening)).map (·.name)

theorem correlations_of_logs {log : JoinLog} (h : plan.Logs log) :
    plan.correlations = plan.quotedTable :: log.written.map (·.name) := by
  rw [correlations, h.allJoins]

/-- The joins of a plan as a log of their own, in which nothing is behind the open one. -/
def ownLog (plan : Plan) : JoinLog :=
  ⟨plan.joins.map (·.opening), plan.openJoin.map (·.opening), []⟩

theorem logs_ownLog (plan : Plan) : plan.Logs plan.ownLog where
  joins := (List.append_nil _).symm
  pending := rfl

theorem correlations_after {call : Call} (herrors : (plan.apply call).errors = []) :
    (plan.apply call).correlations =
      plan.quotedTable :: (plan.ownLog.after plan call).written.map (·.name) := by
  have hnext := plan.logs_ownLog.apply (fun _ => rfl) herrors
  have hquoted : (plan.apply call).quotedTable = plan.quotedTable :=
    congrArg Grounds.quotedTable (continues_apply plan call).grounds
  rw [correlations_of_logs hnext, hquoted]

/-- No source is taken away, and a join adds its own. -/
theorem correlations_apply {call : Call} (herrors : (plan.apply call).errors = []) :
    plan.correlations ⊆ (plan.apply call).correlations := by
  have hsubset := plan.ownLog.written_subset_after plan call
  rw [correlations_of_logs plan.logs_ownLog, correlations_after herrors]
  exact List.cons_subset_cons _ (List.map_subset _ hsubset)

/-! ## What the texts stand for -/

/-- All columns that a plan can write stand behind its sources, and the notes tell its texts. -/
structure Resolves (notes : Notes) (plan : Plan) : Prop where
  covers : SourcesAmong plan.correlations notes.links plan.columns
  groups : Groups plan.columns notes.grouped plan.grouping
  found : ∀ filter ∈ plan.links, ∃ link ∈ notes.links, filter = link.filter
  source : ∃ source, plan.source = some source ∧ source.name = plan.quotedTable
  underscored : plan.columns.Underscored

variable {notes : Notes}

theorem Groups.extends {columns later : ColumnMap} {tokens : List Token} {grouping : List String}
    (h : Groups columns tokens grouping) (hextends : columns.Extends later) :
    Groups later tokens grouping := by
  refine List.Forall₂.imp ?_ h
  rintro token text ⟨entry, hentry, rfl⟩
  rcases hextends.queryable hentry with ⟨found, hfound, hfixed⟩
  have hqualified : found.qualified = entry.qualified := (congrArg Entry.qualified hfixed :)
  exact ⟨found, hfound, hqualified.symm⟩

/-- An entry that was known before a call, or stands behind a source of the plan that it makes. -/
def Accounts (plan next : Plan) (entry : Entry) : Prop :=
  (∃ known ∈ plan.columns.entries, entry.fixed = known.fixed) ∨
    entry.quotedTable ∈ next.correlations ∧ entry.Underscored

theorem Resolves.listed (h : plan.Resolves notes) (hsources : plan.correlations ⊆ next.correlations)
    {entry : Entry} (hentry : Accounts plan next entry) :
    entry.quotedTable ∈ next.correlations := by
  rcases hentry with ⟨known, hknown, hfixed⟩ | ⟨hmem, -⟩
  · have hname : entry.quotedTable = known.quotedTable := (congrArg Entry.quotedTable hfixed :)
    rw [hname]
    exact hsources (h.covers.columns known hknown)
  · exact hmem

/-- What a call brings in stands behind one of its sources too. -/
theorem Resolves.grow {call : Call} {later : Notes} (h : plan.Resolves notes)
    (herrors : (plan.apply call).errors = [])
    (hentries : ∀ entry ∈ (plan.apply call).columns.entries,
      Accounts plan (plan.apply call) entry)
    (hlinks : ∀ link ∈ later.links, link ∈ notes.links ∨
      link.near.source ∈ (plan.apply call).correlations ∧
        link.far.source ∈ (plan.apply call).correlations)
    (hgroups : Groups (plan.apply call).columns later.grouped (plan.apply call).grouping)
    (hfound : ∀ filter ∈ (plan.apply call).links, ∃ link ∈ later.links, filter = link.filter) :
    (plan.apply call).Resolves later := by
  have hsources := correlations_apply herrors
  have hgrounds := (continues_apply plan call).grounds
  have hsource : (plan.apply call).source = plan.source := congrArg Grounds.source hgrounds
  have hquoted : (plan.apply call).quotedTable = plan.quotedTable :=
    congrArg Grounds.quotedTable hgrounds
  refine ⟨⟨?_, ?_⟩, hgroups, hfound, ?_, ?_⟩
  · intro entry hentry
    exact h.listed hsources (hentries entry hentry)
  · intro link hlink
    rcases hlinks link hlink with hold | hnew
    · exact (h.covers.links link hold).imp (@hsources _) (@hsources _)
    · exact hnew
  · rw [hsource, hquoted]
    exact h.source
  · intro entry hentry
    rcases hentries entry hentry with ⟨known, hknown, hfixed⟩ | ⟨-, hunderscored⟩
    · exact (h.underscored known hknown).of_fixed hfixed
    · exact hunderscored

/-- A call without target brings in nothing, and may note a field that is grouped by. -/
theorem Resolves.of_plain {call : Call} (h : plan.Resolves notes) (htarget : call.target? = none)
    (herrors : (plan.apply call).errors = []) :
    (plan.apply call).Resolves (notes.after plan call) := by
  have hextends := (continues_apply plan call).columns
  have hlinks : (notes.after plan call).links = notes.links := by
    cases call with
    | join kind target => cases htarget
    | _ => rfl
  have hgroups : Groups (plan.apply call).columns (notes.after plan call).grouped
      (plan.apply call).grouping ∧ (plan.apply call).links ⊆ plan.links := by
    -- grouping writes a column down as text, and its token is noted
    by_cases hgroup : ∃ token, call = .groupBy token
    · rcases hgroup with ⟨token, rfl⟩
      rcases groupBy_eq herrors with ⟨entry, hentry, heq⟩
      have happly : plan.apply (.groupBy token) =
          { plan with grouping := plan.grouping ++ [entry.qualified] } := heq
      rw [happly]
      exact ⟨List.rel_append h.groups (.cons ⟨entry, hentry, rfl⟩ .nil), List.Subset.refl _⟩
    · have hkeeps : Keeps plan (plan.apply call) :=
        keeps_apply htarget fun token heq => hgroup ⟨token, heq⟩
      have hgrouped : (notes.after plan call).grouped = notes.grouped := by
        cases call with
        | groupBy token => exact absurd ⟨token, rfl⟩ hgroup
        | join kind target => cases htarget
        | _ => rfl
      rw [hgrouped, hkeeps.grouping]
      exact ⟨h.groups.extends hextends, hkeeps.links⟩
  refine h.grow herrors (fun entry hentry => .inl (known_apply htarget hentry)) ?_ hgroups.1 ?_
  · rw [hlinks]
    exact fun link hlink => .inl hlink
  · rw [hlinks]
    exact fun filter hfilter => h.found filter (hgroups.2 hfilter)

/-- A join brings in columns that stand behind its own name. -/
theorem Resolves.of_join {kind : JoinKind} {target : Target} (h : plan.Resolves notes)
    (htarget : target.Standard)
    (hsub : ∀ sub, target = .plan sub → sub.errors = [] → sub.columns.Underscored)
    (herrors : (plan.openJoinOn kind target).errors = []) :
    (plan.openJoinOn kind target).Resolves (notes.after plan (.join kind target)) := by
  rcases mapTarget_of_openJoinOn herrors with ⟨next, mapped, hmap, hclean⟩
  have hmaps := maps_mapTarget hmap hclean
  have hopened := openJoinOn_of_ok hmap kind
  have hunderscored : plan.closeJoin.columns.Underscored := h.underscored
  have hjoined : ∀ sub, target = .plan sub → sub.columns.Underscored := by
    rintro sub rfl
    exact hsub sub rfl hmaps.written.1
  have hname : mapped.name ∈ (plan.openJoinOn kind target).correlations := by
    rw [hopened]
    simp [correlations, allJoins, JoinClause.opening, Opening.name, MappedTarget.name]
  have hsources : plan.correlations ⊆ (plan.openJoinOn kind target).correlations :=
    @correlations_apply plan (.join kind target) herrors
  have hentries : ∀ entry ∈ (plan.openJoinOn kind target).columns.entries,
      Accounts plan (plan.openJoinOn kind target) entry := by
    intro entry hentry
    rw [columns_openJoinOn hmap] at hentry
    refine (mem_mapTarget hunderscored htarget hjoined hmap hclean hentry).imp_right ?_
    rintro ⟨hquoted, hstem⟩
    exact ⟨hquoted ▸ hname, hstem⟩
  rcases links_mapTarget hmap with ⟨hgrouping, hlinks⟩
  -- the links of the reference are new, and what is grouped by stays
  refine @Resolves.grow plan notes (.join kind target) _ h herrors hentries ?_ ?_ ?_
  · intro link hlink
    rcases Notes.mem_links_after.1 hlink with hold | ⟨reference, rfl, hnew⟩
    · exact .inl hold
    · have hmodel : plan.closeJoin.mapModel reference = (next, .ok mapped) := hmap
      rcases linksTo_mapModel hunderscored hmodel hclean hnew with ⟨hfar, entry, hentry, hnear⟩
      rw [← columns_openJoinOn hmap kind] at hentry
      rw [hnear, hfar]
      exact .inr ⟨h.listed hsources (hentries entry hentry), hname⟩
  · have hgroups := h.groups.extends (continues_openJoinOn plan kind target).columns
    have hkept : (plan.openJoinOn kind target).grouping = plan.grouping := by
      rw [hopened]
      exact hgrouping
    have hsame : (notes.after plan (.join kind target)).grouped = notes.grouped := by
      cases target <;> rfl
    show Groups (plan.openJoinOn kind target).columns _ (plan.openJoinOn kind target).grouping
    rw [hkept, hsame]
    exact hgroups
  · intro filter hfilter
    have hmem : filter ∈ next.links := by
      have happly : filter ∈ (plan.openJoinOn kind target).links := hfilter
      rw [hopened] at happly
      exact happly
    rcases hlinks filter hmem with ⟨reference, hmodel, link, hlink, heq⟩
    exact ⟨link, Notes.mem_links_after.2 (.inr ⟨reference, hmodel, hlink⟩), heq⟩

/-- No relation leads to a reference before anything is mapped. -/
theorem parentOf_of_empty (hempty : plan.columns = {}) (reference : ModelTarget) :
    plan.parentOf reference = none := by
  unfold parentOf
  rw [hempty]
  cases reference.own <;> rfl

/-- So its columns are not linked. -/
theorem linksTo_of_empty (hempty : plan.columns = {}) (hbare : plan.isBare = true)
    (reference : ModelTarget) (link : Link) : link ∉ plan.linksTo reference := by
  have hscope : (plan.scopeOf reference).isRelated = false := by
    simp [MappingScope.isRelated, scopeOf, parentOf_of_empty hempty, hbare]
  intro hlink
  have hrelated := (@MappingScope.mem_linksOf _ _ (plan.columns, []) link hlink).1
  rw [hscope] at hrelated
  cases hrelated

/-- A target that no relation leads to is known by the name that it brings along. -/
theorem name_of_unrelated {target : Target} {mapped : MappedTarget}
    (hparent : ∀ reference, plan.parentOf reference = none)
    (hmap : plan.mapTarget target = (next, .ok mapped)) (herrors : next.errors = []) :
    mapped.name = mapped.quotedTable := by
  have hstands := standsAs_mapTarget hmap herrors
  cases target with
  | model reference =>
      have hcorrelation := (mapModel_eq hmap).2.2
      rw [hparent] at hcorrelation
      rw [MappedTarget.name, hcorrelation]
      exact hstands.name_eq
  | plan sub =>
      have hmapped : (plan.mapPlan sub).2 = mapped := Except.ok.inj (congrArg Prod.snd hmap)
      rw [← hmapped, (name_mapPlan plan sub).1, (name_mapPlan plan sub).2]
  | raw reference query => exact (name_mapRaw hmap).2.symm

/-- The columns of the primary target stand behind its name. -/
theorem resolves_mapRoot {target : Target} (htarget : target.Standard)
    (hsub : ∀ sub, target = .plan sub → sub.errors = [] → sub.columns.Underscored)
    (hempty : plan.columns = {}) (hgrouping : plan.grouping = []) (hbare : plan.isBare = true)
    (herrors : (plan.mapRoot target).errors = []) :
    (plan.mapRoot target).Resolves {} := by
  rcases mapTarget_of_mapRoot herrors with ⟨next, mapped, hmap, hclean⟩
  have hmaps := maps_mapTarget hmap hclean
  have hstands := standsAs_mapTarget hmap hclean
  have hroot := mapRoot_of_ok hmap
  have hunderscored : plan.columns.Underscored := by
    rw [hempty]
    exact fun entry hentry => by cases hentry
  have hjoined : ∀ sub, target = .plan sub → sub.columns.Underscored := by
    rintro sub rfl
    exact hsub sub rfl hmaps.written.1
  -- no relation leads to it, so it is known by the name that it brings along
  have hname := name_of_unrelated (parentOf_of_empty hempty) hmap hclean
  have hentries : ∀ entry ∈ next.columns.entries,
      entry.quotedTable = mapped.quotedTable ∧ entry.Underscored := by
    intro entry hentry
    rcases mem_mapTarget hunderscored htarget hjoined hmap hclean hentry with
      ⟨known, hknown, -⟩ | hnew
    · rw [hempty] at hknown
      cases hknown
    · rw [← hname]
      exact hnew
  rcases links_mapTarget hmap with ⟨hnext, hlinks⟩
  rw [hroot]
  refine ⟨⟨?_, ?_⟩, ?_, ?_, ?_, ?_⟩
  · intro entry hentry
    rw [(hentries entry hentry).1]
    exact List.mem_cons_self
  · intro link hlink
    cases hlink
  · show Groups next.columns [] next.grouping
    rw [hnext, hgrouping]
    exact .nil
  · intro filter hfilter
    rcases hlinks filter hfilter with ⟨reference, -, link, hlink, -⟩
    exact absurd hlink (linksTo_of_empty hempty hbare reference link)
  · exact ⟨mapped.source, rfl, hstands.name_eq⟩
  · exact fun entry hentry => (hentries entry hentry).2

end Plan

mutual

/-- On how the query was made; a plan as a target has been made like that itself. -/
theorem Query.Noted.resolves : ∀ {query : Query} {notes : Notes}, query.Noted notes →
    query.plan.errors = [] → query.plan.Resolves notes
  | _, _, .start htarget, herrors =>
      Plan.resolves_mapRoot htarget htarget.underscored rfl rfl rfl herrors
  | _, _, @Query.Noted.call query next notes call h htarget hnext, herrors => by
      have hclean := (Query.continues_call? hnext).errors_nil herrors
      have hplan := (Query.call?_eq_some.1 hnext).2
      have hresolves := h.resolves hclean
      have hsub := fun target heq => (htarget target heq).underscored
      rw [hplan] at herrors ⊢
      -- only a join has a target
      cases hcall : call.target? with
      | none => exact hresolves.of_plain hcall herrors
      | some target =>
          cases call with
          | join kind joined =>
              cases hcall
              exact hresolves.of_join (htarget target rfl) (hsub target rfl) herrors
          | _ => cases hcall

theorem Target.Standard.underscored : ∀ {target : Target}, target.Standard →
    ∀ sub, target = .plan sub → sub.errors = [] → sub.columns.Underscored
  | _, .plan h, _, heq, herrors => by
      cases heq
      exact (h.resolves herrors).underscored
  | _, .model _, _, heq, _ => by cases heq
  | _, .raw _, _, heq, _ => by cases heq

end

/-! ## Listed sources -/

namespace Segment

theorem mem_join {separator : String} {segment : Segment} {part : List Segment}
    (h : segment ∈ part) :
    ∀ {parts : List (List Segment)}, part ∈ parts → segment ∈ join separator parts
  | [only], hmem => by
      cases List.mem_singleton.1 hmem
      exact h
  | first :: second :: rest, hmem => by
      rcases List.mem_cons.1 hmem with rfl | hmem
      · exact List.mem_append_left _ (List.mem_append_left _ h)
      · exact List.mem_append_right _ (mem_join h hmem)

end Segment

/-- A source that is known by a name is listed. -/
def ListsName (segments : List Segment) (name : String) : Prop :=
  ∃ source correlation, .source source correlation ∈ segments ∧ correlation.getD source.name = name

theorem ListsName.mono {segments others : List Segment} {name : String}
    (h : ListsName segments name) (hsub : segments ⊆ others) : ListsName others name := by
  rcases h with ⟨source, correlation, hmem, hname⟩
  exact ⟨source, correlation, hsub hmem, hname⟩

namespace Plan

variable {plan : Plan} {notes : Notes} {segments : List Segment}

theorem lists_joinSegments {links : List Link} {columns : ColumnMap} {joins : List JoinClause}
    (h : joinSegments links columns joins = .ok segments) {join : JoinClause}
    (hjoin : join ∈ joins) : ListsName segments join.opening.name := by
  induction joins generalizing segments with
  | nil => cases hjoin
  | cons first rest ih =>
      rw [joinSegments] at h
      rcases bind_eq_ok.1 h with ⟨clause, hclause, hrest⟩
      rcases bind_eq_ok.1 hrest with ⟨others, hothers, hall⟩
      cases hall
      rcases List.mem_cons.1 hjoin with rfl | hjoin
      · rcases bind_eq_ok.1 hclause with ⟨on, -, heq⟩
        cases heq
        exact ⟨join.source, join.correlation, by simp, rfl⟩
      · exact (ih hothers hjoin).mono (List.subset_append_right _ _)

theorem lists_sourceSegments (keyword : String) {join : JoinClause} (hjoin : join ∈ plan.allJoins) :
    ListsName (plan.sourceSegments keyword) join.opening.name := by
  have hpart : [Segment.source join.source join.correlation] ∈
      plan.allJoins.map fun join => [Segment.source join.source join.correlation] :=
    List.mem_map_of_mem hjoin
  have hmem : Segment.source join.source join.correlation ∈ Segment.join ", "
      (plan.allJoins.map fun join => [.source join.source join.correlation]) :=
    Segment.mem_join List.mem_cons_self hpart
  refine ⟨join.source, join.correlation, ?_, rfl⟩
  unfold sourceSegments
  generalize plan.allJoins = joins at hjoin hmem
  cases joins with
  | nil => cases hjoin
  | cons first rest => exact List.mem_append_right _ hmem

theorem lists_querySegments (h : plan.querySegments notes = .ok segments)
    (hsource : ∃ source, plan.source = some source ∧ source.name = plan.quotedTable) {name : String}
    (hname : name ∈ plan.correlations) : ListsName segments name := by
  rcases bind_eq_ok.1 h with ⟨joins, hjoins, hrest⟩
  rcases bind_eq_ok.1 hrest with ⟨conditions, -, hrest⟩
  rcases bind_eq_ok.1 hrest with ⟨grouping, -, hrest⟩
  rcases bind_eq_ok.1 hrest with ⟨order, -, hall⟩
  cases hall
  rcases List.mem_cons.1 hname with rfl | hname
  · rcases hsource with ⟨source, hsource, heq⟩
    refine ⟨source, none, ?_, heq⟩
    simp [fromSegments, hsource]
  · rcases List.mem_map.1 hname with ⟨opening, hopening, rfl⟩
    rcases List.mem_map.1 hopening with ⟨join, hjoin, rfl⟩
    refine (lists_joinSegments hjoins hjoin).mono ?_
    intro segment hmem
    simp [hmem]

/-- A write lists the table that it names, and the sources of all joins. -/
theorem lists_written {front back : List Segment} {keyword : String}
    (hfront : plan.writtenSegment ∈ front) {name : String} (hname : name ∈ plan.correlations) :
    ListsName (front ++ plan.sourceSegments keyword ++ back) name := by
  rcases List.mem_cons.1 hname with rfl | hname
  · exact ⟨.named plan.quotedTable, none, by simp [writtenSegment] at hfront; simp [hfront], rfl⟩
  · rcases List.mem_map.1 hname with ⟨opening, hopening, rfl⟩
    rcases List.mem_map.1 hopening with ⟨join, hjoin, rfl⟩
    refine (lists_sourceSegments keyword hjoin).mono ?_
    intro segment hmem
    simp [hmem]

theorem lists_segments {action : Action}
    (haction : action ∈ [Action.select, .count, .update, .delete])
    (h : plan.segments notes action = .ok segments)
    (hsource : ∃ source, plan.source = some source ∧ source.name = plan.quotedTable) {name : String}
    (hname : name ∈ plan.correlations) : ListsName segments name := by
  cases action with
  | select =>
      rcases bind_eq_ok.1 h with ⟨-, -, hrest⟩
      split at hrest
      · cases hrest
      · rcases bind_eq_ok.1 hrest with ⟨clauses, hclauses, hall⟩
        cases hall
        exact (lists_querySegments hclauses hsource hname).mono (List.subset_append_right _ _)
  | count =>
      rcases bind_eq_ok.1 h with ⟨-, -, hrest⟩
      rcases bind_eq_ok.1 hrest with ⟨clauses, hclauses, hall⟩
      cases hall
      exact (lists_querySegments hclauses hsource hname).mono (List.subset_append_right _ _)
  | update =>
      rcases bind_eq_ok.1 h with ⟨-, -, hrest⟩
      split at hrest
      · cases hrest
      · rcases bind_eq_ok.1 hrest with ⟨conditions, -, hall⟩
        cases hall
        exact lists_written (by simp) hname
  | delete =>
      rcases bind_eq_ok.1 h with ⟨-, -, hrest⟩
      rcases bind_eq_ok.1 hrest with ⟨conditions, -, hall⟩
      cases hall
      exact lists_written (by simp) hname
  | insert => simp at haction
  | truncate => simp at haction

end Plan

/-- Behind calls with targets on declared models, however they are nested: every column that a
statement takes from the column map stands behind the name of a source that the statement lists, and
so would any other that the plan knows.  That is the alias of a related reference or of a derived
table, or else the table's quoted name.  The segments spell the statement, and the links that are
still to become conditions are noted. -/
theorem Query.Noted.columns_listed {query : Query} {notes : Notes} (h : query.Noted notes)
    (herrors : query.plan.errors = []) :
    (∀ filter ∈ query.plan.links, ∃ link ∈ notes.links, filter = link.filter) ∧
      ∀ action ∈ [Action.select, .count, .update, .delete], ∀ statement,
        query.plan.statement action = .ok statement →
        ∃ segments, query.plan.segments notes action = .ok segments ∧
          Segment.text segments = symbols statement ∧
          ∀ name, .column name ∈ segments ∨ (∃ entry ∈ query.plan.columns.entries,
              entry.name = name) →
            ∃ source correlation, .source source correlation ∈ segments ∧
              correlation.getD source.name = name.source := by
  have hresolves := h.resolves herrors
  refine ⟨hresolves.found, ?_⟩
  intro action haction statement hstatement
  have hmade := Plan.makes_segments hresolves.covers hresolves.groups action
  rw [hstatement] at hmade
  rcases hmade.exists_of_ok with ⟨segments, hsegments, hmakes⟩
  refine ⟨segments, hsegments, hmakes.text, ?_⟩
  intro name hname
  have hmem : name.source ∈ query.plan.correlations := by
    rcases hname with hwritten | ⟨entry, hentry, rfl⟩
    · exact hmakes.listed name hwritten
    · exact hresolves.covers.columns entry hentry
  exact Plan.lists_segments haction hsegments hresolves.source hmem

namespace Lineups

def catalog : Catalog :=
  Rosters.catalog "nick"

def team : ModelTarget :=
  (Rosters.entered "nick").1.target catalog

/-- The players, who are a derived table. -/
def start : Query :=
  .start .postgres catalog false [] (.plan (Rosters.start "nick").plan)

def joined : Query :=
  ⟨.joining, start.plan.apply (.join .leftOuter (.model team))⟩

def linked : Query :=
  ⟨.joining, joined.plan.apply .references⟩

/-- The players by the names of their teams. -/
def grouped : Query :=
  ⟨.selecting, linked.plan.apply (.groupBy ⟨6⟩)⟩

def playersTeam : ColumnName :=
  ⟨"\"players\"", "\"team_id\""⟩

def teamKey : ColumnName :=
  ⟨"\"team\"", "\"id\""⟩

def teamName : ColumnName :=
  ⟨"\"team\"", "\"name\""⟩

def notes : Notes :=
  ⟨[⟨playersTeam, teamKey⟩], [⟨6⟩]⟩

/-- The query of the derived table. -/
def players : Statement :=
  ⟨[.text ("SELECT \"players\".\"id\" AS \"id\", \"players\".\"nick\" AS \"nick\", " ++
      "\"players\".\"team_id\" AS \"team_id\""), .text " FROM ", .text "\"players\""], [], rfl⟩

/-- The players are counted, team by team. -/
def counted : List Segment :=
  [.other (.ofText "SELECT count(*)"), .other (.ofText " FROM "),
    .source (.derived players "\"players\"") none, .other (.ofText " LEFT OUTER JOIN "),
    .source (.named "\"teams\"") (some "\"team\""), .other (.ofText " ON "), .column playersTeam,
    .other (.ofText " = "), .column teamKey, .other (.ofText " GROUP BY "), .column teamName,
    .other .empty]

theorem standard_team : team.table.Standard := by
  intro column hcolumn relation hrelation
  have hmem : column ∈ [Squads.key, Rosters.teamName] := hcolumn
  simp only [List.mem_cons, List.not_mem_nil, or_false] at hmem
  rcases hmem with rfl | rfl <;> cases hrelation

theorem standard_players : ((Rosters.planted "nick").1.target catalog).table.Standard := by
  intro column hcolumn relation hrelation
  have hmem : column ∈ [Squads.key, { name := "nick", field := "nick" }, Squads.foreignKey,
    Squads.home] := hcolumn
  simp only [List.mem_cons, List.not_mem_nil, or_false] at hmem
  rcases hmem with rfl | rfl | rfl | rfl
  · cases hrelation
  · cases hrelation
  · cases hrelation
  · cases hrelation
    exact ⟨rfl, _, rfl⟩

theorem noted_grouped : grouped.Noted notes := by
  have hplayers : (Rosters.start "nick").Noted {} := .start (.model standard_players)
  have hjoined : start.call? (.join .leftOuter (.model team)) = some joined := rfl
  have hlinked : joined.call? .references = some linked := rfl
  have hgrouped : linked.call? (.groupBy ⟨6⟩) = some grouped := rfl
  have hteam : ∀ target, (Call.join .leftOuter (.model team)).target? = some target →
      target.Standard := by
    rintro _ ⟨⟩
    exact .model standard_team
  have hnone : ∀ call : Call, call.target? = none → ∀ target, call.target? = some target →
      target.Standard := by
    intro call hcall target htarget
    rw [hcall] at htarget
    cases htarget
  exact .call (.call (.call (.start (.plan hplayers)) hteam hjoined) (hnone _ rfl) hlinked)
    (hnone _ rfl) hgrouped

theorem segments_grouped : grouped.plan.segments notes .count = .ok counted := by
  rfl

/-- The columns of the derived table, of the related team and of the team that is grouped by each
stand behind a listed source. -/
theorem columns_listed_grouped :
    ∃ statement, grouped.plan.statement .count = .ok statement ∧
      Segment.text counted = symbols statement ∧
      ∀ name ∈ [playersTeam, teamKey, teamName], ∃ source correlation,
        .source source correlation ∈ counted ∧ correlation.getD source.name = name.source := by
  have hstatement : ∃ statement, grouped.plan.statement .count = .ok statement := ⟨_, rfl⟩
  rcases hstatement with ⟨statement, hstatement⟩
  have hlisted := (noted_grouped.columns_listed rfl).2 .count (by decide) statement hstatement
  rcases hlisted with ⟨segments, hsegments, htext, hnames⟩
  have hsame : segments = counted := by
    rw [segments_grouped] at hsegments
    exact (Except.ok.inj hsegments).symm
  rw [hsame] at htext hnames
  refine ⟨statement, hstatement, htext, ?_⟩
  intro name hname
  refine hnames name (.inl ?_)
  simp only [List.mem_cons, List.not_mem_nil, or_false] at hname
  rcases hname with rfl | rfl | rfl <;> simp [counted]

end Lineups

end FieldQuery
