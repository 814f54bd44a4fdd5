import FieldQuery.Proofs.Dialect.Quoting
import FieldQuery.Proofs.Plan.Chains
import FieldQuery.Proofs.Plan.Correlations

/-!
# What tells sources apart

A related reference is known by an alias that spells the relations leading to it, and every other
source by a name of its own: that of its table or of a derived table.  Nothing keeps two of these
names from being alike, so a table that is joined without a relation is told from the primary one
only if it is another table, and a relation can be joined once.

Main definitions:

- `SourceName`: a name with what it is made of.
- `Query.Listed`: a query behind calls, and the names of the sources that it was given.
- `Plan.ReadsFrom`: a statement with sources of these names.

Main statement: `Query.Listed.names_apart`.
-/

namespace FieldQuery

open Condition

/-! ## Names -/

/-- What a source is known by. -/
inductive SourceName
  /-- The name of its table, or an alias that it was given. -/
  | own (name : String)
  /-- The alias of a related reference. -/
  | related (chain : Chain)
  deriving DecidableEq

namespace SourceName

variable {dialect : Dialect} {names : List SourceName}

def text (dialect : Dialect) : SourceName → String
  | .own name => name
  | .related chain => dialect.quote chain.spelled

def own? : SourceName → Option String
  | .own name => some name
  | .related _ => none

def chain? : SourceName → Option Chain
  | .own _ => none
  | .related chain => some chain

/-- The names that sources have of their own. -/
def owns (names : List SourceName) : List String :=
  names.filterMap own?

/-- The relations that lead to the other sources. -/
def chains (names : List SourceName) : List Chain :=
  names.filterMap chain?

def aliases (dialect : Dialect) (names : List SourceName) : List String :=
  (chains names).map fun chain => dialect.quote chain.spelled

theorem mem_chains {chain : Chain} : chain ∈ chains names ↔ .related chain ∈ names := by
  rw [chains, List.mem_filterMap]
  constructor
  · rintro ⟨name, hname, hsome⟩
    cases name with
    | own name => cases hsome
    | related found =>
        cases hsome
        exact hname
  · intro hname
    exact ⟨_, hname, rfl⟩

theorem texts_perm (dialect : Dialect) (names : List SourceName) :
    (names.map (text dialect)).Perm (owns names ++ aliases dialect names) := by
  induction names with
  | nil => exact .nil
  | cons first rest ih =>
      cases first with
      | own name => exact ih.cons name
      | related chain =>
          -- the alias goes behind all names of their own
          exact (ih.cons (dialect.quote chain.spelled)).trans List.perm_middle.symm

theorem nodup_texts : (names.map (text dialect)).Nodup ↔
    (owns names).Nodup ∧ (aliases dialect names).Nodup ∧
      ∀ name ∈ aliases dialect names, name ∉ owns names := by
  rw [(texts_perm dialect names).nodup_iff, List.nodup_append', List.disjoint_right]

/-- Where the fields can be told apart in an alias, relations are told apart by theirs. -/
theorem nodup_aliases (hquote : Function.Injective dialect.quote)
    (hfields : ∀ chain ∈ chains names, chain.fields ≠ [])
    (hplain : ∀ chain ∈ chains names, chain.Plain) :
    (aliases dialect names).Nodup ↔ (chains names).Nodup := by
  refine ⟨.of_map _, fun hnodup => (List.nodup_map_iff_inj_on hnodup).2 ?_⟩
  intro chain hchain other hother hsame
  exact Chain.spelled_inj (hplain chain hchain) (hplain other hother) (hfields chain hchain)
    (hfields other hother) (hquote hsame)

end SourceName

/-- The name that a target has of its own. -/
def Target.ownName (dialect : Dialect) : Target → String
  | .model reference => dialect.quotedTable reference.table.schema reference.table.name
  | .plan sub => sub.quotedTable
  | .raw reference query => dialect.quote (query.correlation.getD reference.table.name)

theorem Target.StandsAs.ownName_eq {dialect : Dialect} {target : Target} {source : Source}
    {name : String} (h : target.StandsAs dialect source name) : name = target.ownName dialect := by
  cases h <;> rfl

namespace Plan

variable {plan next : Plan}

/-- What a target becomes known by: a reference that a relation leads to is aliased. -/
def sourceName (plan : Plan) (target : Target) : SourceName :=
  match target with
  | .model reference =>
    match plan.parentOf reference with
    | some parent => .related parent.chain
    | none => .own (target.ownName plan.dialect)
  | _ => .own (target.ownName plan.dialect)

/-- The joins that a call opens. -/
def openings (plan : Plan) : Call → List Opening
  | .join kind target => (plan.opening? kind target).toList
  | .fields tokens => plan.unwanted.lazyOpenings tokens
  | .addField token => (plan.lazyOpening? token).toList
  | _ => []

/-- The names of the sources that a call brings in. -/
def names (plan : Plan) : Call → List SourceName
  | .join _ target => [plan.sourceName target]
  | call => (plan.openings call).map fun opening => .own opening.name

end Plan

/-- A query behind calls with targets on declared models, and the names of its sources. -/
inductive Query.Listed : Query → List SourceName → Prop
  | start {dialect : Dialect} {catalog : Catalog} {cacheable : Bool} {lazyJoins : List JoinRule}
      {target : Target} (htarget : target.Standard) :
      Listed (.start dialect catalog cacheable lazyJoins target) [.own (target.ownName dialect)]
  | call {query next : Query} {names : List SourceName} {call : Call} (h : Listed query names)
      (htarget : ∀ target, call.target? = some target → target.Standard)
      (hnext : query.call? call = some next) : Listed next (names ++ query.plan.names call)

theorem Query.Listed.noted {query : Query} {names : List SourceName} (h : query.Listed names) :
    ∃ notes, query.Noted notes := by
  induction h with
  | start htarget => exact ⟨_, .start htarget⟩
  | call _ htarget hnext ih =>
      rcases ih with ⟨notes, hnoted⟩
      exact ⟨_, .call hnoted htarget hnext⟩

/-- Every query on declared models has such names. -/
theorem Query.Noted.listed : ∀ {query : Query} {notes : Notes}, query.Noted notes →
    ∃ names, query.Listed names
  | _, _, .start htarget => ⟨_, .start htarget⟩
  | _, _, .call h htarget hnext => by
      rcases h.listed with ⟨names, hlisted⟩
      exact ⟨_, .call hlisted htarget hnext⟩

/-! ## Calls -/

/-- The clauses behind a call are those before it, and those of the joins that it opens. -/
theorem JoinLog.written_after (log : JoinLog) (plan : Plan) (call : Call) :
    (log.after plan call).written.Perm (log.written ++ plan.openings call) := by
  have hopened : log.opened.Perm log.written := by
    rw [opened, written, List.append_assoc, List.append_assoc]
    exact List.perm_append_comm.append_left log.earlier
  -- what is opened behind an open join stands in front of its clause
  have hlater : ∀ openings : List Opening,
      ({ log with later := log.later ++ openings } : JoinLog).written.Perm
        (log.written ++ openings) := by
    intro openings
    simp only [written, List.append_assoc]
    exact (List.perm_append_comm.append_left log.later).append_left log.earlier
  cases call with
  | join kind target =>
      simpa [after, written, Plan.openings] using hopened.append_right _
  -- the clause of a closed join goes in front of the others
  | startWhere => simpa [after, written, Plan.openings] using hopened
  | fields tokens => exact hlater _
  | addField token => exact hlater _
  | _ => exact .of_eq (List.append_nil _).symm

namespace Plan

variable {plan next : Plan}

/-- No join is taken away, and a call adds the ones that it opens. -/
theorem openings_apply {call : Call} (herrors : (plan.apply call).errors = []) :
    ((plan.apply call).allJoins.map (·.opening)).Perm
      (plan.allJoins.map (·.opening) ++ plan.openings call) := by
  have hnext := plan.logs_ownLog.apply (fun _ => rfl) herrors
  rw [hnext.allJoins, plan.logs_ownLog.allJoins]
  exact plan.ownLog.written_after plan call

/-- A mapped target is known by the name that it was to become known by. -/
theorem text_sourceName {target : Target} {mapped : MappedTarget} (h : plan.columns.Spelled)
    (hmap : plan.mapTarget target = (next, .ok mapped)) (herrors : next.errors = []) :
    mapped.name = (plan.sourceName target).text plan.dialect := by
  have hstands := standsAs_mapTarget hmap herrors
  have hown : mapped.source.name = target.ownName plan.dialect :=
    hstands.name_eq.trans hstands.ownName_eq
  cases target with
  | model reference =>
      -- only a relation that leads to the reference gives it an alias
      have hcorrelation := (mapModel_eq hmap).2.2
      rw [MappedTarget.name, hcorrelation, sourceName]
      cases hparent : plan.parentOf reference with
      | none => exact hown
      | some parent =>
          -- the alias is the stem of the relation, which its chain makes
          rcases relation_of_parentOf hparent with ⟨hmem, hrelation⟩
          rcases (h parent hmem).chain_eq hrelation with ⟨hfields, hstem⟩
          show plan.dialect.quote (trimStem parent.stem) = plan.dialect.quote parent.chain.spelled
          rw [hstem, Chain.trimStem_stem hfields]
  | plan sub =>
      have hmapped : (plan.mapPlan sub).2 = mapped := Except.ok.inj (congrArg Prod.snd hmap)
      rw [← hmapped]
      exact (name_mapPlan plan sub).1
  | raw reference query => exact (name_mapRaw hmap).1

/-- The names that a call brings in are those of the joins that it opens. -/
theorem names_eq {call : Call} (h : plan.columns.Spelled) (herrors : (plan.apply call).errors = []) :
    (plan.names call).map (·.text plan.dialect) = (plan.openings call).map (·.name) := by
  cases call with
  | join kind target =>
      rcases mapTarget_of_openJoinOn herrors with ⟨next, mapped, hmap, hclean⟩
      have hclosed : plan.closeJoin.columns.Spelled := h
      have hname : mapped.name = (plan.sourceName target).text plan.dialect :=
        @text_sourceName plan.closeJoin next target mapped hclosed hmap hclean
      simp only [names, openings, opening?, hmap, List.map_cons, List.map_nil, Option.toList_some]
      rw [← hname]
      rfl
  | _ => simp [names, SourceName.text]

/-- What the sources are known by behind a call. -/
theorem correlations_call {call : Call} (h : plan.columns.Spelled)
    (herrors : (plan.apply call).errors = []) : (plan.apply call).correlations.Perm
      (plan.correlations ++ (plan.names call).map (·.text plan.dialect)) := by
  have hquoted : (plan.apply call).quotedTable = plan.quotedTable :=
    congrArg Grounds.quotedTable (continues_apply plan call).grounds
  rw [correlations, correlations, hquoted, names_eq h herrors, List.cons_append, ← List.map_append]
  exact ((openings_apply herrors).map _).cons plan.quotedTable

/-- An alias has relations that it is made of. -/
theorem fields_names {call : Call} (h : plan.columns.Spelled) {chain : Chain}
    (hchain : .related chain ∈ plan.names call) : chain.fields ≠ [] := by
  cases call with
  | join kind target =>
      have hname : .related chain = plan.sourceName target := List.mem_singleton.1 hchain
      cases target with
      | plan sub => cases hname
      | raw reference query => cases hname
      | model reference =>
          rw [sourceName] at hname
          cases hparent : plan.parentOf reference with
          | none =>
              rw [hparent] at hname
              cases hname
          | some parent =>
              rw [hparent] at hname
              cases hname
              rcases relation_of_parentOf hparent with ⟨hmem, hrelation⟩
              exact ((h parent hmem).chain_eq hrelation).1
  | _ =>
      rcases List.mem_map.1 hchain with ⟨opening, -, hown⟩
      cases hown

/-- The sources of a plan are known by these names, and each alias is made of some relations. -/
structure KnownBy (names : List SourceName) (plan : Plan) : Prop where
  correlations : plan.correlations.Perm (names.map (·.text plan.dialect))
  fields : ∀ chain ∈ SourceName.chains names, chain.fields ≠ []

theorem KnownBy.apply {names : List SourceName} {call : Call} (h : plan.KnownBy names)
    (hspelled : plan.columns.Spelled) (herrors : (plan.apply call).errors = []) :
    (plan.apply call).KnownBy (names ++ plan.names call) where
  correlations := by
    have hdialect : (plan.apply call).dialect = plan.dialect :=
      congrArg Grounds.dialect (continues_apply plan call).grounds
    rw [hdialect, List.map_append]
    calc List.Perm (plan.apply call).correlations
          (plan.correlations ++ (plan.names call).map (·.text plan.dialect)) :=
        correlations_call hspelled herrors
      List.Perm _ (names.map (·.text plan.dialect) ++
          (plan.names call).map (·.text plan.dialect)) := h.correlations.append_right _
  fields := by
    intro chain hchain
    rcases List.mem_append.1 (SourceName.mem_chains.1 hchain) with hold | hnew
    · exact h.fields chain (SourceName.mem_chains.2 hold)
    · exact fields_names hspelled hnew

/-- The primary target is known by a name of its own. -/
theorem knownBy_mapRoot {target : Target} (hjoins : plan.allJoins = [])
    (herrors : (plan.mapRoot target).errors = []) :
    (plan.mapRoot target).KnownBy [.own (target.ownName plan.dialect)] where
  correlations := by
    rcases mapTarget_of_mapRoot herrors with ⟨next, mapped, hmap, hclean⟩
    have hname := (standsAs_mapTarget hmap hclean).ownName_eq
    have hquoted : (plan.mapRoot target).quotedTable = mapped.quotedTable := by
      rw [mapRoot_of_ok hmap]
    have hcorrelations : (plan.mapRoot target).correlations = [mapped.quotedTable] := by
      rw [correlations, allJoins_mapRoot herrors, hjoins, hquoted]
      rfl
    rw [hcorrelations, hname]
    exact .of_eq rfl
  fields := by
    intro chain hchain
    cases SourceName.mem_chains.1 hchain with
    | tail _ hnone => cases hnone

end Plan

theorem Query.Listed.knownBy {query : Query} {names : List SourceName} (h : query.Listed names)
    (herrors : query.plan.errors = []) : query.plan.KnownBy names := by
  induction h with
  | start htarget => exact Plan.knownBy_mapRoot rfl herrors
  | @call query next names call h htarget hnext ih =>
      have hclean := (continues_call? hnext).errors_nil herrors
      rcases h.noted with ⟨notes, hnoted⟩
      have hplan := (call?_eq_some.1 hnext).2
      rw [hplan] at herrors ⊢
      exact (ih hclean).apply (hnoted.spelled hclean) herrors

/-! ## Statements -/

namespace Plan

variable {plan : Plan} {statement : Statement}

/-- A `SELECT` or a count with sources of these names: the primary one first, then those of the join
clauses, and none in the conditions or behind them. -/
def ReadsFrom (plan : Plan) (names : List String) (statement : Statement) : Prop :=
  ∃ (items : String) (source : Source) (joins : List JoinClause) (clauses : List Statement)
    (conditions order : Statement),
    statement = .ofText items ++ (.ofText " FROM " ++ source.render ++ .inRow clauses ++
      conditions ++ plan.groupClause ++ order ++ plan.paging) ∧
    List.Forall₂ (JoinReads plan.columns) joins clauses ∧
    names = source.name :: joins.map (·.opening.name) ∧
    WhereReads plan.columns (plan.conditions.getD []) conditions ∧ plan.orderClause = .ok order

theorem queryReads_statement {action : Action} (haction : action ∈ [Action.select, .count])
    (h : plan.statement action = .ok statement) :
    ∃ items clauses, statement = .ofText items ++ clauses ∧ plan.QueryReads clauses := by
  have hreads := conditionsRead_statement h
  rcases List.mem_pair.1 haction with rfl | rfl
  · rcases hreads with ⟨clauses, heq, hread⟩
    exact ⟨_, clauses, heq, hread⟩
  · rcases hreads with ⟨clauses, heq, hread⟩
    exact ⟨_, clauses, heq, hread⟩

/-- The sources that a statement lists are those of the plan. -/
theorem readsFrom_statement {action : Action} (haction : action ∈ [Action.select, .count])
    (hsource : ∃ source, plan.source = some source ∧ source.name = plan.quotedTable)
    (h : plan.statement action = .ok statement) : plan.ReadsFrom plan.correlations statement := by
  rcases queryReads_statement haction h with
    ⟨items, _, rfl, clauses, conditions, order, rfl, hclauses, hwhere, horder⟩
  rcases hsource with ⟨source, hsource, hname⟩
  refine ⟨items, source, plan.allJoins, clauses, conditions, order, ?_, hclauses, ?_, hwhere, horder⟩
  · rw [fromClause, hsource]
  · rw [correlations, hname, List.map_map]
    rfl

end Plan

namespace Query

/-- The sources of a `SELECT` or a count are known by the names that the calls have brought in: each
related reference by the alias of its relations, and any other source by a name of its own.  So they
are told apart if the names of their own are, the aliases are, and none of these is among those.
Then each column is written behind the name of one source only.  Aliases tell chains of relations
apart where quoting tells names apart and fields have no underscore or hyphen in them. -/
theorem Listed.names_apart {query : Query} {names : List SourceName} (h : query.Listed names)
    (herrors : query.plan.errors = []) :
    (∃ notes, query.Noted notes ∧
      ∀ action ∈ [Action.select, .count], ∀ statement,
        query.plan.statement action = .ok statement → ∃ listed segments,
          query.plan.ReadsFrom listed statement ∧
          listed.Perm (names.map (·.text query.plan.dialect)) ∧
          (listed.Nodup ↔ (SourceName.owns names).Nodup ∧
            (SourceName.aliases query.plan.dialect names).Nodup ∧
            ∀ name ∈ SourceName.aliases query.plan.dialect names,
              name ∉ SourceName.owns names) ∧
          query.plan.segments notes action = .ok segments ∧
          Segment.text segments = symbols statement ∧
          (listed.Nodup → ∀ name, .column name ∈ segments → listed.count name.source = 1)) ∧
    (Function.Injective query.plan.dialect.quote →
      (∀ chain ∈ SourceName.chains names, chain.Plain) →
      ((SourceName.aliases query.plan.dialect names).Nodup ↔
        (SourceName.chains names).Nodup)) := by
  have hknown := h.knownBy herrors
  rcases h.noted with ⟨notes, hnoted⟩
  have hresolves := hnoted.resolves herrors
  refine ⟨⟨notes, hnoted, ?_⟩, fun hquote => SourceName.nodup_aliases hquote hknown.fields⟩
  intro action haction statement hstatement
  have hreads := Plan.readsFrom_statement haction hresolves.source hstatement
  have hmade := Plan.makes_segments hresolves.covers hresolves.groups action
  rw [hstatement] at hmade
  rcases hmade.exists_of_ok with ⟨segments, hsegments, hmakes⟩
  refine ⟨query.plan.correlations, segments, hreads, hknown.correlations, ?_, hsegments,
    hmakes.text, ?_⟩
  · rw [hknown.correlations.nodup_iff]
    exact SourceName.nodup_texts
  · -- every column stands behind one of the names, and none of these is there twice
    intro hnodup name hname
    exact List.count_eq_one_of_mem hnodup (hmakes.listed name hname)

end Query

namespace Towns

/-- The names of the players, of their team and of the towns. -/
def names : List SourceName :=
  [.own "\"players\"", .related ⟨false, ["team"]⟩, .own "\"t\""]

theorem listed_named : named.Listed names := by
  have hstart : start.Listed _ := .start (.model Lineups.standard_players)
  have hjoined : start.call? (.join .leftOuter (.model (team.1.target catalog))) = some joined :=
    rfl
  have hlisted : joined.call? .references = some listed := rfl
  have hnamed : listed.call? (.addField ⟨6⟩) = some named := rfl
  have hteam : ∀ target, (Call.join .leftOuter (.model (team.1.target catalog))).target? =
      some target → target.Standard := by
    rintro _ ⟨⟩
    exact .model Lineups.standard_team
  exact .call (.call (.call hstart hteam hjoined) (by rintro _ ⟨⟩) hlisted) (by rintro _ ⟨⟩) hnamed

/-- A lazy join, a relation and the primary table are told apart, and so are their columns. -/
theorem names_apart_named : ∃ statement listed segments,
    named.plan.statement .count = .ok statement ∧ statement.sql .postgres = counted ∧
      named.plan.ReadsFrom listed statement ∧
      listed.Perm ["\"players\"", "\"team\"", "\"t\""] ∧ listed.Nodup ∧
      Segment.text segments = symbols statement ∧
      ∀ name, .column name ∈ segments → listed.count name.source = 1 := by
  rcases listed_named.names_apart rfl with ⟨⟨notes, -, hnames⟩, haliases⟩
  have hcounted : ∃ statement, named.plan.statement .count = .ok statement ∧
      statement.sql .postgres = counted := ⟨_, rfl, rfl⟩
  rcases hcounted with ⟨statement, hstatement, hsql⟩
  rcases hnames .count (by decide) statement hstatement with
    ⟨listed, segments, hreads, hperm, hnodup, -, htext, hcount⟩
  have hplain : ∀ chain ∈ SourceName.chains names, ∀ field ∈ chain.fields,
      '_' ∉ field.toList ∧ '-' ∉ field.toList := by decide
  -- the only alias is that of the team, and it is no table's name
  have hapart : listed.Nodup :=
    hnodup.2 ⟨by decide, (haliases (Dialect.quoteWith_injective _) hplain).2 (by decide), by decide⟩
  exact ⟨statement, listed, segments, hstatement, hsql, hreads, hperm, hapart, htext, hcount hapart⟩

end Towns

namespace Rosters

/-- Players of the same team, by a second reference to the players. -/
def likened : Query :=
  ⟨.joining, paired.plan.apply (.on [.compare (.field ⟨4⟩) .equal (.field ⟨9⟩)])⟩

def compared : String :=
  "SELECT count(*) FROM \"players\" INNER JOIN \"players\"" ++
    " ON \"players\".\"team_id\" = \"players\".\"team_id\""

/-- A table that is joined with itself is known by one name, and its key is compared with itself. -/
theorem names_clash : (∃ notes, likened.Noted notes) ∧ likened.plan.errors = [] ∧
    ∃ statement, likened.plan.statement .count = .ok statement ∧
      statement.sql .postgres = compared ∧
      likened.plan.ReadsFrom ["\"players\"", "\"players\""] statement ∧
      ¬ ["\"players\"", "\"players\""].Nodup := by
  have hstart : (start "nick").Noted {} := .start (.model Lineups.standard_players)
  have hpaired : (start "nick").call? (.join .inner
      (.model (unrelated.1.target (catalog "nick")))) = some paired := rfl
  have hlikened : paired.call? (.on [.compare (.field ⟨4⟩) .equal (.field ⟨9⟩)]) = some likened :=
    rfl
  have htarget : ∀ target, (Call.join .inner (.model (unrelated.1.target
      (catalog "nick")))).target? = some target → target.Standard := by
    rintro _ ⟨⟩
    exact .model Lineups.standard_players
  have hcounted : ∃ statement, likened.plan.statement .count = .ok statement ∧
      statement.sql .postgres = compared := ⟨_, rfl, rfl⟩
  rcases hcounted with ⟨statement, hstatement, hsql⟩
  have hreads := Plan.readsFrom_statement (by decide) ⟨_, rfl, rfl⟩ hstatement
  exact ⟨⟨_, .call (.call hstart htarget hpaired) (by rintro _ ⟨⟩) hlikened⟩, rfl, statement,
    hstatement, hsql, hreads, by decide⟩

end Rosters

end FieldQuery
