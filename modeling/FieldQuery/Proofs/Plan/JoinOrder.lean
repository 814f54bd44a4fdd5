import FieldQuery.Proofs.Condition.Clauses
import FieldQuery.Proofs.Plan.Aliases

/-!
# The order of join clauses

Joins are opened by their own calls, and lazily when a field is asked for.  A join stays open while
conditions may be added to it, and only the next join or the `WHERE` clause puts it behind the
finished ones; a lazy join is finished at once.  So the clauses of a `SELECT` stand in the order in
which the joins were opened, except that the one that is still open stands behind the lazy joins
that were opened after it.

Main definitions:

- `Opening`: a join as it was opened.
- `JoinLog`: the joins that a run of calls has opened; `JoinLog.opened`: in that order,
  `JoinLog.written`: in the order of their clauses.
- `Query.Opened`: a query behind calls, and what they have opened.

Main statement: `Query.Opened.joins_written`.
-/

namespace FieldQuery

/-! ## What calls open -/

/-- A join as it was opened: how, with which source, and under which alias. -/
structure Opening where
  kind : JoinKind
  source : Source
  correlation : Option String

/-- A join's clause up to its condition. -/
def Opening.front (opening : Opening) : Statement :=
  .ofText (" " ++ opening.kind.sql ++ " ") ++ opening.source.spelled opening.correlation ++
    .ofText " ON "

def JoinClause.opening (join : JoinClause) : Opening :=
  ⟨join.kind, join.source, join.correlation⟩

theorem JoinClause.front_opening (join : JoinClause) :
    join.opening.front =
      .ofText (" " ++ join.kind.sql ++ " ") ++ join.renderSource ++ .ofText " ON " := by
  rw [renderSource_eq]
  rfl

namespace Plan

/-- What a join with a target opens. -/
def opening? (plan : Plan) (kind : JoinKind) (target : Target) : Option Opening :=
  match (plan.closeJoin.mapTarget target).2 with
  | .ok mapped => some ⟨kind, mapped.source, mapped.correlation⟩
  | .error _ => none

/-- What is opened when a field is asked for: its lazy join, unless an expression stands for the
field already. -/
def lazyOpening? (plan : Plan) (token : Token) : Option Opening :=
  match plan.columns.find? token with
  | none => none
  | some entry =>
    match entry.selectTarget, entry.lazyJoin with
    | none, some join =>
      let opened := join ⟨entry.quotedTable, entry.quotedColumn, plan.dialect⟩
      some ⟨opened.kind, .named opened.table, opened.correlation⟩
    | _, _ => none

/-- What is opened when fields are asked for in turn. -/
def lazyOpenings : Plan → List Token → List Opening
  | _, [] => []
  | plan, token :: rest =>
    (plan.lazyOpening? token).toList ++ (plan.addField token).lazyOpenings rest

end Plan

/-- The joins that were opened so far, around the one that is still open. -/
structure JoinLog where
  earlier : List Opening := []
  pending : Option Opening := none
  later : List Opening := []

namespace JoinLog

/-- All joins, in the order in which they were opened. -/
def opened (log : JoinLog) : List Opening :=
  log.earlier ++ log.pending.toList ++ log.later

/-- All joins, in the order in which their clauses are written. -/
def written (log : JoinLog) : List Opening :=
  log.earlier ++ log.later ++ log.pending.toList

/-- The log behind a call on a plan. -/
def after (log : JoinLog) (plan : Plan) : Call → JoinLog
  | .join kind target => ⟨log.opened, plan.opening? kind target, []⟩
  | .startWhere => ⟨log.opened, none, []⟩
  | .fields tokens => { log with later := log.later ++ plan.unwanted.lazyOpenings tokens }
  | .addField token => { log with later := log.later ++ (plan.lazyOpening? token).toList }
  | _ => log

variable {log : JoinLog}

/-- The two orders differ only if there are lazy joins behind an open one. -/
theorem written_eq_opened (h : log.pending = none ∨ log.later = []) : log.written = log.opened := by
  rcases h with hpending | hlater
  · simp [written, opened, hpending]
  · simp [written, opened, hlater]

theorem mem_written {opening : Opening} : opening ∈ log.written ↔
    opening ∈ log.earlier ∨ opening ∈ log.pending ∨ opening ∈ log.later := by
  simp only [written, List.mem_append, Option.mem_toList]
  tauto

theorem mem_opened {opening : Opening} : opening ∈ log.opened ↔ opening ∈ log.written := by
  rw [mem_written]
  simp [opened]

/-- No join is forgotten. -/
theorem written_subset_after (log : JoinLog) (plan : Plan) (call : Call) :
    log.written ⊆ (log.after plan call).written := by
  intro opening hmem
  have hearlier : opening ∈ log.opened := mem_opened.2 hmem
  have hcases := mem_written.1 hmem
  cases call with
  | join kind target => exact mem_written.2 (.inl hearlier)
  | startWhere => exact mem_written.2 (.inl hearlier)
  | fields tokens =>
      refine mem_written.2 (hcases.imp_right (.imp_right fun hlater => ?_))
      exact List.mem_append_left _ hlater
  | addField token =>
      refine mem_written.2 (hcases.imp_right (.imp_right fun hlater => ?_))
      exact List.mem_append_left _ hlater
  | _ => exact hmem

end JoinLog

/-- A query behind calls on its primary target, and the joins that these have opened. -/
inductive Query.Opened (target : Target) : Query → JoinLog → Prop
  | start {dialect : Dialect} {catalog : Catalog} {cacheable : Bool} {lazyJoins : List JoinRule} :
      Opened target (.start dialect catalog cacheable lazyJoins target) {}
  | call {query next : Query} {log : JoinLog} {call : Call} (h : Opened target query log)
      (hnext : query.call? call = some next) : Opened target next (log.after query.plan call)

/-! ## One call -/

namespace Plan

variable {plan next : Plan} {log : JoinLog}

/-- The joins of a plan are those of a log, the finished ones in the order of their clauses. -/
structure Logs (log : JoinLog) (plan : Plan) : Prop where
  joins : plan.joins.map (·.opening) = log.earlier ++ log.later
  pending : plan.openJoin.map (·.opening) = log.pending

theorem Logs.of_eq (h : plan.Logs log) (hjoins : next.joins = plan.joins)
    (hopen : next.openJoin.map (·.opening) = plan.openJoin.map (·.opening)) : next.Logs log where
  joins := (congrArg (List.map (·.opening)) hjoins).trans h.joins
  pending := hopen.trans h.pending

theorem Logs.allJoins (h : plan.Logs log) : plan.allJoins.map (·.opening) = log.written := by
  have hpending : plan.openJoin.toList.map (·.opening) = log.pending.toList := by
    rw [← h.pending]
    cases plan.openJoin <;> rfl
  rw [Plan.allJoins, List.map_append, h.joins, hpending, JoinLog.written]

/-- Closing the open join leaves the joins in the order in which they were opened, as long as no
lazy join has been opened after it. -/
theorem Logs.closeJoin (h : plan.Logs log) (hlater : log.later = []) :
    plan.closeJoin.Logs ⟨log.opened, none, []⟩ where
  joins := by
    have hall := h.allJoins
    rw [JoinLog.written_eq_opened (.inr hlater)] at hall
    simpa [Plan.closeJoin] using hall
  pending := rfl

theorem Logs.openJoinOn {kind : JoinKind} {target : Target} (h : plan.Logs log)
    (hlater : log.later = []) (herrors : (plan.openJoinOn kind target).errors = []) :
    (plan.openJoinOn kind target).Logs ⟨log.opened, plan.opening? kind target, []⟩ := by
  rcases mapTarget_of_openJoinOn herrors with ⟨next, mapped, hmap, hclean⟩
  have hmaps := maps_mapTarget hmap hclean
  have hopening : plan.opening? kind target = some ⟨kind, mapped.source, mapped.correlation⟩ := by
    simp only [opening?, hmap]
  rw [openJoinOn_of_ok hmap, hopening]
  refine ⟨?_, rfl⟩
  rw [hmaps.joins]
  exact (h.closeJoin hlater).joins

/-- Conditions are added to the open join, which stays what it was. -/
theorem Logs.addOn (h : plan.Logs log) (filters : List Filter) : (plan.addOn filters).Logs log := by
  unfold Plan.addOn
  split
  · rename_i join hopen
    refine h.of_eq rfl ?_
    rw [hopen]
    rfl
  · exact h.of_eq rfl rfl

theorem Logs.addReferences (h : plan.Logs log) : plan.addReferences.Logs log := by
  unfold Plan.addReferences
  split
  · exact h.of_eq rfl rfl
  · have hcleared : ({ plan with links := [] } : Plan).Logs log := h.of_eq rfl rfl
    exact hcleared.addOn _

theorem Logs.addFilter (h : plan.Logs log) (filter : Filter) :
    (plan.addFilter filter).Logs log := by
  unfold Plan.addFilter
  split
  · exact h.of_eq rfl rfl
  · rename_i join hopen
    refine h.of_eq rfl ?_
    rw [hopen]
    rfl
  · exact h.of_eq rfl rfl

theorem Logs.addFilters (h : plan.Logs log) (filters : List Filter) :
    (filters.foldl Plan.addFilter plan).Logs log := by
  induction filters generalizing plan with
  | nil => exact h
  | cons filter rest ih => exact ih (h.addFilter filter)

/-- A field's lazy join goes behind the finished joins, whether or not one is open. -/
theorem Logs.addField {token : Token} (h : plan.Logs log)
    (herrors : (plan.addField token).errors = []) :
    (plan.addField token).Logs
      { log with later := log.later ++ (plan.lazyOpening? token).toList } := by
  rcases addField_cases herrors with ⟨entry, hfound, ⟨join, htarget, hlazy, heq⟩ | ⟨hplain, -, heq⟩⟩
  · have hopening : ∃ clause : JoinClause, plan.lazyOpening? token = some clause.opening ∧
        (plan.openLazyJoin entry join).joins = plan.joins ++ [clause] ∧
        (plan.openLazyJoin entry join).openJoin = plan.openJoin := by
      rw [openLazyJoin, touch_eq]
      refine ⟨_, ?_, rfl, rfl⟩
      simp only [lazyOpening?, hfound, htarget, hlazy, JoinClause.opening]
    rcases hopening with ⟨clause, hclause, hjoins, hopen⟩
    rw [heq, hclause]
    refine ⟨?_, ?_⟩
    · rw [hjoins, List.map_append, h.joins, List.append_assoc]
      rfl
    · rw [hopen]
      exact h.pending
  · have hnone : plan.lazyOpening? token = none := by
      simp only [lazyOpening?, hfound]
      split
      · rename_i join htarget hlazy
        simp [htarget, hlazy] at hplain
      · rfl
    rw [heq, hnone, Option.toList_none, List.append_nil]
    exact h.of_eq rfl rfl

theorem Logs.addFields {tokens : List Token} (h : plan.Logs log)
    (herrors : (tokens.foldl Plan.addField plan).errors = []) :
    (tokens.foldl Plan.addField plan).Logs
      { log with later := log.later ++ plan.lazyOpenings tokens } := by
  induction tokens generalizing plan log with
  | nil => simpa [lazyOpenings] using h
  | cons token rest ih =>
      have hclean : (plan.addField token).errors = [] :=
        (continues_addFields rest _).errors_nil herrors
      have hrest := ih (h.addField hclean) herrors
      simpa [lazyOpenings] using hrest

/-- A call opens what the log says of it; only a plan without lazy joins behind the open one is
asked for another join or for the `WHERE` clause. -/
theorem Logs.apply {call : Call} (h : plan.Logs log)
    (hlater : call.kind = .join ∨ call.kind = .startWhere → log.later = [])
    (herrors : (plan.apply call).errors = []) : (plan.apply call).Logs (log.after plan call) := by
  cases call with
  | join kind target => exact h.openJoinOn (hlater (.inl rfl)) herrors
  | startWhere =>
      have hclosed := h.closeJoin (hlater (.inr rfl))
      exact hclosed.of_eq rfl rfl
  | on filters => exact h.addOn filters
  | references => exact h.addReferences
  | filter filters => exact h.addFilters filters
  | fields tokens =>
      have hcleared : plan.unwanted.Logs log := h.of_eq rfl rfl
      exact hcleared.addFields herrors
  | addField token => exact h.addField herrors
  | assign token value =>
      show (plan.assign token value).Logs log
      unfold Plan.assign
      split <;> exact h.of_eq rfl rfl
  | orderBy operand direction =>
      show (plan.orderBy operand direction).Logs log
      unfold Plan.orderBy
      split
      · exact h.of_eq rfl rfl
      · split <;> exact h.of_eq rfl rfl
  | groupBy token =>
      show (plan.groupBy token).Logs log
      unfold Plan.groupBy
      split <;> exact h.of_eq rfl rfl
  | discardOrder => exact h.of_eq rfl rfl
  | limit count => exact h.of_eq rfl rfl
  | offset count => exact h.of_eq rfl rfl
  | withoutCache => exact h.of_eq rfl rfl

end Plan

/-! ## A run of calls -/

namespace Query

/-- Fields are asked for in the last stage only, which admits no join any more. -/
structure Logs (log : JoinLog) (query : Query) : Prop where
  later : query.stage ≠ .selecting → log.later = []
  plan : query.plan.Logs log

/-- A call that asks for fields leads to the last stage. -/
theorem Logs.of_call {next : Query} {log : JoinLog} {query : Query} {call : Call}
    (h : query.Logs log) (hnext : query.call? call = some next) (herrors : next.plan.errors = []) :
    next.Logs (log.after query.plan call) := by
  rcases call?_eq_some.1 hnext with ⟨hafter, hplan⟩
  -- a stage that admits joins comes before the last one
  have hbefore : call.kind = .join ∨ call.kind = .startWhere → log.later = [] := by
    intro hkind
    refine h.later fun hselecting => ?_
    rw [hselecting] at hafter
    rcases hkind with hkind | hkind <;> rw [hkind] at hafter <;> cases hafter
  refine ⟨fun hstage => ?_, ?_⟩
  · have hearlier : query.stage ≠ .selecting ∧ call.kind ≠ .shape := by
      constructor
      · exact fun hlast => hstage (Stage.selecting_of_after hafter (.inl hlast)).1
      · exact fun hshape => hstage (Stage.selecting_of_after hafter (.inr hshape)).1
    have hnone := h.later hearlier.1
    cases call with
    | fields tokens => exact absurd rfl hearlier.2
    | addField token => exact absurd rfl hearlier.2
    | join kind target => rfl
    | startWhere => rfl
    | _ => exact hnone
  · rw [hplan] at herrors ⊢
    exact h.plan.apply hbefore herrors

theorem Opened.logs {target : Target} {query : Query} {log : JoinLog} (h : query.Opened target log)
    (herrors : query.plan.errors = []) : query.Logs log := by
  induction h with
  | start =>
      rcases Plan.mapTarget_of_mapRoot herrors with ⟨next, mapped, hmap, hclean⟩
      have hmaps := Plan.maps_mapTarget hmap hclean
      refine ⟨fun _ => rfl, ?_⟩
      -- mapping the primary target opens no join
      show (Plan.mapRoot _ target).Logs {}
      rw [Plan.mapRoot_of_ok hmap]
      refine ⟨?_, ?_⟩
      · exact congrArg (List.map (·.opening)) hmaps.joins
      · exact congrArg (Option.map (·.opening)) hmaps.openJoin
  | call _ hnext ih => exact (ih ((continues_call? hnext).errors_nil herrors)).of_call hnext herrors

/-- The join clauses of a `SELECT` or a count are those of the joins that were opened: in the order
in which they were opened, but for the one that is still open, which stands behind the lazy joins
that were opened after it. -/
theorem Opened.joins_written {target : Target} {query : Query} {log : JoinLog}
    (h : query.Opened target log) (herrors : query.plan.errors = []) :
    (query.plan.openJoin = none ∨ query.stage ≠ .selecting → log.written = log.opened) ∧
      ∀ action ∈ [Action.select, Action.count], ∀ statement,
        query.plan.statement action = .ok statement → ∃ items clauses conditions order,
          statement = .ofText items ++ (query.plan.fromClause ++ .inRow clauses ++ conditions ++
            query.plan.groupClause ++ order ++ query.plan.paging) ∧
          List.Forall₂ (fun opening clause => ∃ on, clause = opening.front ++ on)
            log.written clauses ∧
          WhereReads query.plan.columns (query.plan.conditions.getD []) conditions ∧
          query.plan.orderClause = .ok order := by
  rcases h.logs herrors with ⟨hlater, hlogs⟩
  refine ⟨?_, ?_⟩
  · rintro (hnone | hstage)
    · have hpending : log.pending = none := by
        rw [← hlogs.pending, hnone]
        rfl
      exact JoinLog.written_eq_opened (.inl hpending)
    · exact JoinLog.written_eq_opened (.inr (hlater hstage))
  · intro action haction statement hstatement
    have hreads := Plan.conditionsRead_statement hstatement
    have hquery : ∃ items clauses, statement = .ofText items ++ clauses ∧
        query.plan.QueryReads clauses := by
      rcases List.mem_pair.1 haction with rfl | rfl
      · rcases hreads with ⟨clauses, hclauses, hread⟩
        exact ⟨_, clauses, hclauses, hread⟩
      · rcases hreads with ⟨clauses, hclauses, hread⟩
        exact ⟨_, clauses, hclauses, hread⟩
    rcases hquery with ⟨items, _, rfl, clauses, conditions, order, rfl, hclauses, hwhere, horder⟩
    refine ⟨items, clauses, conditions, order, rfl, ?_, hwhere, horder⟩
    rw [← hlogs.allJoins, List.forall₂_map_left_iff]
    refine hclauses.imp ?_
    rintro join clause ⟨on, rfl, -⟩
    exact ⟨on, by rw [join.front_opening]⟩

end Query

namespace Towns

/-- The name of a team is looked up in another table. -/
def rule : JoinRule where
  table := "teams"
  column := "name"
  join site :=
    { kind := .leftOuter
      table := "\"towns\""
      correlation := some "\"t\""
      on := "\"t\".\"team\" = " ++ site.quotedTable ++ "." ++ site.quotedColumn
      select := "\"t\".\"name\"" }

def catalog : Catalog :=
  Rosters.catalog "nick"

def players : Reference × Forest :=
  Rosters.planted "nick"

def team : Reference × Forest :=
  Rosters.entered "nick"

def start : Query :=
  .start .postgres catalog false [rule] (.model (players.1.target catalog))

def joined : Query :=
  ⟨.joining, start.plan.apply (.join .leftOuter (.model (team.1.target catalog)))⟩

def listed : Query :=
  ⟨.joining, joined.plan.apply .references⟩

/-- The names of the teams are asked for. -/
def named : Query :=
  ⟨.selecting, listed.plan.apply (.addField ⟨6⟩)⟩

def teamJoin : Opening :=
  ⟨.leftOuter, .named "\"teams\"", some "\"team\""⟩

def townJoin : Opening :=
  ⟨.leftOuter, .named "\"towns\"", some "\"t\""⟩

def counted : String :=
  "SELECT count(*) FROM \"players\"" ++
    " LEFT OUTER JOIN \"towns\" AS \"t\" ON \"t\".\"team\" = \"team\".\"name\"" ++
    " LEFT OUTER JOIN \"teams\" AS \"team\" ON \"players\".\"team_id\" = \"team\".\"id\""

/-- The towns are joined on a column of the teams, which are joined behind them. -/
theorem joins_written_named :
    ∃ log, Query.Opened (.model (players.1.target catalog)) named log ∧
      log.opened = [teamJoin, townJoin] ∧
      ∃ statement clauses, named.plan.statement .count = .ok statement ∧
        statement.sql .postgres = counted ∧
        List.Forall₂ (fun opening clause => ∃ on, clause = opening.front ++ on)
          [townJoin, teamJoin] clauses ∧
        (Statement.inRow clauses).pieces <:+: statement.pieces := by
  have hjoined : start.call? (.join .leftOuter (.model (team.1.target catalog))) = some joined :=
    rfl
  have hlisted : joined.call? .references = some listed := rfl
  have hnamed : listed.call? (.addField ⟨6⟩) = some named := rfl
  have hopened : Query.Opened (.model (players.1.target catalog)) named _ :=
    .call (.call (.call .start hjoined) hlisted) hnamed
  have hcounted : ∃ statement, named.plan.statement .count = .ok statement ∧
      statement.sql .postgres = counted := ⟨_, rfl, rfl⟩
  rcases hcounted with ⟨statement, hstatement, hsql⟩
  have hwritten := (hopened.joins_written rfl).2 .count (by decide) statement hstatement
  rcases hwritten with ⟨items, clauses, conditions, order, heq, hclauses, -, -⟩
  have hinfix : (Statement.inRow clauses).pieces <:+: statement.pieces := by
    refine ⟨(Statement.ofText items ++ named.plan.fromClause).pieces,
      (conditions ++ named.plan.groupClause ++ order ++ named.plan.paging).pieces, ?_⟩
    rw [heq]
    simp only [Statement.pieces_append, List.append_assoc]
  exact ⟨_, hopened, rfl, statement, clauses, hstatement, hsql, hclauses, hinfix⟩

end Towns

end FieldQuery
