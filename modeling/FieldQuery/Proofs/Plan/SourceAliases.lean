import FieldQuery.Proofs.Dialect.Quoting
import FieldQuery.Proofs.Plan.SourceNames
import FieldQuery.Proofs.Plan.Stages

/-!
# Aliases of sources

A joined relation and a query written by hand get an alias of their own, which is quoted as one
identifier.  A plan that is read as a derived table is given the quoted name of its primary table.
That name is handed on through any number of plans, and at the innermost one it is an identifier if
a query written by hand stands there, but the qualified name of a table if a model does.

Main definitions:

- `Source.aliases`, `Opening.aliases`, `Plan.aliases`: what stands behind `AS` in a list of sources.
- `AliasOrigin`: an alias with what it was made of.
- `Query.Aliased`: a query behind calls, nested to any depth, and where its aliases come from.

Main statements: `JoinClause.sql_renderSource`, aliases stand behind their sources, and
`Query.Aliased.single_iff`.
-/

namespace FieldQuery

/-! ## What stands behind `AS` -/

def Source.aliases : Source → List String
  | .named _ => []
  | .derived _ correlation => [correlation]

/-- A source without its alias. -/
def Source.bare : Source → Statement
  | .named quoted => .ofText quoted
  | .derived query _ => .ofText "(" ++ query ++ .ofText ")"

/-- The alias of a derived table and that of a related one. -/
def Opening.aliases (opening : Opening) : List String :=
  opening.source.aliases ++ opening.correlation.toList

/-- A text behind a source for each of its aliases. -/
def aliasText (aliases : List String) : String :=
  String.join (aliases.map (" AS " ++ ·))

namespace Statement

theorem partsSql_text (dialect : Dialect) (parts : List SqlPart) (text : String) (next : Nat) :
    partsSql dialect next (parts ++ [.text text]) = partsSql dialect next parts ++ text := by
  induction parts generalizing next with
  | nil => simp [partsSql]
  | cons part rest ih =>
      cases part with
      | text sql => rw [List.cons_append, partsSql, partsSql, ih, String.append_assoc]
      | mark => rw [List.cons_append, partsSql, partsSql, ih, String.append_assoc]

theorem sql_append_ofText (statement : Statement) (text : String) (dialect : Dialect) :
    (statement ++ ofText text).sql dialect = statement.sql dialect ++ text :=
  partsSql_text dialect statement.parts text 1

end Statement

theorem Source.sql_render (source : Source) (dialect : Dialect) :
    source.render.sql dialect = source.bare.sql dialect ++ aliasText source.aliases := by
  cases source with
  | named quoted => simp [render, bare, aliases, aliasText, String.join]
  | derived query correlation =>
      have hclosing : ") AS " ++ correlation = ")" ++ (" AS " ++ correlation) := by
        rw [← String.append_assoc]
        rfl
      rw [render, bare, Statement.sql_append_ofText, Statement.sql_append_ofText, hclosing]
      simp [aliases, aliasText, String.join, String.append_assoc]

/-- Behind a source its aliases stand, and nothing else. -/
theorem JoinClause.sql_renderSource (join : JoinClause) (dialect : Dialect) :
    join.renderSource.sql dialect =
      join.source.bare.sql dialect ++ aliasText join.opening.aliases := by
  rcases join with ⟨kind, source, correlation, on⟩
  cases correlation with
  | none => simpa [renderSource, opening, Opening.aliases] using source.sql_render dialect
  | some name =>
      show (source.render ++ Statement.ofText (" AS " ++ name)).sql dialect = _
      rw [Statement.sql_append_ofText, source.sql_render dialect]
      cases source with
      | named quoted => simp [opening, Opening.aliases, Source.aliases, aliasText, String.join]
      | derived query correlation =>
          simp [opening, Opening.aliases, Source.aliases, aliasText, String.join,
            String.append_assoc]

namespace Plan

/-- What stands behind `AS` in the sources of a plan. -/
def aliases (plan : Plan) : List String :=
  plan.source.toList.flatMap (·.aliases) ++ (plan.allJoins.map (·.opening)).flatMap (·.aliases)

/-- A `SELECT` or a count whose sources have these aliases. -/
def Lists (aliases : List String) (statement : Statement) : Prop :=
  ∃ (items : String) (source : Source) (joins : List JoinClause) (clauses : List Statement)
    (rest : Statement),
    statement = .ofText items ++ (.ofText " FROM " ++ source.render ++ .inRow clauses ++ rest) ∧
    List.Forall₂ (fun join clause => ∃ on, clause = join.opening.front ++ on) joins clauses ∧
    aliases = source.aliases ++ (joins.map (·.opening)).flatMap (·.aliases)

theorem lists_statement {plan : Plan} {action : Action} (haction : action ∈ [Action.select, .count])
    {statement : Statement} {source : Source} (hsource : plan.source = some source)
    (h : plan.statement action = .ok statement) : Lists plan.aliases statement := by
  rcases queryReads_statement haction h with
    ⟨items, _, rfl, clauses, conditions, order, rfl, hclauses, -, -⟩
  refine ⟨items, source, plan.allJoins, clauses,
    conditions ++ plan.groupClause ++ order ++ plan.paging, ?_, ?_, ?_⟩
  · rw [fromClause, hsource]
    simp only [Statement.append_assoc]
  · refine hclauses.imp ?_
    rintro join clause ⟨on, rfl, -⟩
    exact ⟨on, by rw [join.front_opening]⟩
  · rw [aliases, hsource]
    simp

end Plan

/-! ## Where aliases come from -/

/-- What an alias was made of, in which dialect. -/
inductive AliasOrigin
  /-- A stem of relations, or the name of a query written by hand. -/
  | identifier (dialect : Dialect) (text : String)
  /-- The table of a model. -/
  | table (dialect : Dialect) (schema : Option String) (name : String)
  /-- What a lazy join says. -/
  | given (dialect : Dialect) (text : String)

namespace AliasOrigin

def dialect : AliasOrigin → Dialect
  | .identifier dialect _ | .table dialect _ _ | .given dialect _ => dialect

def text : AliasOrigin → String
  | .identifier dialect text => dialect.quote text
  | .table dialect schema name => dialect.quotedTable schema name
  | .given _ text => text

/-- One quoted identifier and nothing else. -/
def Single (origin : AliasOrigin) : Prop :=
  ∃ identifier, origin.text = origin.dialect.quote identifier

/-- No table in a schema; and of what a lazy join says, only a quoted identifier. -/
def Plain : AliasOrigin → Prop
  | .identifier _ _ => True
  | .table _ schema _ => schema.getD "" = ""
  | .given dialect text => ∃ identifier, text = dialect.quote identifier

theorem single_iff_plain {origin : AliasOrigin} {mark : Char}
    (hquote : origin.dialect.quote = Dialect.quoteWith mark) (hmark : mark ≠ '.') :
    origin.Single ↔ origin.Plain := by
  cases origin with
  | identifier dialect text => exact iff_of_true ⟨text, rfl⟩ trivial
  | given dialect text => exact Iff.rfl
  | table dialect schema name =>
      constructor
      · rintro ⟨identifier, hsame⟩
        exact ((Dialect.quotedTable_eq_quote hquote hmark).1 hsame).2
      · intro hschema
        exact ⟨name, (Dialect.quotedTable_eq_quote hquote hmark).2 ⟨rfl, hschema⟩⟩

end AliasOrigin

/-- The alias that a primary target brings along under its name: only a derived table has one. -/
def Target.derivedAlias (name : AliasOrigin) : Target → List AliasOrigin
  | .model _ => []
  | .plan _ | .raw _ _ => [name]

namespace Plan

/-- The alias of a joined target: a reference has the stem of the relation that leads to it. -/
def joinAlias (plan : Plan) (target : Target) (name : AliasOrigin) : List AliasOrigin :=
  match target with
  | .model reference =>
    (plan.parentOf reference).toList.map fun parent =>
      .identifier plan.dialect (trimStem parent.stem)
  | _ => [name]

/-- The aliases that lazy joins say. -/
def lazyAliases (plan : Plan) (call : Call) : List AliasOrigin :=
  ((plan.openings call).filterMap (·.correlation)).map (.given plan.dialect)

end Plan

mutual

/-- A query behind calls, where the name of its primary table comes from, and where the aliases
come from that it was given. -/
inductive Query.Aliased : Query → AliasOrigin → List AliasOrigin → Prop
  | start {dialect : Dialect} {catalog : Catalog} {cacheable : Bool} {lazyJoins : List JoinRule}
      {target : Target} {name : AliasOrigin} (h : Target.Aliased dialect target name) :
      Query.Aliased (.start dialect catalog cacheable lazyJoins target) name
        (target.derivedAlias name)
  | call {query next : Query} {call : Call} {name : AliasOrigin} {origins more : List AliasOrigin}
      (h : Query.Aliased query name origins) (hcall : Call.Aliased query.plan call more)
      (hnext : query.call? call = some next) : Query.Aliased next name (origins ++ more)

/-- A target, and where its name comes from: that of a plan is handed on. -/
inductive Target.Aliased : Dialect → Target → AliasOrigin → Prop
  | model (dialect : Dialect) (reference : ModelTarget) :
      Target.Aliased dialect (.model reference)
        (.table dialect reference.table.schema reference.table.name)
  | plan {dialect : Dialect} {sub : Query} {name : AliasOrigin} {origins : List AliasOrigin}
      (h : Query.Aliased sub name origins) : Target.Aliased dialect (.plan sub.plan) name
  | raw (dialect : Dialect) (reference : ModelTarget) (query : RawQuery) :
      Target.Aliased dialect (.raw reference query)
        (.identifier dialect (query.correlation.getD reference.table.name))

/-- A call, and where the aliases come from that it brings in. -/
inductive Call.Aliased : Plan → Call → List AliasOrigin → Prop
  | join {plan : Plan} {kind : JoinKind} {target : Target} {name : AliasOrigin}
      (h : Target.Aliased plan.dialect target name) :
      Call.Aliased plan (.join kind target) (plan.joinAlias target name)
  | plain {plan : Plan} {call : Call} (h : call.target? = none) :
      Call.Aliased plan call (plan.lazyAliases call)

end

/-! ## Names of primary tables -/

mutual

/-- A plan is named as its innermost primary target. -/
theorem Query.Aliased.quotedTable_eq : ∀ {query : Query} {name : AliasOrigin}
    {origins : List AliasOrigin}, query.Aliased name origins → query.plan.errors = [] →
      query.plan.quotedTable = name.text
  | _, _, _, .start h, herrors => by
      rcases Plan.mapTarget_of_mapRoot herrors with ⟨next, mapped, hmap, hclean⟩
      have hname : mapped.quotedTable = _ := h.name_eq (Plan.standsAs_mapTarget hmap hclean)
      show (Plan.mapRoot _ _).quotedTable = _
      rw [Plan.mapRoot_of_ok hmap]
      exact hname
  | _, _, _, .call h _ hnext, herrors => by
      -- no call takes the name back
      have hcontinues := Query.continues_call? hnext
      have hname := congrArg Grounds.quotedTable hcontinues.grounds
      exact hname.trans (h.quotedTable_eq (hcontinues.errors_nil herrors))

theorem Target.Aliased.name_eq : ∀ {dialect : Dialect} {target : Target} {name : AliasOrigin},
    target.Aliased dialect name → ∀ {source : Source} {quoted : String},
      target.StandsAs dialect source quoted → quoted = name.text
  | _, _, _, .model _ _, _, _, .model _ => rfl
  -- a plan has a name for its own, since one with errors has no statement to stand for it
  | _, _, _, .plan h, _, _, .plan hread =>
      h.quotedTable_eq (@Plan.errors_of_statement _ .select _ hread)
  | _, _, _, .raw _ _ _, _, _, .raw _ _ => rfl

end

/-! ## Aliases that come in -/

namespace Plan

variable {plan next : Plan} {target : Target} {name : AliasOrigin}

/-- What a mapped target is read from has the alias that its name gives it. -/
theorem aliases_source {mapped : MappedTarget} (h : target.Aliased plan.dialect name)
    (hmap : plan.mapTarget target = (next, .ok mapped)) (herrors : next.errors = []) :
    mapped.source.aliases = (target.derivedAlias name).map (·.text) := by
  have hstands := standsAs_mapTarget hmap herrors
  have hname := h.name_eq hstands
  generalize mapped.source = source at hstands
  generalize mapped.quotedTable = quoted at hstands hname
  -- a derived table has the name as its alias, and a table none
  cases hstands with
  | model reference => rfl
  | plan hread => exact congrArg (· :: []) hname
  | raw reference query => exact congrArg (· :: []) hname

theorem aliases_mapTarget {mapped : MappedTarget} {kind : JoinKind}
    (h : target.Aliased plan.dialect name)
    (hmap : plan.mapTarget target = (next, .ok mapped)) (herrors : next.errors = []) :
    (Opening.aliases ⟨kind, mapped.source, mapped.correlation⟩) =
      (plan.joinAlias target name).map (·.text) := by
  have hsource := aliases_source h hmap herrors
  rw [Opening.aliases, hsource]
  cases target with
  | model reference =>
      -- only a relation that leads to the reference gives it an alias
      rw [(mapModel_eq hmap).2.2]
      show _ = ((plan.parentOf reference).toList.map _).map _
      cases plan.parentOf reference with
      | none => rfl
      | some parent => rfl
  | plan sub =>
      rcases mapPlan_result plan sub with ⟨errors, touched, read, heq, -⟩
      have hmapped : (plan.mapPlan sub).2 = mapped := Except.ok.inj (congrArg Prod.snd hmap)
      rw [← hmapped, heq]
      rfl
  | raw reference query =>
      rcases mapRaw_result hmap with ⟨-, rfl⟩
      rfl

/-- A lazy join reads a table. -/
theorem source_of_lazyOpening? {token : Token} {opening : Opening}
    (h : plan.lazyOpening? token = some opening) : ∃ quoted, opening.source = .named quoted := by
  unfold lazyOpening? at h
  split at h
  · cases h
  · split at h
    · cases h
      exact ⟨_, rfl⟩
    · cases h

theorem source_of_lazyOpenings {tokens : List Token} {opening : Opening}
    (h : opening ∈ plan.lazyOpenings tokens) : ∃ quoted, opening.source = .named quoted := by
  induction tokens generalizing plan with
  | nil => cases h
  | cons token rest ih =>
      rcases List.mem_append.1 h with hfirst | hrest
      · exact source_of_lazyOpening? (Option.mem_toList.1 hfirst)
      · exact ih hrest

theorem source_of_openings {call : Call} (hcall : call.target? = none) {opening : Opening}
    (h : opening ∈ plan.openings call) : ∃ quoted, opening.source = .named quoted := by
  cases call with
  | join kind target => cases hcall
  | fields tokens => exact source_of_lazyOpenings h
  | addField token => exact source_of_lazyOpening? (Option.mem_toList.1 h)
  | _ => cases h

/-- The aliases that a call brings in. -/
theorem aliases_openings {call : Call} {more : List AliasOrigin} (h : call.Aliased plan more)
    (herrors : (plan.apply call).errors = []) :
    (plan.openings call).flatMap (·.aliases) = more.map (·.text) := by
  cases h with
  | @join _ kind target name htarget =>
      rcases mapTarget_of_openJoinOn herrors with ⟨next, mapped, hmap, hclean⟩
      have hclosed : target.Aliased plan.closeJoin.dialect name := htarget
      have haliases := @aliases_mapTarget plan.closeJoin next target name mapped kind hclosed hmap
        hclean
      have hsame : plan.closeJoin.joinAlias target name = plan.joinAlias target name := by
        cases target <;> rfl
      rw [openings, opening?, hmap]
      simpa [hsame] using haliases
  | plain hcall =>
      -- what is opened without a target is a lazy join, which reads no derived table
      have hsources : ∀ opening ∈ plan.openings call,
          opening.aliases = opening.correlation.toList := by
        intro opening hopening
        rcases source_of_openings hcall hopening with ⟨quoted, hsource⟩
        rw [Opening.aliases, hsource]
        rfl
      have hgiven : (plan.lazyAliases call).map (·.text) =
          (plan.openings call).filterMap (·.correlation) := by
        rw [lazyAliases, List.map_map]
        exact List.map_id _
      rw [hgiven, List.flatMap_congr hsources, ← List.filterMap_eq_flatMap_toList]

theorem aliases_apply {call : Call} {more : List AliasOrigin} (h : call.Aliased plan more)
    (herrors : (plan.apply call).errors = []) :
    (plan.apply call).aliases.Perm (plan.aliases ++ more.map (·.text)) := by
  have hsource : (plan.apply call).source = plan.source :=
    congrArg Grounds.source (continues_apply plan call).grounds
  rw [aliases, aliases, hsource, ← aliases_openings h herrors, List.append_assoc,
    ← List.flatMap_append]
  exact ((openings_apply herrors).flatMap_right _).append_left _

theorem aliases_mapRoot (h : target.Aliased plan.dialect name) (hjoins : plan.allJoins = [])
    (herrors : (plan.mapRoot target).errors = []) :
    (plan.mapRoot target).aliases = (target.derivedAlias name).map (·.text) := by
  rcases mapTarget_of_mapRoot herrors with ⟨next, mapped, hmap, hclean⟩
  have hsource : (plan.mapRoot target).source = some mapped.source := by
    rw [mapRoot_of_ok hmap]
  rw [aliases, allJoins_mapRoot herrors, hjoins, hsource, ← aliases_source h hmap hclean]
  simp

end Plan

/-! ## Queries -/

theorem Query.Aliased.aliases_perm : ∀ {query : Query} {name : AliasOrigin}
    {origins : List AliasOrigin}, query.Aliased name origins → query.plan.errors = [] →
      query.plan.aliases.Perm (origins.map (·.text))
  | _, _, _, .start h, herrors => .of_eq (Plan.aliases_mapRoot h rfl herrors)
  | _, _, _, .call h hcall hnext, herrors => by
      have hclean := (Query.continues_call? hnext).errors_nil herrors
      rw [(Query.call?_eq_some.1 hnext).2] at herrors ⊢
      rw [List.map_append]
      exact (Plan.aliases_apply hcall herrors).trans ((h.aliases_perm hclean).append_right _)

/-- A query without errors has a source. -/
theorem Query.Aliased.source_eq : ∀ {query : Query} {name : AliasOrigin}
    {origins : List AliasOrigin}, query.Aliased name origins → query.plan.errors = [] →
      ∃ source, query.plan.source = some source
  | _, _, _, .start _, herrors => (Plan.standsAs_mapRoot herrors).imp fun _ => And.left
  | _, _, _, .call h _ hnext, herrors => by
      have hcontinues := Query.continues_call? hnext
      have hsource := congrArg Grounds.source hcontinues.grounds
      rcases h.source_eq (hcontinues.errors_nil herrors) with ⟨source, hsome⟩
      exact ⟨source, hsource.trans hsome⟩

theorem Call.exists_aliased {plan : Plan} {call : Call}
    (htarget : ∀ target, call.target? = some target → ∃ name, target.Aliased plan.dialect name) :
    ∃ more, call.Aliased plan more := by
  cases call with
  | join kind target =>
      rcases htarget target rfl with ⟨name, hname⟩
      exact ⟨_, .join hname⟩
  | _ => exact ⟨_, .plain rfl⟩

mutual

/-- Every query behind calls has a name and aliases. -/
theorem Query.Legal.exists_aliased : ∀ {query : Query}, query.Legal →
    ∃ name origins, query.Aliased name origins
  | _, .start h => by
      rcases h.exists_aliased _ with ⟨name, hname⟩
      exact ⟨name, _, .start hname⟩
  | _, .call h htarget _ hnext => by
      rcases h.exists_aliased with ⟨name, origins, horigins⟩
      rcases Call.exists_aliased fun target htaken => (htarget target htaken).exists_aliased _ with
        ⟨more, hmore⟩
      exact ⟨name, _, .call horigins hmore hnext⟩

theorem Target.Legal.exists_aliased : ∀ {target : Target}, target.Legal → ∀ dialect,
    ∃ name, target.Aliased dialect name
  | _, .model reference, dialect => ⟨_, .model dialect reference⟩
  | _, .plan h, dialect => by
      rcases h.exists_aliased with ⟨name, origins, horigins⟩
      exact ⟨name, .plan horigins⟩
  | _, .raw reference query, dialect => ⟨_, .raw dialect reference query⟩

end

/-- The aliases that a `SELECT` or a count writes behind its sources are those that come from what
the calls brought in: the stem of a joined relation, the name of a query written by hand, and for a
plan the name that its innermost primary target has.  Each is one quoted identifier, unless a lazy
join says something else, or the innermost target of a plan is a model with a schema. -/
theorem Query.Aliased.single_iff {query : Query} {name : AliasOrigin} {origins : List AliasOrigin}
    (h : query.Aliased name origins) (herrors : query.plan.errors = []) :
    query.plan.quotedTable = name.text ∧
      (∀ action ∈ [Action.select, .count], ∀ statement,
        query.plan.statement action = .ok statement → Plan.Lists query.plan.aliases statement) ∧
      query.plan.aliases.Perm (origins.map (·.text)) ∧
      (∀ origin ∈ origins, ∀ mark, origin.dialect.quote = Dialect.quoteWith mark → mark ≠ '.' →
        (origin.Single ↔ origin.Plain)) ∧
      ∀ mark, query.plan.dialect.quote = Dialect.quoteWith mark → mark ≠ '.' →
        (∀ origin ∈ origins, origin.dialect = query.plan.dialect) →
        ((∀ written ∈ query.plan.aliases,
            ∃ identifier, written = query.plan.dialect.quote identifier) ↔
          ∀ origin ∈ origins, origin.Plain) := by
  rcases h.source_eq herrors with ⟨source, hsource⟩
  have hperm := h.aliases_perm herrors
  have hsingle : ∀ origin ∈ origins, ∀ mark, origin.dialect.quote = Dialect.quoteWith mark →
      mark ≠ '.' → (origin.Single ↔ origin.Plain) :=
    fun origin _ mark hquote hmark => AliasOrigin.single_iff_plain hquote hmark
  refine ⟨h.quotedTable_eq herrors, ?_, hperm, hsingle, ?_⟩
  · intro action haction statement hstatement
    exact Plan.lists_statement haction hsource hstatement
  · intro mark hquote hmark hdialect
    have horigin : ∀ origin ∈ origins,
        ((∃ identifier, origin.text = query.plan.dialect.quote identifier) ↔ origin.Plain) := by
      intro origin hmem
      rw [← hdialect origin hmem] at hquote ⊢
      exact hsingle origin hmem mark hquote hmark
    constructor
    · intro hall origin hmem
      exact (horigin origin hmem).1 (hall _ (hperm.mem_iff.2 (List.mem_map_of_mem hmem)))
    · intro hplain written hwritten
      rcases List.mem_map.1 (hperm.mem_iff.1 hwritten) with ⟨origin, hmem, rfl⟩
      exact (horigin origin hmem).2 (hplain origin hmem)

namespace Seasons

def stats : Table :=
  { schema := some "league", name := "season_stat", columns := [{ name := "id", field := "id" }] }

def inner : Query :=
  .start .postgres ⟨[stats]⟩ false [] (.model ⟨stats, none, [⟨0⟩]⟩)

def middle : Query :=
  .start .postgres ⟨[stats]⟩ false [] (.plan inner.plan)

/-- A plan on a plan on a table in a schema. -/
def outer : Query :=
  .start .postgres ⟨[stats]⟩ false [] (.plan middle.plan)

def counted : String :=
  "SELECT count(*) FROM (SELECT \"league\".\"season_stat\".\"id\" AS \"id\" FROM " ++
    "(SELECT \"league\".\"season_stat\".\"id\" AS \"id\" FROM \"league\".\"season_stat\") " ++
    "AS \"league\".\"season_stat\") AS \"league\".\"season_stat\""

/-- The schema of the innermost table is handed on with its name. -/
theorem single_iff_outer :
    outer.Aliased (.table .postgres (some "league") "season_stat")
        [.table .postgres (some "league") "season_stat"] ∧
      outer.plan.errors = [] ∧
      outer.plan.aliases = ["\"league\".\"season_stat\""] ∧
      (∃ statement, outer.plan.statement .count = .ok statement ∧
        statement.sql .postgres = counted) ∧
      ¬∀ written ∈ outer.plan.aliases,
        ∃ identifier, written = outer.plan.dialect.quote identifier := by
  have haliased : outer.Aliased (.table .postgres (some "league") "season_stat")
      [.table .postgres (some "league") "season_stat"] :=
    .start (.plan (.start (.plan (.start (.model _ _)))))
  rcases haliased.single_iff rfl with ⟨-, -, hperm, -, hexact⟩
  have haliases : outer.plan.aliases = ["\"league\".\"season_stat\""] :=
    List.perm_singleton.1 hperm
  have hdialect : ∀ origin ∈ [AliasOrigin.table .postgres (some "league") "season_stat"],
      origin.dialect = outer.plan.dialect := by
    intro origin hmem
    cases List.mem_singleton.1 hmem
    rfl
  refine ⟨haliased, rfl, haliases, ⟨_, rfl, by cbv⟩, fun hall => ?_⟩
  have hplain := (hexact '"' rfl (by decide) hdialect).1 hall _ List.mem_cons_self
  have hschema : (some "league").getD "" = "" := hplain
  simp at hschema

end Seasons

end FieldQuery
