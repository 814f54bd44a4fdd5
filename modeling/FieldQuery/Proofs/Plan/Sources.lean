import FieldQuery.Plan.Compile
import FieldQuery.Proofs.Plan.Marks
import Mathlib.Data.List.Infix

/-!
# What a statement reads from

A table is read where its quoted name stands behind `FROM` or behind a join.  Writing a statement
out of parts keeps what each part reads: a derived table and the query of an `IN` condition are
statements themselves, and are put in as they are.

Main definitions:

- `Statement.Reads`: a table is read in a statement.
- `Plan.named`: the tables among the sources of a plan.
- `Plan.Mentions`: a table is read within one of a plan's sources or conditions.

Main statement: `Plan.reads_selectStatement`, the `SELECT` of a plan reads the tables that the plan
names and mentions.
-/

namespace FieldQuery

/-- A step that has a result, and one behind it. -/
theorem bind_eq_ok {ε α β : Type} {first : Except ε α} {next : α → Except ε β} {result : β} :
    (first >>= next) = .ok result ↔ ∃ value, first = .ok value ∧ next value = .ok result := by
  cases first with
  | error error =>
      constructor
      · intro h
        cases h
      · rintro ⟨value, h, _⟩
        cases h
  | ok value =>
      constructor
      · intro h
        exact ⟨value, rfl, h⟩
      · rintro ⟨other, h, hnext⟩
        cases h
        exact hnext

theorem map_eq_ok {ε α β : Type} {first : Except ε α} {next : α → β} {result : β} :
    first.map next = .ok result ↔ ∃ value, first = .ok value ∧ next value = result := by
  cases first with
  | error error =>
      constructor
      · intro h
        cases h
      · rintro ⟨value, h, _⟩
        cases h
  | ok value =>
      constructor
      · intro h
        cases h
        exact ⟨value, rfl, rfl⟩
      · rintro ⟨other, h, rfl⟩
        cases h
        rfl

namespace Statement

/-- The texts that a source stands behind. -/
def IsKeyword (text : String) : Prop :=
  text = " FROM " ∨ ∃ kind : JoinKind, text = " " ++ kind.sql ++ " "

/-- A table's quoted name stands behind a keyword. -/
def Reads (table : String) (statement : Statement) : Prop :=
  ∃ keyword, IsKeyword keyword ∧ [.text keyword, .text table] <:+: statement.pieces

variable {table : String} {a b : Statement}

theorem Reads.append_right (h : a.Reads table) (b : Statement) : (a ++ b).Reads table := by
  rcases h with ⟨keyword, hkeyword, hinfix⟩
  refine ⟨keyword, hkeyword, ?_⟩
  rw [pieces_append]
  exact hinfix.trans (List.prefix_append _ _).isInfix

theorem Reads.append_left (h : b.Reads table) (a : Statement) : (a ++ b).Reads table := by
  rcases h with ⟨keyword, hkeyword, hinfix⟩
  refine ⟨keyword, hkeyword, ?_⟩
  rw [pieces_append]
  exact hinfix.trans (List.suffix_append _ _).isInfix

theorem reads_source {keyword : String} (h : IsKeyword keyword) (table : String) :
    (ofText keyword ++ ofText table).Reads table :=
  ⟨keyword, h, List.infix_rfl⟩

theorem Reads.join {part : Statement} (h : part.Reads table) (separator : String) :
    ∀ {parts : List Statement}, part ∈ parts → (join separator parts).Reads table
  | [only], hmem => by
      cases List.mem_singleton.1 hmem
      exact h
  | first :: second :: rest, hmem => by
      rcases List.mem_cons.1 hmem with rfl | hmem
      · exact (h.append_right _).append_right _
      · exact (Reads.join h separator hmem).append_left _

end Statement

/-! ## Conditions -/

namespace Filter

/-- Wherever a condition can be written, it reads a table. -/
def Reads (table : String) (filter : Filter) : Prop :=
  ∀ columns written, filter.render columns = .ok written → written.Reads table

variable {table : String}

theorem Reads.renderEach {filter : Filter} (h : filter.Reads table) {columns : ColumnMap}
    {filters : List Filter} {written : List Statement} (hmem : filter ∈ filters)
    (hwritten : renderEach columns filters = .ok written) : ∃ part ∈ written, part.Reads table := by
  induction filters generalizing written with
  | nil => cases hmem
  | cons first rest ih =>
      rw [Filter.renderEach] at hwritten
      rcases bind_eq_ok.1 hwritten with ⟨head, hhead, hrest⟩
      rcases bind_eq_ok.1 hrest with ⟨others, hothers, hall⟩
      cases hall
      rcases List.mem_cons.1 hmem with rfl | hmem
      · refine ⟨_, List.mem_cons_self, ?_⟩
        have hreads : head.Reads table := h columns head hhead
        -- a list of conditions stands in parentheses here
        split
        · exact (hreads.append_left _).append_right _
        · exact hreads
      · rcases ih hmem hothers with ⟨part, hpart, hreads⟩
        exact ⟨part, List.mem_cons_of_mem _ hpart, hreads⟩

theorem Reads.joined {filter : Filter} (h : filter.Reads table) {columns : ColumnMap}
    {filters : List Filter} (hmem : filter ∈ filters) {separator : String} {written : Statement}
    (hwritten : (Filter.renderEach columns filters).map (.join separator) = .ok written) :
    written.Reads table := by
  rcases map_eq_ok.1 hwritten with ⟨parts, hparts, rfl⟩
  rcases h.renderEach hmem hparts with ⟨part, hpart, hreads⟩
  exact hreads.join separator hpart

/-- A list of conditions reads what one of them reads: one alone is written as it is, and several
are joined by a separator. -/
theorem Reads.group {group : List Filter → Filter} (separator : String)
    (hone : ∀ columns only, (group [only]).render columns = only.render columns)
    (hmany : ∀ columns first second rest, (group (first :: second :: rest)).render columns =
      (Filter.renderEach columns (first :: second :: rest)).map (.join separator))
    {filter : Filter} (h : filter.Reads table) {filters : List Filter} (hmem : filter ∈ filters) :
    (group filters).Reads table := by
  intro columns written hwritten
  match filters, hmem, hwritten with
  | [only], hmem, hwritten =>
      cases List.mem_singleton.1 hmem
      rw [hone] at hwritten
      exact h columns written hwritten
  | first :: second :: rest, hmem, hwritten =>
      rw [hmany] at hwritten
      exact h.joined hmem hwritten

theorem Reads.and {filter : Filter} (h : filter.Reads table) {filters : List Filter}
    (hmem : filter ∈ filters) : (Filter.and filters).Reads table := by
  refine Reads.group " AND " ?_ ?_ h hmem
  · intro columns only
    rw [render]
  · intro columns first second rest
    simp [render]

theorem Reads.or {filter : Filter} (h : filter.Reads table) {filters : List Filter}
    (hmem : filter ∈ filters) : (Filter.or filters).Reads table := by
  refine Reads.group " OR " ?_ ?_ h hmem
  · intro columns only
    rw [render]
  · intro columns first second rest
    simp [render]

theorem Reads.not {filter : Filter} (h : filter.Reads table) : (Filter.not filter).Reads table := by
  intro columns written hwritten
  rw [render] at hwritten
  rcases bind_eq_ok.1 hwritten with ⟨inner, hinner, hall⟩
  cases hall
  exact ((h columns inner hinner).append_left _).append_right _

theorem reads_inQuery {query : Statement} (h : query.Reads table) (operand : Operand) :
    (Filter.inQuery operand query).Reads table := by
  intro columns written hwritten
  rw [render] at hwritten
  rcases bind_eq_ok.1 hwritten with ⟨left, hleft, hall⟩
  cases hall
  exact (h.append_left _).append_right _

end Filter

/-! ## Plans -/

/-- A source in a list of sources: the name of a table, or a query in parentheses and its alias
behind it; behind either, the alias of a related table. -/
def Source.spelled : Source → Option String → Statement
  | .named quoted, none => .ofText quoted
  | .named quoted, some related => .ofText quoted ++ .ofText (" AS " ++ related)
  | .derived query name, none => .ofText "(" ++ query ++ .ofText (") AS " ++ name)
  | .derived query name, some related =>
    .ofText "(" ++ query ++ .ofText (") AS " ++ name) ++ .ofText (" AS " ++ related)

theorem Source.render_eq (source : Source) : source.render = source.spelled none := by
  cases source <;> rfl

theorem JoinClause.renderSource_eq (join : JoinClause) :
    join.renderSource = join.source.spelled join.correlation := by
  rcases join with ⟨kind, source, correlation, on⟩
  cases source <;> cases correlation <;> rfl

/-- The quoted name of a source that is a table. -/
def Source.name? : Source → Option String
  | .named quoted => some quoted
  | .derived _ _ => none

namespace Plan

/-- The primary source and those of all joins. -/
def allSources (plan : Plan) : List Source :=
  plan.source.toList ++ plan.allJoins.map (·.source)

/-- The quoted names of the tables among the sources. -/
def named (plan : Plan) : List String :=
  plan.allSources.filterMap Source.name?

/-- The conditions of the `WHERE` clause and of all joins. -/
def allConditions (plan : Plan) : List Filter :=
  plan.conditions.getD [] ++ plan.allJoins.flatMap (·.on)

/-- A table is read within a source or a condition. -/
def Mentions (table : String) (plan : Plan) : Prop :=
  (∃ source ∈ plan.allSources, source.render.Reads table) ∨
    ∃ filter ∈ plan.allConditions, filter.Reads table

variable {plan : Plan} {table : String}

/-- A table is read where a source is written, if it is the source or is read within it. -/
theorem reads_behind {source : Source} (h : source.name? = some table ∨ source.render.Reads table)
    {keyword : String} (hkeyword : Statement.IsKeyword keyword) :
    (Statement.ofText keyword ++ source.render).Reads table := by
  rcases h with hname | hreads
  · cases source with
    | named quoted =>
        cases hname
        exact Statement.reads_source hkeyword table
    | derived query correlation => cases hname
  · exact hreads.append_left _

theorem reads_renderJoin {join : JoinClause} {columns : ColumnMap} {written : Statement}
    (h : (join.source.name? = some table ∨ join.source.render.Reads table) ∨
      ∃ filter ∈ join.on, filter.Reads table)
    (hwritten : join.render columns = .ok written) : written.Reads table := by
  unfold JoinClause.render at hwritten
  rcases bind_eq_ok.1 hwritten with ⟨on, hon, hall⟩
  cases hall
  rcases h with hsource | ⟨filter, hfilter, hreads⟩
  · refine Statement.Reads.append_right ?_ on
    refine Statement.Reads.append_right ?_ _
    have hbehind := reads_behind hsource (.inr ⟨join.kind, rfl⟩)
    unfold JoinClause.renderSource
    split
    · exact hbehind
    · rw [← Statement.append_assoc]
      exact hbehind.append_right _
  · exact (hreads.and hfilter columns on hon).append_left _

theorem reads_joinClauses {join : JoinClause} {columns : ColumnMap}
    (h : ∀ written, join.render columns = .ok written → written.Reads table)
    {joins : List JoinClause} {written : Statement} (hmem : join ∈ joins)
    (hwritten : joinClauses columns joins = .ok written) : written.Reads table := by
  induction joins generalizing written with
  | nil => cases hmem
  | cons first rest ih =>
      rw [joinClauses] at hwritten
      rcases bind_eq_ok.1 hwritten with ⟨head, hhead, hrest⟩
      rcases bind_eq_ok.1 hrest with ⟨others, hothers, hall⟩
      cases hall
      rcases List.mem_cons.1 hmem with rfl | hmem
      · exact (h head hhead).append_right _
      · exact (ih hmem hothers).append_left _

theorem reads_whereClause {filter : Filter} (h : filter.Reads table) {columns : ColumnMap}
    {filters : List Filter} (hmem : filter ∈ filters) {written : Statement}
    (hwritten : whereClause columns filters = .ok written) : written.Reads table := by
  cases filters with
  | nil => cases hmem
  | cons first rest =>
      rw [whereClause] at hwritten
      · rcases map_eq_ok.1 hwritten with ⟨conditions, hconditions, rfl⟩
        exact (h.and hmem columns conditions hconditions).append_left _
      · exact List.cons_ne_nil _ _

/-- The clauses of a plan read its sources, and whatever is read within these and within its
conditions. -/
theorem reads_queryClauses {written : Statement} (hwritten : plan.queryClauses = .ok written)
    (h : table ∈ plan.named ∨ plan.Mentions table) : written.Reads table := by
  unfold queryClauses at hwritten
  rcases bind_eq_ok.1 hwritten with ⟨joins, hjoins, hrest⟩
  rcases bind_eq_ok.1 hrest with ⟨conditions, hconditions, hrest⟩
  rcases bind_eq_ok.1 hrest with ⟨order, horder, hall⟩
  cases hall
  -- grouping, order and paging read nothing
  have hfront : (plan.fromClause ++ joins ++ conditions).Reads table →
      (plan.fromClause ++ joins ++ conditions ++ plan.groupClause ++ order ++
        plan.paging).Reads table :=
    fun hreads => ((hreads.append_right _).append_right _).append_right _
  refine hfront ?_
  have hsource : ∀ source ∈ plan.allSources,
      source.name? = some table ∨ source.render.Reads table →
        (plan.fromClause ++ joins).Reads table := by
    intro source hmem hsource
    rcases List.mem_append.1 hmem with hroot | hjoined
    -- the primary source stands behind `FROM`, the others behind their joins
    · have hfrom : plan.fromClause = .ofText " FROM " ++ source.render := by
        unfold fromClause
        rw [Option.mem_toList.1 hroot]
      rw [hfrom]
      exact (reads_behind hsource (.inl rfl)).append_right _
    · rcases List.mem_map.1 hjoined with ⟨join, hjoin, rfl⟩
      have hclause := fun written =>
        @reads_renderJoin table join plan.columns written (.inl hsource)
      exact (reads_joinClauses hclause hjoin hjoins).append_left _
  rcases h with hnamed | ⟨source, hmem, hreads⟩ | ⟨filter, hmem, hreads⟩
  · rcases List.mem_filterMap.1 hnamed with ⟨source, hmem, hname⟩
    exact (hsource source hmem (.inl hname)).append_right _
  · exact (hsource source hmem (.inr hreads)).append_right _
  · rcases List.mem_append.1 hmem with hwhere | hon
    · exact (reads_whereClause hreads hwhere hconditions).append_left _
    · rcases List.mem_flatMap.1 hon with ⟨join, hjoin, hfilter⟩
      have hclause := fun written =>
        @reads_renderJoin table join plan.columns written (.inr ⟨filter, hfilter, hreads⟩)
      exact ((reads_joinClauses hclause hjoin hjoins).append_left _).append_right _

/-- So does its `SELECT`. -/
theorem reads_selectStatement {written : Statement} (hwritten : plan.selectStatement = .ok written)
    (h : table ∈ plan.named ∨ plan.Mentions table) : written.Reads table := by
  unfold selectStatement at hwritten
  rcases bind_eq_ok.1 hwritten with ⟨primary, hprimary, hrest⟩
  split at hrest
  · cases hrest
  · rcases bind_eq_ok.1 hrest with ⟨clauses, hclauses, hall⟩
    cases hall
    exact (reads_queryClauses hclauses h).append_left _

end Plan

end FieldQuery
