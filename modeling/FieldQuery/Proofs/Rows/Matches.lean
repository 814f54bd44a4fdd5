import FieldQuery.Proofs.Condition.Clauses
import FieldQuery.Proofs.Plan.Links
import FieldQuery.Proofs.Plan.WriteTargets
import FieldQuery.Proofs.Rows.Joins

/-!
# The rows that a write hits

A `SELECT` joins its sources one after the other.  `DELETE` and `UPDATE` have the same sources in one
list, with the conditions of all joins in the `WHERE` clause: they hit a row if it goes with some row
of every source.  So they hit the rows that the `SELECT` shows in a combination in which no row is
missing; a row that an outer join keeps without a partner is shown and not hit.

Main definitions:

- `World`: what the sources hold, and how the atoms of conditions are judged.
- `SelectClauses`, `WriteClauses`: the clauses of the two kinds of statements, with their texts and
  the combinations of rows that they stand for.

Main statement: `Query.On.hits_complete`.
-/

namespace FieldQuery

open Condition
open Rows (Combination Join joinAll product primaryRows InOrder)

/-! ## Worlds -/

/-- The rows of each source, and the truth of each atom of a condition for a combination of rows,
in the order of the sources. -/
structure World (ρ : Type) where
  rows : Statement → List ρ
  judge : Statement → Combination ρ → Truth
  always : ∀ combination, judge alwaysText combination = .holds
  never : ∀ combination, judge neverText combination = .fails

namespace World

variable {ρ : Type} (world : World ρ)

def assign (combination : Combination ρ) : List (Lexeme Statement) → Truth
  | [.other atom] => world.judge atom combination
  | _ => .unknown

/-- Whether a condition is read as one that holds; where there is none, nothing is left out. -/
def keeps (condition : Option (List (Lexeme Statement))) (combination : Combination ρ) : Bool :=
  match condition with
  | some lexemes => evaluate (world.assign combination) lexemes == some .holds
  | none => true

end World

/-! ## Clauses -/

/-- A `WHERE` clause around its condition, if there is one. -/
def whereText : Option (List (Lexeme Statement)) → List Symbol
  | some condition => symbolsOf " WHERE " ++ layoutSymbols condition
  | none => []

structure JoinedSource where
  kind : JoinKind
  source : Statement
  on : List (Lexeme Statement)

/-- The clauses of a `SELECT` that say which rows it shows. -/
structure SelectClauses where
  source : Statement
  joins : List JoinedSource
  condition : Option (List (Lexeme Statement))

/-- The table of a `DELETE` or an `UPDATE`, and the clauses that say which of its rows are hit. -/
structure WriteClauses where
  target : Statement
  sources : List Statement
  condition : Option (List (Lexeme Statement))

def JoinedSource.text (joined : JoinedSource) : List Symbol :=
  symbolsOf (" " ++ joined.kind.sql ++ " ") ++ symbols joined.source ++ symbolsOf " ON " ++
    layoutSymbols joined.on

def JoinedSource.join {ρ : Type} (world : World ρ) (joined : JoinedSource) : Join ρ :=
  ⟨joined.kind, world.rows joined.source, world.keeps (some joined.on)⟩

namespace SelectClauses

def text (clauses : SelectClauses) : List Symbol :=
  symbolsOf " FROM " ++ symbols clauses.source ++ clauses.joins.flatMap (·.text) ++
    whereText clauses.condition

/-- The combinations that are left when the joins have been made and the rest is filtered. -/
def result {ρ : Type} (clauses : SelectClauses) (world : World ρ) : List (Combination ρ) :=
  (joinAll (clauses.joins.map (·.join world))
    ((world.rows clauses.source).map fun row => [some row])).filter (world.keeps clauses.condition)

end SelectClauses

namespace WriteClauses

/-- The list of sources behind a keyword, and the condition. -/
def text (clauses : WriteClauses) (keyword : String) : List Symbol :=
  (match clauses.sources with
    | [] => []
    | sources => symbolsOf keyword ++ (symbolsOf ", ").intercalate (sources.map symbols)) ++
    whereText clauses.condition

/-- Each row of the table with each row of the sources, as far as the condition holds. -/
def result {ρ : Type} (clauses : WriteClauses) (world : World ρ) : List (Combination ρ) :=
  (product (clauses.sources.map world.rows)
    ((world.rows clauses.target).map fun row => [some row])).filter (world.keeps clauses.condition)

end WriteClauses

/-- The layout of conditions that must all hold; none at all make no clause. -/
def conditionLayout (columns : ColumnMap) : List Filter → Option (List (Lexeme Statement))
  | [] => none
  | filters => some ((Filter.and filters).layout columns)

def JoinClause.joined (columns : ColumnMap) (join : JoinClause) : JoinedSource :=
  ⟨join.kind, join.renderSource, (Filter.and join.on).layout columns⟩

namespace Plan

variable (plan : Plan)

def selectClauses : SelectClauses where
  source := (plan.source.map (·.render)).getD .empty
  joins := plan.allJoins.map (·.joined plan.columns)
  condition := conditionLayout plan.columns (plan.conditions.getD [])

def writeClauses : WriteClauses where
  target := .ofText plan.quotedTable
  sources := plan.allJoins.map (·.renderSource)
  condition := conditionLayout plan.columns plan.folded

end Plan

/-! ## Texts -/

section Texts

variable {columns : ColumnMap} {plan : Plan} {written : Statement}

theorem symbols_inRow (statements : List Statement) :
    symbols (.inRow statements) = statements.flatMap symbols := by
  induction statements with
  | nil => rfl
  | cons first rest ih =>
      have hrow : Statement.inRow (first :: rest) = first ++ Statement.inRow rest := rfl
      simp [hrow, ih]

theorem WhereReads.text {filters : List Filter} (h : WhereReads columns filters written) :
    symbols written = whereText (conditionLayout columns filters) := by
  cases filters with
  | nil =>
      cases h
      rfl
  | cons first rest =>
      obtain ⟨conditions, rfl, hreads⟩ := h
      simp [whereText, conditionLayout, hreads.text]

theorem JoinReads.text {join : JoinClause} (h : JoinReads columns join written) :
    symbols written = (join.joined columns).text := by
  obtain ⟨on, rfl, hreads⟩ := h
  simp [JoinedSource.text, JoinClause.joined, hreads.text]

theorem texts_of_joinReads {joins : List JoinClause} {clauses : List Statement}
    (h : List.Forall₂ (JoinReads columns) joins clauses) :
    clauses.flatMap symbols = (joins.map (·.joined columns)).flatMap (·.text) := by
  induction h with
  | nil => rfl
  | cons hfirst _ ih => simp [hfirst.text, ih]

theorem Plan.text_fromClause {source : Source} (h : plan.source = some source) :
    symbols plan.fromClause = symbolsOf " FROM " ++ symbols plan.selectClauses.source := by
  simp [Plan.fromClause, Plan.selectClauses, h]

theorem Plan.text_joinSources (keyword : String) :
    symbols (plan.joinSources keyword) ++ whereText plan.writeClauses.condition =
      plan.writeClauses.text keyword := by
  cases hjoins : plan.allJoins with
  | nil => simp [Plan.joinSources, WriteClauses.text, Plan.writeClauses, hjoins]
  | cons first rest => simp [Plan.joinSources, WriteClauses.text, Plan.writeClauses, hjoins,
      symbols_join]

/-- A `SELECT` is its select list, its clauses, and what orders and pages the rows. -/
theorem Plan.text_select {source : Source} (hsource : plan.source = some source)
    (h : plan.statement .select = .ok written) : ∃ order, plan.orderClause = .ok order ∧
      symbols written = symbolsOf ("SELECT " ++ ", ".intercalate
          (plan.columns.selected.map (selectItem plan.dialect))) ++ plan.selectClauses.text ++
        symbols (plan.groupClause ++ order ++ plan.paging) := by
  obtain ⟨clauses, rfl, joins, conditions, order, rfl, hjoins, hconditions, horder⟩ :=
    conditionsRead_statement h
  refine ⟨order, horder, ?_⟩
  simp only [symbols_append, symbols_ofText, text_fromClause hsource, symbols_inRow,
    texts_of_joinReads hjoins, hconditions.text, SelectClauses.text, List.append_assoc]
  rfl

theorem Plan.text_delete (h : plan.statement .delete = .ok written) :
    symbols written = symbolsOf ("DELETE FROM " ++ plan.quotedTable) ++
      plan.writeClauses.text " USING " := by
  obtain ⟨conditions, rfl, hconditions⟩ := conditionsRead_statement h
  simp only [symbols_append, symbols_ofText, hconditions.text, ← text_joinSources,
    List.append_assoc]
  rfl

theorem Plan.text_update (h : plan.statement .update = .ok written) :
    symbols written = symbolsOf ("UPDATE " ++ plan.quotedTable ++ " SET ") ++
      symbols (.join ", " (plan.assignments.map fun (column, value) =>
        .ofText (column ++ "=") ++ .ofValue value)) ++ plan.writeClauses.text " FROM " := by
  obtain ⟨conditions, rfl, hconditions⟩ := conditionsRead_statement h
  simp only [symbols_append, symbols_ofText, hconditions.text, ← text_joinSources,
    List.append_assoc]
  rfl

end Texts

/-! ## Values -/

section Values

variable {columns : ColumnMap} {plan : Plan} {ρ : Type}

/-- The value of a condition is a matter of its leaves. -/
theorem Filter.value_congr {atom other : Statement → Truth} (filter : Filter)
    (h : ∀ leaf ∈ filter.leaves,
      atom (leaf.leafText columns) = other (leaf.leafText columns)) :
    filter.value columns atom = filter.value columns other := by
  have hvalues : ∀ filters : List Filter,
      (∀ filter ∈ filters, (∀ leaf ∈ filter.leaves,
        atom (leaf.leafText columns) = other (leaf.leafText columns)) →
          filter.value columns atom = filter.value columns other) →
      (∀ leaf ∈ leavesOf filters,
        atom (leaf.leafText columns) = other (leaf.leafText columns)) →
      values columns atom filters = values columns other filters := by
    intro filters hfilters hleaves
    rw [values_eq, values_eq]
    exact List.map_congr_left fun filter hmem =>
      hfilters filter hmem (forall_leavesOf hleaves filter hmem)
  induction filter using Filter.induction with
  | and filters ih => rw [value, value, hvalues filters ih h]
  | or filters ih => rw [value, value, hvalues filters ih h]
  | not filter ih => rw [value, value, ih h]
  | truth operand negated =>
      have htext : atom (operand.text columns) = other (operand.text columns) :=
        h (.truth operand negated) (by simp [leaves])
      cases negated <;> simp [value, htext]
  | never operand => simp [value]
  | leaf filter hleaf =>
      rw [hleaf.value_eq, hleaf.value_eq]
      exact h filter (by simp [hleaf.leaves_eq])

variable (world : World ρ)

/-- A world in which the conditions of a join look at the sources up to the join, as SQL demands. -/
def World.InScope (plan : Plan) : Prop :=
  ∀ i join, plan.allJoins[i]? = some join → ∀ leaf ∈ (Filter.and join.on).leaves,
    ∀ left later : Combination ρ, left.length = i + 2 →
      world.judge (leaf.leafText plan.columns) (left ++ later) =
        world.judge (leaf.leafText plan.columns) left

theorem World.keeps_layout (filter : Filter) (combination : Combination ρ) :
    world.keeps (some (filter.layout columns)) combination = true ↔
      filter.value columns (world.judge · combination) = .holds := by
  have hread : evaluate (world.assign combination) (filter.layout columns) =
      some (filter.value columns (world.judge · combination)) :=
    Filter.evaluate_layout columns filter (world.always combination) (world.never combination)
  simp [World.keeps, hread]

theorem World.keeps_condition (filters : List Filter) (combination : Combination ρ) :
    world.keeps (conditionLayout columns filters) combination = true ↔
      (Filter.and filters).value columns (world.judge · combination) = .holds := by
  cases filters with
  | nil => simp [conditionLayout, World.keeps, Filter.value, Filter.values, Truth.all]
  | cons first rest => exact world.keeps_layout _ combination

theorem Condition.Truth.and_eq_holds {first second : Truth} :
    first.and second = .holds ↔ first = .holds ∧ second = .holds := by
  cases first <;> cases second <;> decide

theorem Condition.Truth.all_eq_holds {truths : List Truth} :
    Truth.all truths = .holds ↔ ∀ truth ∈ truths, truth = .holds := by
  induction truths with
  | nil => simp [Truth.all]
  | cons first rest ih =>
      have hall : Truth.all (first :: rest) = first.and (Truth.all rest) := rfl
      rw [hall, Truth.and_eq_holds, ih, List.forall_mem_cons]

/-- The condition of a write holds if that of the `SELECT` does, and those of its joins. -/
theorem World.keeps_folded (combination : Combination ρ) :
    world.keeps plan.writeClauses.condition combination = true ↔
      world.keeps plan.selectClauses.condition combination = true ∧
        ∀ join ∈ plan.selectClauses.joins.map (·.join world), join.on combination = true := by
  have hjoins : (∀ join ∈ plan.selectClauses.joins.map (·.join world),
      join.on combination = true) ↔ ∀ join ∈ plan.allJoins,
        (Filter.and join.on).value plan.columns (world.judge · combination) = .holds := by
    simp [Plan.selectClauses, JoinClause.joined, JoinedSource.join, world.keeps_layout]
  calc
    world.keeps plan.writeClauses.condition combination = true
        ↔ (Filter.and plan.folded).value plan.columns (world.judge · combination) = .holds :=
          world.keeps_condition plan.folded combination
    _ ↔ (Filter.and (plan.conditions.getD [])).value plan.columns
            (world.judge · combination) = .holds ∧
          ∀ join ∈ plan.allJoins,
            (Filter.and join.on).value plan.columns (world.judge · combination) = .holds := by
          rw [Plan.value_folded, Truth.and_eq_holds, Truth.all_eq_holds, List.forall_mem_map]
    _ ↔ _ := by
          rw [hjoins]
          exact and_congr_left' (world.keeps_condition _ combination).symm

theorem World.InScope.inOrder {world : World ρ} (h : world.InScope plan) :
    InOrder 1 (plan.selectClauses.joins.map (·.join world)) := by
  intro i join hjoin left later hleft
  simp only [Plan.selectClauses, List.map_map, List.getElem?_map] at hjoin
  obtain ⟨clause, hclause, rfl⟩ := Option.map_eq_some_iff.1 hjoin
  have hvalue : (Filter.and clause.on).value plan.columns (world.judge · (left ++ later)) =
      (Filter.and clause.on).value plan.columns (world.judge · left) := by
    refine Filter.value_congr _ fun leaf hleaf => ?_
    exact h i clause hclause leaf hleaf left later (by omega)
  rw [Bool.eq_iff_iff]
  calc
    world.keeps (some ((Filter.and clause.on).layout plan.columns)) (left ++ later) = true
        ↔ (Filter.and clause.on).value plan.columns (world.judge · (left ++ later)) = .holds :=
          world.keeps_layout _ _
    _ ↔ (Filter.and clause.on).value plan.columns (world.judge · left) = .holds := by rw [hvalue]
    _ ↔ world.keeps (some ((Filter.and clause.on).layout plan.columns)) left = true :=
          (world.keeps_layout _ _).symm

end Values

/-! ## Rows -/

section Hits

variable {plan : Plan} {ρ : Type} {world : World ρ}

/-- A write of a plan hits what is complete of the rows that its `SELECT` shows. -/
theorem Plan.mem_result_iff (hsource : plan.source = some (.named plan.quotedTable))
    (hscope : world.InScope plan) (combination : Combination ρ) :
    combination ∈ plan.writeClauses.result world ↔
      combination ∈ plan.selectClauses.result world ∧ none ∉ combination := by
  have hrows : world.rows plan.writeClauses.target = world.rows plan.selectClauses.source := by
    simp [Plan.writeClauses, Plan.selectClauses, hsource, Source.render]
  have hsources : plan.writeClauses.sources.map world.rows =
      (plan.selectClauses.joins.map (·.join world)).map (·.rows) := by
    simp [Plan.writeClauses, Plan.selectClauses, JoinClause.joined, JoinedSource.join,
      Function.comp_def]
  have hsingle : ∀ left ∈ (world.rows plan.selectClauses.source).map fun row => [some row],
      left.length = 1 ∧ none ∉ left := by simp
  have hproduct : combination ∈ joinAll (plan.selectClauses.joins.map (·.join world))
        ((world.rows plan.selectClauses.source).map fun row => [some row]) ∧ none ∉ combination ↔
      combination ∈ product ((plan.selectClauses.joins.map (·.join world)).map (·.rows))
        ((world.rows plan.selectClauses.source).map fun row => [some row]) ∧
      ∀ join ∈ plan.selectClauses.joins.map (·.join world), join.on combination = true :=
    Rows.mem_joinAll_iff_product hscope.inOrder (fun left hleft => (hsingle left hleft).1)
      fun left hleft => (hsingle left hleft).2
  simp only [WriteClauses.result, SelectClauses.result, List.mem_filter, hrows, hsources,
    world.keeps_folded]
  constructor
  · rintro ⟨hmem, hkept, hall⟩
    obtain ⟨hjoined, hcomplete⟩ := hproduct.2 ⟨hmem, hall⟩
    exact ⟨⟨hjoined, hkept⟩, hcomplete⟩
  · rintro ⟨⟨hjoined, hkept⟩, hcomplete⟩
    obtain ⟨hmem, hall⟩ := hproduct.1 ⟨hjoined, hcomplete⟩
    exact ⟨hmem, hkept, hall⟩

theorem Plan.complete_result (hinner : ∀ join ∈ plan.allJoins, join.kind = .inner)
    {combination : Combination ρ} (h : combination ∈ plan.selectClauses.result world) :
    none ∉ combination := by
  have hkinds : ∀ join ∈ plan.selectClauses.joins.map (·.join world), join.kind = .inner := by
    simpa [Plan.selectClauses, JoinClause.joined, JoinedSource.join] using hinner
  exact Rows.complete_of_inner hkinds (by simp) combination (List.mem_filter.1 h).1

/-- `DELETE` and `UPDATE` have the clauses of the `SELECT` in another arrangement, and they hit the
rows of the primary table that the `SELECT` shows in a combination in which every outer join found
a row: not all that it shows, unless its joins are all inner. -/
theorem Query.On.hits_complete {reference : ModelTarget} {query : Query}
    (h : query.On (.model reference)) (hclean : query.plan.errors = []) :
    (∀ written, query.plan.statement .select = .ok written →
      ∃ order, query.plan.orderClause = .ok order ∧
        symbols written = symbolsOf ("SELECT " ++ ", ".intercalate
            (query.plan.columns.selected.map (Plan.selectItem query.plan.dialect))) ++
          query.plan.selectClauses.text ++
          symbols (query.plan.groupClause ++ order ++ query.plan.paging)) ∧
      (∀ written, query.plan.statement .delete = .ok written →
        symbols written = symbolsOf ("DELETE FROM " ++ query.plan.quotedTable) ++
          query.plan.writeClauses.text " USING ") ∧
      (∀ written, query.plan.statement .update = .ok written →
        symbols written = symbolsOf ("UPDATE " ++ query.plan.quotedTable ++ " SET ") ++
          symbols (.join ", " (query.plan.assignments.map fun (column, value) =>
            .ofText (column ++ "=") ++ .ofValue value)) ++
          query.plan.writeClauses.text " FROM ") ∧
      ∀ (ρ : Type) (world : World ρ), world.InScope query.plan → ∀ row,
        (row ∈ primaryRows (query.plan.writeClauses.result world) ↔
          ∃ combination ∈ query.plan.selectClauses.result world,
            combination.head? = some (some row) ∧ none ∉ combination) ∧
        ((∀ join ∈ query.plan.allJoins, join.kind = .inner) →
          (row ∈ primaryRows (query.plan.writeClauses.result world) ↔
            row ∈ primaryRows (query.plan.selectClauses.result world))) := by
  obtain ⟨source, hsource, hstands⟩ := h.stands hclean
  have hnamed : query.plan.source = some (.named query.plan.quotedTable) := by
    rw [hsource, hstands.named_iff.2 ⟨reference, rfl⟩]
  refine ⟨fun _ => Plan.text_select hsource, fun _ => Plan.text_delete, fun _ => Plan.text_update,
    fun ρ world hscope row => ?_⟩
  have hhit : row ∈ primaryRows (query.plan.writeClauses.result world) ↔
      ∃ combination ∈ query.plan.selectClauses.result world,
        combination.head? = some (some row) ∧ none ∉ combination := by
    rw [Rows.mem_primaryRows]
    constructor
    · rintro ⟨combination, hmem, hhead⟩
      obtain ⟨hshown, hcomplete⟩ := (Plan.mem_result_iff hnamed hscope combination).1 hmem
      exact ⟨combination, hshown, hhead, hcomplete⟩
    · rintro ⟨combination, hshown, hhead, hcomplete⟩
      exact ⟨combination,
        (Plan.mem_result_iff hnamed hscope combination).2 ⟨hshown, hcomplete⟩, hhead⟩
  refine ⟨hhit, fun hinner => hhit.trans ?_⟩
  rw [Rows.mem_primaryRows]
  constructor
  · exact fun ⟨combination, hshown, hhead, _⟩ => ⟨combination, hshown, hhead⟩
  · exact fun ⟨combination, hshown, hhead⟩ =>
      ⟨combination, hshown, hhead, Plan.complete_result hinner hshown⟩

end Hits

/-! ## Teams without players -/

namespace Squads

/-- Two teams, and one player, who belongs to the first of them.  Rows stand for the team that they
tell of, and the only atom that is no constant compares them. -/
def world : World Nat where
  rows source := if source = .ofText "\"teams\"" then [1, 2] else [1]
  judge atom combination :=
    if atom = alwaysText then .holds
    else if atom = neverText then .fails
    else
      match combination with
      | some team :: some player :: _ => if team = player then .holds else .fails
      | _ => .unknown
  always _ := rfl
  never _ := rfl

theorem inScope_world (plan : Plan) : world.InScope plan := by
  intro i join _ leaf _ left later hleft
  match left, hleft with
  | first :: second :: rest, _ => cases first <;> cases second <;> rfl

theorem on_listed : listed.On (.model (planted.1.target catalog)) :=
  .call (.call .start call?_start) call?_joined

/-- The team with a player is hit. -/
theorem hits_complete_listed :
    1 ∈ primaryRows (listed.plan.writeClauses.result world) := by
  have hshown : [some 1, some 1] ∈ listed.plan.selectClauses.result world := by
    decide
  exact ((on_listed.hits_complete rfl).2.2.2 Nat world (inScope_world _) 1).1.2
    ⟨[some 1, some 1], hshown, rfl, by decide⟩

/-- The team without players is shown, and no write would hit it. -/
theorem shown_unhit_listed :
    listed.On (.model (planted.1.target catalog)) ∧ listed.plan.errors = [] ∧
      world.InScope listed.plan ∧
      2 ∈ primaryRows (listed.plan.selectClauses.result world) ∧
      2 ∉ primaryRows (listed.plan.writeClauses.result world) := by
  refine ⟨on_listed, rfl, inScope_world _, ?_, ?_⟩
  · decide
  · decide

end Squads

end FieldQuery
