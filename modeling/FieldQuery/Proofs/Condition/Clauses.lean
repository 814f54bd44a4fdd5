import FieldQuery.Plan.Stage
import FieldQuery.Proofs.Condition.Meaning

/-!
# The conditions of a statement

A `SELECT` has the conditions of each join in the join's own clause and the others in its `WHERE`
clause.  `UPDATE` and `DELETE` have no join clauses: the conditions of all joins stand behind the
others in one `WHERE` clause.  Each clause is read as the conjunction of the conditions that it is
made of.

Main definitions:

- `JoinReads`, `WhereReads`: clauses that are read as conditions.
- `Plan.ConditionsRead`: a statement whose clauses are.

Main statement: `Plan.conditions_read`, whatever is written is read as it was meant.
-/

namespace FieldQuery

open Condition

namespace Condition.Truth

theorem and_assoc (first second third : Truth) :
    (first.and second).and third = first.and (second.and third) := by
  cases first <;> cases second <;> cases third <;> rfl

theorem holds_and (truth : Truth) : Truth.holds.and truth = truth := by
  cases truth <;> rfl

theorem all_append (front back : List Truth) :
    all (front ++ back) = (all front).and (all back) := by
  induction front with
  | nil => simp [all, holds_and]
  | cons first rest ih =>
      have hrest : (rest ++ back).foldr Truth.and .holds = (all rest).and (all back) := ih
      simp [all] at hrest ⊢
      simp [hrest, and_assoc]

theorem all_flatMap {α : Type} (next : α → List Truth) (list : List α) :
    all (list.flatMap next) = all (list.map fun element => all (next element)) := by
  induction list with
  | nil => rfl
  | cons first rest ih =>
      simp [all_append, ih]
      rfl

end Condition.Truth

/-! ## Clauses -/

/-- Statements one behind the other. -/
def Statement.inRow (statements : List Statement) : Statement :=
  statements.foldr (· ++ ·) .empty

/-- A join clause whose condition is read as all conditions of the join. -/
def JoinReads (columns : ColumnMap) (join : JoinClause) (clause : Statement) : Prop :=
  ∃ on, clause = .ofText (" " ++ join.kind.sql ++ " ") ++ join.renderSource ++ .ofText " ON " ++
      on ∧
    Filter.ReadsAs columns (.and join.on) on

/-- A `WHERE` clause that is read as all of some conditions; without any there is none. -/
def WhereReads (columns : ColumnMap) (filters : List Filter) (clause : Statement) : Prop :=
  match filters with
  | [] => clause = .empty
  | filters => ∃ conditions, clause = .ofText " WHERE " ++ conditions ∧
    Filter.ReadsAs columns (.and filters) conditions

theorem joinReads_render {columns : ColumnMap} {join : JoinClause} {clause : Statement}
    (h : join.render columns = .ok clause) : JoinReads columns join clause := by
  unfold JoinClause.render at h
  rcases bind_eq_ok.1 h with ⟨on, hon, hall⟩
  cases hall
  exact ⟨on, rfl, Filter.readsAs_render hon⟩

namespace Plan

variable {plan : Plan} {columns : ColumnMap} {written : Statement}

theorem joinReads_joinClauses {joins : List JoinClause}
    (h : joinClauses columns joins = .ok written) :
    ∃ clauses, written = .inRow clauses ∧ List.Forall₂ (JoinReads columns) joins clauses := by
  induction joins generalizing written with
  | nil =>
      cases h
      exact ⟨[], rfl, .nil⟩
  | cons join rest ih =>
      rw [joinClauses] at h
      rcases bind_eq_ok.1 h with ⟨first, hfirst, hrest⟩
      rcases bind_eq_ok.1 hrest with ⟨others, hothers, hall⟩
      cases hall
      rcases ih hothers with ⟨clauses, rfl, hclauses⟩
      exact ⟨first :: clauses, rfl, .cons (joinReads_render hfirst) hclauses⟩

theorem whereReads_whereClause {filters : List Filter}
    (h : whereClause columns filters = .ok written) : WhereReads columns filters written := by
  cases filters with
  | nil =>
      cases h
      rfl
  | cons first rest =>
      rw [whereClause] at h
      · rcases map_eq_ok.1 h with ⟨conditions, hconditions, rfl⟩
        exact ⟨conditions, rfl, Filter.readsAs_render hconditions⟩
      · exact List.cons_ne_nil _ _

/-- The clauses of a query are read as the conditions of its joins and of its `WHERE` clause. -/
def QueryReads (plan : Plan) (clauses : Statement) : Prop :=
  ∃ joins conditions order,
    clauses = plan.fromClause ++ .inRow joins ++ conditions ++ plan.groupClause ++ order ++
      plan.paging ∧
    List.Forall₂ (JoinReads plan.columns) plan.allJoins joins ∧
    WhereReads plan.columns (plan.conditions.getD []) conditions ∧
    plan.orderClause = .ok order

/-- The conditions of the `WHERE` clause where joins have no clauses of their own. -/
def folded (plan : Plan) : List Filter :=
  plan.conditions.getD [] ++ plan.allJoins.flatMap (·.on)

/-- A statement for an action is read as the plan's conditions. -/
def ConditionsRead (plan : Plan) (written : Statement) : Action → Prop
  | .select => ∃ clauses, written = .ofText ("SELECT " ++ ", ".intercalate
      (plan.columns.selected.map (selectItem plan.dialect))) ++ clauses ∧ plan.QueryReads clauses
  | .count => ∃ clauses, written = .ofText "SELECT count(*)" ++ clauses ∧ plan.QueryReads clauses
  | .update => ∃ conditions,
      written = .ofText ("UPDATE " ++ plan.quotedTable ++ " SET ") ++
        .join ", " (plan.assignments.map fun (column, value) =>
          .ofText (column ++ "=") ++ .ofValue value) ++ plan.joinSources " FROM " ++ conditions ∧
      WhereReads plan.columns plan.folded conditions
  | .delete => ∃ conditions,
      written = .ofText ("DELETE FROM " ++ plan.quotedTable) ++ plan.joinSources " USING " ++
        conditions ∧
      WhereReads plan.columns plan.folded conditions
  -- these have no conditions
  | .insert | .truncate => True

theorem queryReads_queryClauses (h : plan.queryClauses = .ok written) :
    plan.QueryReads written := by
  unfold queryClauses at h
  rcases bind_eq_ok.1 h with ⟨joins, hjoins, hrest⟩
  rcases bind_eq_ok.1 hrest with ⟨conditions, hconditions, hrest⟩
  rcases bind_eq_ok.1 hrest with ⟨order, horder, hall⟩
  cases hall
  rcases joinReads_joinClauses hjoins with ⟨clauses, rfl, hclauses⟩
  exact ⟨clauses, conditions, order, rfl, hclauses, whereReads_whereClause hconditions, horder⟩

theorem conditionsRead_statement {action : Action} (h : plan.statement action = .ok written) :
    plan.ConditionsRead written action := by
  cases action with
  | select =>
      rcases bind_eq_ok.1 h with ⟨primary, _, hrest⟩
      split at hrest
      · cases hrest
      · rcases bind_eq_ok.1 hrest with ⟨clauses, hclauses, hall⟩
        cases hall
        exact ⟨clauses, rfl, queryReads_queryClauses hclauses⟩
  | count =>
      rcases bind_eq_ok.1 h with ⟨primary, _, hrest⟩
      rcases bind_eq_ok.1 hrest with ⟨clauses, hclauses, hall⟩
      cases hall
      exact ⟨clauses, rfl, queryReads_queryClauses hclauses⟩
  | update =>
      rcases bind_eq_ok.1 h with ⟨primary, _, hrest⟩
      split at hrest
      · cases hrest
      · rcases bind_eq_ok.1 hrest with ⟨conditions, hconditions, hall⟩
        cases hall
        exact ⟨conditions, rfl, whereReads_whereClause hconditions⟩
  | delete =>
      rcases bind_eq_ok.1 h with ⟨primary, _, hrest⟩
      rcases bind_eq_ok.1 hrest with ⟨conditions, hconditions, hall⟩
      cases hall
      exact ⟨conditions, rfl, whereReads_whereClause hconditions⟩
  | insert => trivial
  | truncate => trivial

/-- The conditions of a plan hold together if those of the `WHERE` clause do, and those of each
join. -/
theorem value_folded (plan : Plan) (atom : Statement → Truth) :
    (Filter.and plan.folded).value plan.columns atom =
      ((Filter.and (plan.conditions.getD [])).value plan.columns atom).and
        (Truth.all (plan.allJoins.map fun join =>
          (Filter.and join.on).value plan.columns atom)) := by
  have hvalue (filters : List Filter) : (Filter.and filters).value plan.columns atom =
      Truth.all (filters.map (Filter.value plan.columns atom)) := by
    rw [Filter.value, Filter.values_eq]
  simp only [hvalue, folded, List.map_append, Truth.all_append, List.map_flatMap, Truth.all_flatMap]

/-- Whatever condition is written, it is read with its own value.  So is each clause of a statement,
and where the joins of a plan have no clauses of their own, the `WHERE` clause holds if the plan's
own conditions do and those of all joins. -/
theorem conditions_read :
    (∀ columns filter, (∃ written, Filter.render columns filter = .ok written) ↔
      ∀ leaf ∈ filter.leaves, ∃ text, leaf.render columns = .ok text) ∧
    (∀ columns filter written, Filter.render columns filter = .ok written →
      filter.ReadsAs columns written) ∧
    (∀ (plan : Plan) action written, plan.statement action = .ok written →
      plan.ConditionsRead written action) ∧
    ∀ (plan : Plan) atom, (Filter.and plan.folded).value plan.columns atom =
      ((Filter.and (plan.conditions.getD [])).value plan.columns atom).and
        (Truth.all (plan.allJoins.map fun join =>
          (Filter.and join.on).value plan.columns atom)) := by
  refine ⟨Filter.exists_render_iff, ?_, ?_, value_folded⟩
  · intro columns filter written hwritten
    exact Filter.readsAs_render hwritten
  · intro plan action written hwritten
    exact conditionsRead_statement hwritten

end Plan

/-! ## Books that are overdue -/

namespace Overdue

def books : Table :=
  { name := "books"
    columns := [{ name := "title", field := "title" }, { name := "lost", field := "lost" }] }

def loans : Table :=
  { name := "loans"
    columns := [{ name := "book", field := "book" }, { name := "due", field := "due" }] }

/-- Lists of one condition and of none stand within others, and a join is made on a choice. -/
def plan : Plan :=
  ((((Plan.start .postgres ⟨[books, loans]⟩ true [] (.model ⟨books, none, [⟨0⟩, ⟨1⟩]⟩)).apply
    (.join .inner (.model ⟨loans, none, [⟨2⟩, ⟨3⟩]⟩))).apply
    (.on [.or [.compare (.field ⟨0⟩) .equal (.field ⟨2⟩), .null (.field ⟨3⟩) true]])).apply
    .startWhere).apply
    (.filter [.and [.or [.truth (.field ⟨1⟩) true]], .or [.and [], .inList (.field ⟨0⟩) []]])

def conditions : Statement :=
  ⟨[.text "(", .text "NOT ", .text "\"books\".\"lost\"", .text ")", .text " AND ", .text "(",
    .text "(", .text "1=1", .text ")", .text " OR ", .text "1=0", .text ")", .text " AND ",
    .text "(", .text "\"books\".\"title\"", .text " = ", .text "\"loans\".\"book\"",
    .text " OR ", .text "\"loans\".\"due\"", .text " IS NOT NULL", .text ")"], [], rfl⟩

def deletion : Statement :=
  .ofText "DELETE FROM \"books\"" ++ (.ofText " USING " ++ .ofText "\"loans\"") ++
    (.ofText " WHERE " ++ conditions)

/-- The book is lost, its title is not known, and the loan is due some day. -/
def judge (text : List (Lexeme Word)) : Truth :=
  if text = words neverText then .fails
  else if text = words (.ofText "\"books\".\"title\" = \"loans\".\"book\"") then .unknown
  else .holds

theorem statement_deletion : plan.statement .delete = .ok deletion := by
  rfl

theorem render_conditions : (Filter.and plan.folded).render plan.columns = .ok conditions := by
  rfl

/-- A column's name behind that of its table. -/
def qualified (table column : String) : List Word :=
  [.quoted '\x22' table.toList, .sign '.', .quoted '\x22' column.toList]

theorem simple_field {token : Token} {table column : String}
    (h : Spans (symbols ((Operand.field token).text plan.columns))
      (plainItems (qualified table column))) :
    Simple (symbols ((Operand.field token).text plan.columns)) :=
  ⟨_, .of_plainItems h⟩

theorem simpleLeaf {leaf : Filter} (h : leaf ∈ (Filter.and plan.folded).leaves) :
    leaf.SimpleLeaf plan.columns := by
  have htitle : Spans (symbols ((Operand.field ⟨0⟩).text plan.columns))
      (plainItems (qualified "books" "title")) := ⟨by rfl, by rfl⟩
  have hlost : Spans (symbols ((Operand.field ⟨1⟩).text plan.columns))
      (plainItems (qualified "books" "lost")) := ⟨by rfl, by rfl⟩
  have hbook : Spans (symbols ((Operand.field ⟨2⟩).text plan.columns))
      (plainItems (qualified "loans" "book")) := ⟨by rfl, by rfl⟩
  have hdue : Spans (symbols ((Operand.field ⟨3⟩).text plan.columns))
      (plainItems (qualified "loans" "due")) := ⟨by rfl, by rfl⟩
  have hleaves : (Filter.and plan.folded).leaves = [.truth (.field ⟨1⟩) true,
      .compare (.field ⟨0⟩) .equal (.field ⟨2⟩), .null (.field ⟨3⟩) true] := by
    rfl
  rw [hleaves] at h
  rcases List.mem_cons.1 h with rfl | h
  · exact simple_field hlost
  · rcases List.mem_cons.1 h with rfl | h
    · exact ⟨simple_field htitle, simple_field hbook⟩
    · cases List.mem_singleton.1 h
      exact simple_field hdue

/-- Lost books are left alone, although the last condition of all holds. -/
theorem conditions_read_overdue :
    plan.statement .delete = .ok deletion ∧ plan.ConditionsRead deletion .delete ∧
    evaluate judge (words conditions) = some .fails := by
  rcases Plan.conditions_read with ⟨_, hfilters, hstatements, _⟩
  have hstatement := hstatements plan .delete deletion statement_deletion
  have hconditions := hfilters plan.columns (.and plan.folded) conditions render_conditions
  have hleaves : ∀ leaf ∈ (Filter.and plan.folded).leaves, leaf.SimpleLeaf plan.columns := by
    intro leaf hleaf
    exact simpleLeaf hleaf
  have halways : judge (words alwaysText) = .holds := by rfl
  have hnever : judge (words neverText) = .fails := by rfl
  have hvalue : (Filter.and plan.folded).value plan.columns (leafTruth words judge) = .fails := by
    rfl
  have heval := hconditions.worded hleaves judge halways hnever
  rw [hvalue] at heval
  exact ⟨statement_deletion, hstatement, heval⟩

end Overdue

end FieldQuery
