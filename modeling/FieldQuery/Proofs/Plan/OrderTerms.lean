import FieldQuery.Proofs.Condition.Clauses
import FieldQuery.Proofs.Condition.Demands
import FieldQuery.Proofs.Plan.SegmentText
import FieldQuery.Proofs.Plan.Stages

/-!
# What rows are ordered by

A term is accepted if a field occurs anywhere in its operand, while only those fields are written
that a mark of their template asks for.  So a term may be written without a column, where a template
has more operands than marks; with no such template the two agree.

Main definitions:

- `Operand.Snug`: each operand of a template is asked for by a mark.
- `Segment.columnNames`: the columns among segments.
- `OrderTerm.WrittenAs`: what is known of an accepted term and its text.

Main statement: `Query.On.ordered`.
-/

namespace FieldQuery

open Condition

/-! ## The columns of an operand -/

namespace Segment

def columnName? : Segment → Option ColumnName
  | .column name => some name
  | _ => none

def columnNames (segments : List Segment) : List ColumnName :=
  segments.filterMap columnName?

@[simp] theorem columnNames_append (front back : List Segment) :
    columnNames (front ++ back) = columnNames front ++ columnNames back :=
  List.filterMap_append

theorem mem_columnNames {segments : List Segment} {name : ColumnName} :
    name ∈ columnNames segments ↔ .column name ∈ segments := by
  simp only [columnNames, List.mem_filterMap]
  constructor
  · rintro ⟨segment, hmem, hname⟩
    cases segment with
    | column found =>
        cases hname
        exact hmem
    | source origin correlation => cases hname
    | other statement => cases hname
  · intro hmem
    exact ⟨_, hmem, rfl⟩

end Segment

namespace Operand

variable {columns : ColumnMap}

/-- The columns that fields stand for. -/
abbrev Resolved (columns : ColumnMap) : List Token → List ColumnName → Prop :=
  List.Forall₂ fun token name => ∃ entry, columns.queryable token = .ok entry ∧ name = entry.name

mutual

/-- The columns of an operand's text are those of the fields that are asked for. -/
theorem resolved_segments : ∀ {operand : Operand} {written : List Segment},
    operand.segments columns = .ok written →
      Resolved columns operand.asked (Segment.columnNames written)
  | .field token, written, hwritten => by
      rw [segments] at hwritten
      rcases map_eq_ok.1 hwritten with ⟨entry, hentry, rfl⟩
      rw [asked]
      exact .cons ⟨entry, hentry, rfl⟩ .nil
  | .value v, written, hwritten => by
      rw [segments] at hwritten
      cases hwritten
      rw [asked]
      exact .nil
  | .wrapped template operands, written, hwritten => by
      rw [segments] at hwritten
      rcases bind_eq_ok.1 hwritten with ⟨behind, hbehind, hall⟩
      cases hall
      have hresolved := resolved_segmentsMarks
        (show segmentsMarks columns operands (templateParts template).2 = .ok behind from hbehind)
      rw [length_templateParts] at hresolved
      rw [asked]
      exact hresolved

theorem resolved_segmentsMarks : ∀ {operands : List Operand} {parts : List String}
    {written : List Segment}, segmentsMarks columns operands parts = .ok written →
      Resolved columns (askedOfFirst operands parts.length) (Segment.columnNames written)
  | operands, [], written, hwritten => by
      rw [segmentsMarks] at hwritten
      cases hwritten
      simp [askedOfFirst, Segment.columnNames]
  -- marks that no operand is left for name no column
  | [], part :: parts, written, hwritten => by
      rw [segmentsMarks] at hwritten
      · cases hwritten
        simp [askedOfFirst, Segment.columnNames, Segment.columnName?]
      · exact List.cons_ne_nil _ _
  | operand :: operands, part :: parts, written, hwritten => by
      rw [segmentsMarks] at hwritten
      rcases bind_eq_ok.1 hwritten with ⟨first, hfirst, hrest⟩
      rcases bind_eq_ok.1 hrest with ⟨behind, hbehind, hall⟩
      cases hall
      have hpart : Segment.columnNames [.other (.ofText part)] = [] := rfl
      rw [Segment.columnNames_append, Segment.columnNames_append, hpart, List.append_nil,
        List.length_cons, askedOfFirst]
      exact List.rel_append (resolved_segments hfirst) (resolved_segmentsMarks hbehind)

end

/-- An operand that is written is made of segments. -/
theorem exists_segments {operand : Operand} {written : Statement}
    (h : operand.render columns = .ok written) : ∃ segments,
      operand.segments columns = .ok segments ∧ Segment.text segments = symbols written := by
  have hsources : SourcesAmong (columns.entries.map (·.quotedTable)) [] columns :=
    ⟨fun entry hentry => List.mem_map_of_mem hentry, fun link hlink => by cases hlink⟩
  have halike := makes_segments hsources operand
  rw [h] at halike
  rcases halike.exists_of_ok with ⟨segments, hsegments, hmakes⟩
  exact ⟨segments, hsegments, hmakes.text⟩

/-! ## Fields and marks -/

mutual

/-- A field that is asked for occurs. -/
theorem hasField_of_asked : ∀ {operand : Operand}, operand.asked ≠ [] → operand.hasField = true
  | .field token, _ => by rw [hasField]
  | .value v, hasked => by
      rw [asked] at hasked
      exact absurd rfl hasked
  | .wrapped template operands, hasked => by
      rw [asked] at hasked
      rw [hasField]
      exact anyHasField_of_asked hasked

theorem anyHasField_of_asked : ∀ {operands : List Operand} {count : Nat},
    askedOfFirst operands count ≠ [] → anyHasField operands = true
  | _, 0, hasked => by
      rw [askedOfFirst] at hasked
      exact absurd rfl hasked
  | [], _ + 1, hasked => by
      rw [askedOfFirst] at hasked
      · exact absurd rfl hasked
      · exact Nat.succ_ne_zero _
  | operand :: operands, count + 1, hasked => by
      rw [askedOfFirst] at hasked
      rw [anyHasField, Bool.or_eq_true]
      by_cases hfirst : operand.asked = []
      · rw [hfirst, List.nil_append] at hasked
        exact .inr (anyHasField_of_asked hasked)
      · exact .inl (hasField_of_asked hfirst)

end

mutual

/-- Each operand of a template is asked for by a mark. -/
def Snug : Operand → Prop
  | .field _ => True
  | .value _ => True
  | .wrapped template operands => operands.length ≤ template.toList.count '?' ∧ AllSnug operands

def AllSnug : List Operand → Prop
  | [] => True
  | operand :: operands => Snug operand ∧ AllSnug operands

end

mutual

/-- Where no template has operands to spare, a field that occurs is asked for. -/
theorem Snug.asked_ne_nil : ∀ {operand : Operand}, operand.Snug → operand.hasField = true →
    operand.asked ≠ []
  | .field token, _, _ => by
      rw [asked]
      exact List.cons_ne_nil _ _
  | .value v, _, hfield => by
      rw [hasField] at hfield
      cases hfield
  | .wrapped template operands, hsnug, hfield => by
      rw [Snug] at hsnug
      rw [hasField] at hfield
      rw [asked]
      exact AllSnug.asked_ne_nil hsnug.2 hsnug.1 hfield

theorem AllSnug.asked_ne_nil : ∀ {operands : List Operand} {count : Nat}, AllSnug operands →
    operands.length ≤ count → anyHasField operands = true → askedOfFirst operands count ≠ []
  | [], _, _, _, hfield => by
      rw [anyHasField] at hfield
      cases hfield
  | operand :: operands, 0, _, hcount, _ => by cases hcount
  | operand :: operands, count + 1, hsnug, hcount, hfield => by
      rw [AllSnug] at hsnug
      rw [anyHasField, Bool.or_eq_true] at hfield
      rw [askedOfFirst]
      rcases hfield with hfirst | hrest
      · exact List.append_ne_nil_of_left_ne_nil (hsnug.1.asked_ne_nil hfirst) _
      · have hothers := AllSnug.asked_ne_nil hsnug.2 (Nat.le_of_succ_le_succ hcount) hrest
        exact List.append_ne_nil_of_right_ne_nil _ hothers

end

end Operand

/-! ## Terms -/

/-- A direction is refused for itself. -/
theorem Direction.parse_ne_orderWithoutField {text : String} :
    Direction.parse text ≠ .error .orderWithoutField := by
  unfold Direction.parse
  dsimp only
  split
  · exact fun h => by cases h
  · split
    · exact fun h => by cases h
    · split <;> exact fun h => by cases h

/-- An accepted term, and its text: the columns that stand in it are those of the fields that are
asked for. -/
structure OrderTerm.WrittenAs (columns : ColumnMap) (term : OrderTerm) (written : Statement) :
    Prop where
  hasField : term.operand.hasField = true
  text : ∃ front segments, term.operand.render columns = .ok front ∧
    written = front ++ .ofText term.direction.sql ∧
    term.operand.segments columns = .ok segments ∧ Segment.text segments = symbols front ∧
    Operand.Resolved columns term.operand.asked (Segment.columnNames segments) ∧
    ((∃ name, .column name ∈ segments) ↔ term.operand.asked ≠ [])

namespace Plan

variable {plan next : Plan}

theorem order_mapTarget {target : Target} {mapped : MappedTarget}
    (hmap : plan.mapTarget target = (next, .ok mapped)) : next.order = plan.order := by
  cases target with
  | model target =>
      rcases (mapModel_result hmap).1 with ⟨touched, rfl⟩
      rfl
  | plan sub =>
      rcases plan.mapPlan_result sub with ⟨errors, touched, query, hresult, -⟩
      have hnext : next = (plan.mapPlan sub).1 := (congrArg Prod.fst hmap).symm
      rw [hnext, hresult]
  | raw target query =>
      rcases (mapRaw_result hmap).1 with ⟨touched, rfl⟩
      rfl

theorem order_addOn (plan : Plan) (filters : List Filter) :
    (plan.addOn filters).order = plan.order := by
  unfold addOn
  split <;> rfl

theorem order_addFilters (filters : List Filter) (plan : Plan) :
    (filters.foldl addFilter plan).order = plan.order := by
  induction filters generalizing plan with
  | nil => rfl
  | cons first rest ih =>
      have hone : (plan.addFilter first).order = plan.order := by
        unfold addFilter
        split <;> rfl
      exact (ih (plan.addFilter first)).trans hone

theorem order_addFields (tokens : List Token) (plan : Plan) :
    (tokens.foldl addField plan).order = plan.order := by
  induction tokens generalizing plan with
  | nil => rfl
  | cons first rest ih =>
      have hone : (plan.addField first).order = plan.order := by
        unfold addField
        split
        · rfl
        · split
          · unfold openLazyJoin
            dsimp only
            rw [touch_eq]
          · split <;> rfl
      exact (ih (plan.addField first)).trans hone

/-- What ordering comes to. -/
theorem orderBy_cases (plan : Plan) (operand : Operand) (direction : String) :
    (∃ error, Direction.parse direction = .error error ∧
      plan.orderBy operand direction = plan.fail error) ∨
    ∃ order, Direction.parse direction = .ok order ∧
      (operand.hasField = false ∧ plan.orderBy operand direction = plan.fail .orderWithoutField ∨
        operand.hasField = true ∧ plan.orderBy operand direction =
          { plan with order := plan.order ++ [⟨operand, order⟩] }) := by
  unfold orderBy
  cases hdirection : Direction.parse direction with
  | error error => exact .inl ⟨error, rfl, rfl⟩
  | ok order =>
      refine .inr ⟨order, rfl, ?_⟩
      cases hfield : operand.hasField with
      | true => exact .inr ⟨rfl, rfl⟩
      | false => exact .inl ⟨rfl, rfl⟩

/-- A term of the order was there before, or has been accepted. -/
theorem mem_order_apply {call : Call} (herrors : (plan.apply call).errors = []) {term : OrderTerm}
    (hterm : term ∈ (plan.apply call).order) :
    term ∈ plan.order ∨ term.operand.hasField = true := by
  have hkept : (plan.apply call).order = plan.order →
      term ∈ plan.order ∨ term.operand.hasField = true := fun horder => .inl (horder ▸ hterm)
  cases call with
  | join kind target =>
      rcases mapTarget_of_openJoinOn herrors with ⟨mappedPlan, mapped, hmap, -⟩
      have hmapped : mappedPlan.order = plan.closeJoin.order := order_mapTarget hmap
      refine hkept ?_
      show (plan.openJoinOn kind target).order = plan.order
      rw [openJoinOn_of_ok hmap]
      exact hmapped
  | startWhere => exact hkept rfl
  | on filters => exact hkept (plan.order_addOn filters)
  | references =>
      refine hkept ?_
      show plan.addReferences.order = plan.order
      unfold addReferences
      split
      · rfl
      · exact order_addOn _ _
  | filter filters => exact hkept (order_addFilters filters plan)
  | assign token value =>
      refine hkept ?_
      show (plan.assign token value).order = plan.order
      unfold assign
      split <;> rfl
  | orderBy operand direction =>
      have happly : plan.apply (.orderBy operand direction) = plan.orderBy operand direction := rfl
      rw [happly] at herrors hterm
      rcases plan.orderBy_cases operand direction with
        ⟨error, -, hfail⟩ | ⟨order, -, ⟨-, hfail⟩ | ⟨hfield, haccepted⟩⟩
      · rw [hfail] at herrors
        exact absurd herrors (errors_fail _ _)
      · rw [hfail] at herrors
        exact absurd herrors (errors_fail _ _)
      · rw [haccepted] at hterm
        rcases List.mem_append.1 hterm with hold | hnew
        · exact .inl hold
        · rw [List.mem_singleton.1 hnew]
          exact .inr hfield
  | groupBy token =>
      refine hkept ?_
      show (plan.groupBy token).order = plan.order
      unfold groupBy
      split <;> rfl
  | discardOrder => cases hterm
  | limit count => exact hkept rfl
  | offset count => exact hkept rfl
  | fields tokens => exact hkept (order_addFields tokens plan.unwanted)
  | addField token => exact hkept (order_addFields [token] plan)
  | withoutCache => exact hkept rfl

/-- The terms of a clause are written one by one. -/
theorem writtenAs_orderTerms {columns : ColumnMap} {terms : List OrderTerm}
    {written : List Statement} (h : ∀ term ∈ terms, term.operand.hasField = true)
    (hwritten : orderTerms columns terms = .ok written) :
    List.Forall₂ (OrderTerm.WrittenAs columns) terms written := by
  induction terms generalizing written with
  | nil =>
      cases hwritten
      exact .nil
  | cons term rest ih =>
      rcases bind_eq_ok.1 hwritten with ⟨front, hfront, hrest⟩
      rcases bind_eq_ok.1 hrest with ⟨others, hothers, hall⟩
      cases hall
      rcases List.forall_mem_cons.1 h with ⟨hterm, hterms⟩
      rcases Operand.exists_segments hfront with ⟨segments, hsegments, htext⟩
      have hresolved := Operand.resolved_segments hsegments
      refine .cons ⟨hterm, front, segments, hfront, rfl, hsegments, htext, hresolved, ?_⟩
        (ih hterms hothers)
      have hempty : Segment.columnNames segments = [] ↔ term.operand.asked = [] := by
        rw [← List.length_eq_zero_iff, ← List.length_eq_zero_iff, hresolved.length_eq]
      rw [Ne, ← hempty, List.eq_nil_iff_forall_not_mem]
      simp [Segment.mem_columnNames]

theorem writtenAs_orderClause {written : Statement}
    (h : ∀ term ∈ plan.order, term.operand.hasField = true)
    (hwritten : plan.orderClause = .ok written) : ∃ terms,
      written = (if plan.order = [] then .empty else .ofText " ORDER BY " ++ .join ", " terms) ∧
        List.Forall₂ (OrderTerm.WrittenAs plan.columns) plan.order terms := by
  unfold orderClause at hwritten
  cases horder : plan.order with
  | nil =>
      rw [horder] at hwritten
      cases hwritten
      exact ⟨[], rfl, .nil⟩
  | cons term rest =>
      rw [horder] at hwritten h
      rcases map_eq_ok.1 hwritten with ⟨terms, hterms, rfl⟩
      exact ⟨terms, rfl, writtenAs_orderTerms h hterms⟩

/-- An order is accepted, or answered with one error; which one it is, is told by the direction and
the fields of the operand. -/
theorem errors_orderBy (plan : Plan) (operand : Operand) (direction : String) :
    (∀ error, Direction.parse direction = .error error →
      (plan.orderBy operand direction).errors = plan.errors ++ [error]) ∧
    ((plan.orderBy operand direction).errors = plan.errors ++ [.orderWithoutField] ↔
      (∃ order, Direction.parse direction = .ok order) ∧ operand.hasField = false) ∧
    ((plan.orderBy operand direction).errors = plan.errors ↔
      ∃ order, Direction.parse direction = .ok order ∧ operand.hasField = true ∧
        (plan.orderBy operand direction).order = plan.order ++ [⟨operand, order⟩]) := by
  rcases plan.orderBy_cases operand direction with
    ⟨error, herror, hfail⟩ | ⟨order, hparse, ⟨hfield, hfail⟩ | ⟨hfield, haccepted⟩⟩
  · have hdirection : error ≠ .orderWithoutField := by
      rintro rfl
      exact Direction.parse_ne_orderWithoutField herror
    simp [hfail, fail, herror, hdirection]
  · simp [hfail, fail, hparse, hfield]
  · simp [haccepted, hparse, hfield]

end Plan

namespace Query

variable {target : Target} {query : Query}

/-- What is ordered by has been accepted. -/
theorem On.hasField (h : query.On target) (herrors : query.plan.errors = []) :
    ∀ term ∈ query.plan.order, term.operand.hasField = true := by
  induction h with
  | @start dialect catalog cacheable lazyJoins =>
      rcases Plan.mapTarget_of_mapRoot herrors with ⟨next, mapped, hmap, -⟩
      have horder := Plan.order_mapTarget hmap
      intro term hterm
      have hmapped : term ∈ next.order := by
        have hstart : (Query.start dialect catalog cacheable lazyJoins target).plan.order =
            next.order := by
          show (Plan.mapRoot _ target).order = next.order
          rw [Plan.mapRoot_of_ok hmap]
        rw [← hstart]
        exact hterm
      rw [horder] at hmapped
      cases hmapped
  | @call query next call _ hnext ih =>
      have hbefore := (continues_call? hnext).errors_nil herrors
      rw [(call?_eq_some.1 hnext).2] at herrors ⊢
      intro term hterm
      rcases Plan.mem_order_apply herrors hterm with hold | hnew
      · exact ih hbefore term hold
      · exact hnew

/-- The `ORDER BY` clause of a `SELECT` is made of accepted terms, and a column stands in a term just
if a mark asks for a field.  A term is refused for its direction first, and for want of a field just
if none occurs in it; where no template has more operands than marks, a field that occurs is asked
for. -/
theorem On.ordered (h : query.On target) :
    (query.plan.errors = [] → ∀ statement, query.plan.statement .select = .ok statement →
      ∃ front terms order, statement = front ++ order ++ query.plan.paging ∧
        order = (if query.plan.order = [] then .empty
          else .ofText " ORDER BY " ++ .join ", " terms) ∧
        List.Forall₂ (OrderTerm.WrittenAs query.plan.columns) query.plan.order terms) ∧
    (∀ operand direction next, query.call? (.orderBy operand direction) = some next →
      (∀ error, Direction.parse direction = .error error →
        next.plan.errors = query.plan.errors ++ [error]) ∧
      (next.plan.errors = query.plan.errors ++ [.orderWithoutField] ↔
        (∃ order, Direction.parse direction = .ok order) ∧ operand.hasField = false) ∧
      (next.plan.errors = query.plan.errors ↔
        ∃ order, Direction.parse direction = .ok order ∧ operand.hasField = true ∧
          next.plan.order = query.plan.order ++ [⟨operand, order⟩])) ∧
    ∀ operand : Operand, (operand.asked ≠ [] → operand.hasField = true) ∧
      (operand.Snug → operand.hasField = true → operand.asked ≠ []) := by
  refine ⟨?_, ?_, fun operand => ⟨Operand.hasField_of_asked, fun hsnug => hsnug.asked_ne_nil⟩⟩
  · intro herrors statement hstatement
    rcases Plan.conditionsRead_statement hstatement with ⟨clauses, rfl, hread⟩
    rcases hread with ⟨joins, conditions, order, rfl, -, -, horder⟩
    rcases Plan.writtenAs_orderClause (h.hasField herrors) horder with ⟨terms, horder, hterms⟩
    have hfront : ∀ items clauses paging : Statement,
        items ++ (clauses ++ order ++ paging) = items ++ clauses ++ order ++ paging := by
      intro items clauses paging
      simp only [Statement.append_assoc]
    exact ⟨_, terms, order, hfront _ _ _, horder, hterms⟩
  · intro operand direction next hnext
    rw [(call?_eq_some.1 hnext).2]
    exact Plan.errors_orderBy query.plan operand direction

end Query

namespace Leaflets

def table : Table :=
  { name := "leaflets", columns := [{ name := "id", field := "id", primaryKey := true }] }

def target : Target :=
  .model ⟨table, none, [⟨1⟩]⟩

def start : Query :=
  .start .postgres ⟨[table]⟩ false [] target

def byKey : Query :=
  ⟨.selecting, start.plan.apply (.orderBy (.wrapped "lower(?)" [.field ⟨1⟩]) "desc")⟩

/-- A column stands in the text of a term that a mark asks for a field in; without the field the
order is refused. -/
theorem ordered_byKey : Query.On target start ∧ Query.On target byKey ∧
    byKey.plan.errors = [] ∧
    (∃ statement, byKey.plan.statement .select = .ok statement ∧ ∃ term ∈ byKey.plan.order,
      ∃ segments, term.operand.segments byKey.plan.columns = .ok segments ∧
        ∃ name, .column name ∈ segments) ∧
    ∃ next, start.call? (.orderBy (.wrapped "lower(?)" []) "desc") = some next ∧
      next.plan.errors = [.orderWithoutField] := by
  have hcall : start.call? (.orderBy (.wrapped "lower(?)" [.field ⟨1⟩]) "desc") = some byKey :=
    rfl
  have hstart : Query.On target start := .start
  have hbyKey : Query.On target byKey := .call hstart hcall
  have hselect : ∃ statement, byKey.plan.statement .select = .ok statement := ⟨_, rfl⟩
  rcases hselect with ⟨statement, hstatement⟩
  rcases hbyKey.ordered.1 rfl statement hstatement with ⟨front, terms, order, -, -, hterms⟩
  rcases hterms with _ | ⟨hterm, -⟩
  rcases hterm.text with ⟨written, segments, -, -, hsegments, -, -, hcolumns⟩
  have hname := hcolumns.2 (by decide)
  have hrefused : start.call? (.orderBy (.wrapped "lower(?)" []) "desc") = some _ := rfl
  have herrors := (hstart.ordered.2.1 _ _ _ hrefused).2.1.2 ⟨⟨.descending, by decide⟩, by decide⟩
  exact ⟨hstart, hbyKey, rfl,
    ⟨statement, hstatement, _, List.mem_singleton_self _, segments, hsegments, hname⟩,
    _, hrefused, herrors⟩

/-- No mark asks for the field. -/
def now : Operand :=
  .wrapped "now()" [.field ⟨1⟩]

def latest : Query :=
  ⟨.selecting, start.plan.apply (.orderBy now "desc")⟩

/-- The leaflets are ordered by the time of day, as if it were a column of theirs.  An order without
any field is answered for its direction, if that is not one either. -/
theorem ordered_without_column :
    start.call? (.orderBy now "desc") = some latest ∧ latest.plan.errors = [] ∧
    (∃ statement, latest.plan.statement .select = .ok statement ∧ statement.sql .postgres =
      "SELECT \"leaflets\".\"id\" AS \"id\" FROM \"leaflets\" ORDER BY now() DESC") ∧
    latest.plan.order = [⟨now, .descending⟩] ∧
    now.render latest.plan.columns = .ok (.ofText "now()") ∧
    latest.plan.columns.entries.map (·.qualified) = ["\"leaflets\".\"id\""] ∧
    (∃ next, start.call? (.orderBy (.wrapped "now()" []) "sideways") = some next ∧
      next.plan.errors = [.invalidOrderDirection "sideways"]) :=
  ⟨rfl, rfl, ⟨_, rfl, rfl⟩, rfl, rfl, rfl, _, rfl, rfl⟩

end Leaflets

end FieldQuery
