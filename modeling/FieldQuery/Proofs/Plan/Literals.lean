import FieldQuery.Plan.Stage
import FieldQuery.Proofs.Condition.Layout
import FieldQuery.Proofs.Plan.LiteralText

/-!
# The values of a statement

Text and values of a statement are written side by side, from operands up to whole plans, and end up
in two lists.  Both can be told from the plan alone: with the values put back where their marks
stand, the text is the one that has the plan's literals written out; and the values come clause by
clause, with those of a sub-query where it stands.

Main definitions:

- `Carries`: a statement has the text and the values that it should have.
- `Slot`: a value, or a sub-query with values of its own.
- `Plan.slots`: what is bound in the statement for an action.
- `Slot.Unfolds`: the values of slots, with sub-queries unfolded to any depth.

Main statement: `Plan.statement_literals`.
-/

namespace FieldQuery

open Condition

/-- A statement that reads like a text once its values are written in place of their marks, and
binds these values in this order. -/
structure Carries (statement : Statement) (text : (BindValue → String) → String)
    (values : List BindValue) : Prop where
  inPlace : ∀ literal, statement.inPlace literal = text literal
  arguments : statement.arguments = values

/-! ## Rows of statements -/

namespace Statement

variable (literal : BindValue → String)

theorem inPlace_join (separator : String) : ∀ parts : List Statement,
    (join separator parts).inPlace literal = separator.intercalate (parts.map (inPlace literal))
  | [] => rfl
  | [only] => by simp [join]
  | first :: second :: rest => by
      have hrest := inPlace_join separator (second :: rest)
      rw [join, inPlace_append, inPlace_append, hrest]
      simp [String.append_assoc]

theorem arguments_join (separator : String) :
    ∀ parts : List Statement, (join separator parts).arguments = parts.flatMap arguments
  | [] => rfl
  | [only] => (List.append_nil _).symm
  | first :: second :: rest => by
      have hrest := arguments_join separator (second :: rest)
      rw [join, arguments_append, arguments_append, hrest]
      simp

theorem inPlace_ofValues (values : List BindValue) :
    (ofValues values).inPlace literal = ", ".intercalate (values.map literal) := by
  rw [ofValues_eq, inPlace_join]
  simp [Function.comp_def]

theorem arguments_ofValues (values : List BindValue) : (ofValues values).arguments = values := by
  rw [ofValues_eq, arguments_join]
  induction values with
  | nil => rfl
  | cons value rest ih => simpa using ih

end Statement

/-! ## Operands -/

namespace Operand

mutual

/-- The values of an operand.  A template takes as many operands as it has question marks. -/
def literals : Operand → List BindValue
  | .field _ => []
  | .value v => [v]
  | .wrapped template operands => literalsOfFirst operands (template.toList.count '?')

def literalsOfFirst : List Operand → Nat → List BindValue
  | _, 0 => []
  | [], _ => []
  | operand :: operands, count + 1 => literals operand ++ literalsOfFirst operands count

end

theorem length_splitMarks (mark : Char) (cs : List Char) :
    (splitMarks mark cs).2.length = cs.count mark := by
  induction cs with
  | nil => rfl
  | cons c rest ih =>
      unfold splitMarks
      by_cases hmark : c = mark
      · simp [hmark, ih]
      · simp [hmark, ih]

theorem length_templateParts (template : String) :
    (templateParts template).2.length = template.toList.count '?' := by
  unfold templateParts
  simp [length_splitMarks]

/-- The text of a template behind its first part: texts in turn, each in front of the next part. -/
def filledParts : List String → List String → String
  | [], _ => ""
  | part :: parts, texts => texts.headD "NULL" ++ part ++ filledParts parts texts.tail

/-- A template is filled part by part. -/
theorem filled_eq (cs : List Char) (texts : List String) :
    filled cs texts = String.ofList (splitMarks '?' cs).1 ++
      filledParts ((splitMarks '?' cs).2.map String.ofList) texts := by
  induction cs generalizing texts with
  | nil => rfl
  | cons c rest ih =>
      unfold filled splitMarks
      by_cases hmark : c = '?'
      · simp [hmark, ih, filledParts, String.append_assoc]
      · simp [hmark, ih, String.ofList_cons, String.append_assoc]

/-- Nothing is bound where a template has no operands left. -/
theorem carries_withoutOperands (parts : List String) :
    Carries (withoutOperands parts) (fun _ => filledParts parts []) [] := by
  have hfold : ∀ written : Statement, Carries (parts.foldl
      (fun statement part => statement ++ .ofText ("NULL" ++ part)) written)
      (fun literal => written.inPlace literal ++ filledParts parts []) written.arguments := by
    induction parts with
    | nil => exact fun written => ⟨fun _ => by simp [filledParts], rfl⟩
    | cons part rest ih =>
        intro written
        have hrest := ih (written ++ .ofText ("NULL" ++ part))
        refine ⟨fun literal => ?_, ?_⟩
        · rw [List.foldl_cons, hrest.inPlace]
          simp [filledParts, String.append_assoc]
        · rw [List.foldl_cons, hrest.arguments]
          simp
  have hempty := hfold .empty
  exact ⟨fun literal => by simp [withoutOperands, hempty.inPlace], hempty.arguments⟩

theorem carries_qualifiedColumn {columns : ColumnMap} {token : Token} {written : Statement}
    (h : (columns.qualifiedColumn token).map .ofText = .ok written) :
    Carries written (fun _ => columns.qualifiedText token) [] := by
  rcases map_eq_ok.1 h with ⟨column, hcolumn, rfl⟩
  exact ⟨fun literal => by simp [ColumnMap.qualifiedText, hcolumn, Except.toOption], rfl⟩

variable {columns : ColumnMap}

mutual

/-- An operand is written with its values. -/
theorem carries_render : ∀ {operand : Operand} {written : Statement},
    operand.render columns = .ok written →
      Carries written (operand.inPlace · columns) operand.literals
  | .field token, written, hwritten => by
      rw [render] at hwritten
      have hfield := carries_qualifiedColumn hwritten
      exact ⟨fun literal => by rw [hfield.inPlace, inPlace], by rw [hfield.arguments, literals]⟩
  | .value v, written, hwritten => by
      rw [render] at hwritten
      cases hwritten
      exact ⟨fun literal => by simp [inPlace], by simp [literals]⟩
  | .wrapped template operands, written, hwritten => by
      rw [render] at hwritten
      rcases bind_eq_ok.1 hwritten with ⟨behind, hbehind, hall⟩
      cases hall
      have hmarks := carries_renderMarks hbehind
      refine ⟨fun literal => ?_, ?_⟩
      · rw [Statement.inPlace_append, hmarks.inPlace, inPlace, filled_eq]
        simp
      · -- the parts behind the first are as many as the marks
        rw [Statement.arguments_append, hmarks.arguments, List.length_map, length_splitMarks,
          literals]
        rfl

theorem carries_renderMarks : ∀ {operands : List Operand} {parts : List String}
    {written : Statement}, renderMarks columns operands parts = .ok written →
      Carries written (fun literal => filledParts parts (inPlaceEach literal columns operands))
        (literalsOfFirst operands parts.length)
  -- operands that no mark asks for are not written
  | operands, [], written, hwritten => by
      rw [renderMarks] at hwritten
      cases hwritten
      exact ⟨fun literal => by simp [filledParts], by simp [literalsOfFirst]⟩
  -- marks that no operand is left for bind nothing
  | [], part :: parts, written, hwritten => by
      rw [renderMarks] at hwritten
      · cases hwritten
        have hnone := carries_withoutOperands (part :: parts)
        exact ⟨fun literal => by rw [hnone.inPlace, inPlaceEach],
          by simp [hnone.arguments, literalsOfFirst]⟩
      · exact fun h => by cases h
  | operand :: operands, part :: parts, written, hwritten => by
      rw [renderMarks] at hwritten
      rcases bind_eq_ok.1 hwritten with ⟨first, hfirst, hrest⟩
      rcases bind_eq_ok.1 hrest with ⟨behind, hbehind, hall⟩
      cases hall
      have hhead := carries_render hfirst
      have htail := carries_renderMarks hbehind
      refine ⟨fun literal => ?_, ?_⟩
      · simp [hhead.inPlace, htail.inPlace, inPlaceEach, filledParts]
      · simp [hhead.arguments, htail.arguments, literalsOfFirst]

end

end Operand

/-! ## Slots -/

/-- A value of a statement, or a sub-query with the values that are bound in it. -/
inductive Slot
  | value (value : BindValue)
  | query (query : Statement)

namespace Slot

/-- The values of a slot, of a sub-query those that are written in it. -/
def arguments : Slot → List BindValue
  | .value v => [v]
  | .query q => q.arguments

def ofValues (values : List BindValue) : List Slot :=
  values.map .value

/-- The values of slots in a row. -/
def argumentsOf (slots : List Slot) : List BindValue :=
  slots.flatMap arguments

@[simp] theorem argumentsOf_nil : argumentsOf [] = [] := rfl

@[simp] theorem argumentsOf_append (front back : List Slot) :
    argumentsOf (front ++ back) = argumentsOf front ++ argumentsOf back :=
  List.flatMap_append

@[simp] theorem argumentsOf_ofValues (values : List BindValue) :
    argumentsOf (ofValues values) = values := by
  induction values with
  | nil => rfl
  | cons value rest ih =>
      show value :: argumentsOf (ofValues rest) = value :: rest
      rw [ih]

@[simp] theorem argumentsOf_query (query : Statement) :
    argumentsOf [.query query] = query.arguments :=
  List.append_nil _

theorem argumentsOf_flatMap {α : Type} (slots : α → List Slot) (items : List α) :
    argumentsOf (items.flatMap slots) = items.flatMap fun item => argumentsOf (slots item) :=
  List.flatMap_assoc

end Slot

/-! ## Conditions -/

namespace Fragment

def literals : Fragment → List BindValue
  | .value v => [v]
  | .sql _ | .qualifiedColumn _ | .bareColumn _ | .fail _ => []

variable {columns : ColumnMap}

theorem carries_render {fragment : Fragment} {written : Statement}
    (h : fragment.render columns = .ok written) :
    Carries written (fragment.inPlace · columns) fragment.literals := by
  cases fragment with
  | sql text =>
      cases h
      exact ⟨fun literal => by simp [inPlace], rfl⟩
  | value v =>
      cases h
      exact ⟨fun literal => by simp [inPlace], rfl⟩
  | qualifiedColumn token => exact Operand.carries_qualifiedColumn h
  | bareColumn token =>
      rcases map_eq_ok.1 h with ⟨column, hcolumn, rfl⟩
      exact ⟨fun literal => by simp [inPlace, ColumnMap.bareText, hcolumn, Except.toOption], rfl⟩
  | fail error => cases h

theorem carries_renderAll {fragments : List Fragment} {written : Statement}
    (h : renderAll columns fragments = .ok written) :
    Carries written (fun literal => String.join (fragments.map (·.inPlace literal columns)))
      (fragments.flatMap literals) := by
  induction fragments generalizing written with
  | nil =>
      cases h
      exact ⟨fun literal => by simp, rfl⟩
  | cons fragment rest ih =>
      rw [renderAll] at h
      rcases bind_eq_ok.1 h with ⟨first, hfirst, hrest⟩
      rcases bind_eq_ok.1 hrest with ⟨others, hothers, hall⟩
      cases hall
      have hhead := carries_render hfirst
      have htail := ih hothers
      exact ⟨fun literal => by simp [hhead.inPlace, htail.inPlace],
        by simp [hhead.arguments, htail.arguments]⟩

end Fragment

namespace Filter

mutual

/-- What is bound in a condition.  One that is written by hand is asked with the column map. -/
def slots (columns : ColumnMap) : Filter → List Slot
  | .and filters => slotsOf columns filters
  | .or filters => slotsOf columns filters
  | .not filter => slots columns filter
  | .compare left _ right => Slot.ofValues (left.literals ++ right.literals)
  | .null operand _ => Slot.ofValues operand.literals
  | .truth operand _ => Slot.ofValues operand.literals
  -- the operand is not written either
  | .inList _ [] => []
  | .inList operand values => Slot.ofValues (operand.literals ++ values)
  | .inQuery operand query => Slot.ofValues operand.literals ++ [.query query]
  | .verbatim _ => []
  | .invalid _ => []
  | .custom steps => Slot.ofValues ((steps columns).flatMap Fragment.literals)

def slotsOf (columns : ColumnMap) : List Filter → List Slot
  | [] => []
  | filter :: rest => slots columns filter ++ slotsOf columns rest

end

variable {columns : ColumnMap}

theorem slotsOf_append (front back : List Filter) :
    slotsOf columns (front ++ back) = slotsOf columns front ++ slotsOf columns back := by
  induction front with
  | nil => rfl
  | cons filter rest ih => simp [slotsOf, ih]

theorem slotsOf_flatMap {α : Type} (filters : α → List Filter) (items : List α) :
    slotsOf columns (items.flatMap filters) =
      items.flatMap fun item => slotsOf columns (filters item) := by
  induction items with
  | nil => rfl
  | cons item rest ih => simp [slotsOf_append, ih]

/-- What a condition writes, if anything, has its text and its values. -/
def Carried (columns : ColumnMap) (filter : Filter) : Prop :=
  ∀ written, filter.render columns = .ok written →
    Carries written (filter.inPlace · columns) (Slot.argumentsOf (filter.slots columns))

theorem carries_renderEach {filters : List Filter} (h : ∀ filter ∈ filters, filter.Carried columns)
    {written : List Statement} (hwritten : renderEach columns filters = .ok written) :
    (∀ literal, written.map (·.inPlace literal) = inPlaceEach literal columns filters) ∧
      written.flatMap Statement.arguments = Slot.argumentsOf (slotsOf columns filters) := by
  induction filters generalizing written with
  | nil =>
      rw [renderEach] at hwritten
      cases hwritten
      exact ⟨fun literal => by rw [inPlaceEach, List.map_nil], rfl⟩
  | cons filter rest ih =>
      rw [renderEach] at hwritten
      rcases bind_eq_ok.1 hwritten with ⟨first, hfirst, hrest⟩
      rcases bind_eq_ok.1 hrest with ⟨others, hothers, hall⟩
      cases hall
      have hhead := h filter List.mem_cons_self first hfirst
      have htail := ih (fun other hother => h other (List.mem_cons_of_mem _ hother)) hothers
      -- parentheses bind nothing
      have henclosed : Carries (if filter.isGroup then parenthesized first else first)
          (fun literal => if filter.isGroup then "(" ++ filter.inPlace literal columns ++ ")"
            else filter.inPlace literal columns) (Slot.argumentsOf (filter.slots columns)) := by
        split
        · exact ⟨fun literal => by simp [parenthesized, hhead.inPlace],
            by simp [parenthesized, hhead.arguments]⟩
        · exact hhead
      exact ⟨fun literal => by rw [List.map_cons, henclosed.inPlace, htail.1, inPlaceEach],
        by simp [henclosed.arguments, htail.2, slotsOf]⟩

/-- A list of conditions is read as it is written: none at all, one alone, or several in a row. -/
structure ReadsGroup (columns : ColumnMap) (group : List Filter → Filter) (separator : String)
    (empty : Statement) : Prop where
  none : ∀ literal, (group []).inPlace literal columns = empty.inPlace literal
  one : ∀ only literal, (group [only]).inPlace literal columns = only.inPlace literal columns
  many : ∀ first second rest literal, (group (first :: second :: rest)).inPlace literal columns =
    separator.intercalate (inPlaceEach literal columns (first :: second :: rest))
  slots : ∀ filters, (group filters).slots columns = slotsOf columns filters

theorem readsGroup_and (columns : ColumnMap) : ReadsGroup columns .and " AND " alwaysText where
  none := by simp [inPlace, alwaysText]
  one := by simp [inPlace]
  many := by simp [inPlace]
  slots := by simp [Filter.slots]

theorem readsGroup_or (columns : ColumnMap) : ReadsGroup columns .or " OR " neverText where
  none := by simp [inPlace, neverText]
  one := by simp [inPlace]
  many := by simp [inPlace]
  slots := by simp [Filter.slots]

theorem carried_group {group : List Filter → Filter} {separator : String} {empty : Statement}
    (hwrites : WritesGroup columns group separator empty)
    (hreads : ReadsGroup columns group separator empty) (hempty : empty.arguments = [])
    {filters : List Filter} (h : ∀ filter ∈ filters, filter.Carried columns) :
    (group filters).Carried columns := by
  intro written hwritten
  rw [hreads.slots]
  match filters, h, hwritten with
  | [], _, hwritten =>
      cases hwrites.none.symm.trans hwritten
      exact ⟨fun literal => (hreads.none literal).symm, hempty⟩
  | [only], h, hwritten =>
      have honly := h only List.mem_cons_self written ((hwrites.one only).symm.trans hwritten)
      exact ⟨fun literal => by rw [honly.inPlace, hreads.one],
        by simp [honly.arguments, slotsOf]⟩
  | first :: second :: rest, h, hwritten =>
      rcases map_eq_ok.1 ((hwrites.many first second rest).symm.trans hwritten) with
        ⟨parts, hparts, rfl⟩
      have heach := carries_renderEach h hparts
      exact ⟨fun literal => by rw [Statement.inPlace_join, heach.1, hreads.many],
        by rw [Statement.arguments_join, heach.2]⟩

/-- A condition is written with its values. -/
theorem carried (columns : ColumnMap) (filter : Filter) : filter.Carried columns := by
  induction filter using Filter.induction with
  | and filters ih => exact carried_group (writesGroup_and columns) (readsGroup_and columns) rfl ih
  | or filters ih => exact carried_group (writesGroup_or columns) (readsGroup_or columns) rfl ih
  | not filter ih =>
      intro written hwritten
      rw [render] at hwritten
      rcases bind_eq_ok.1 hwritten with ⟨inner, hinner, hall⟩
      cases hall
      have hvalues := ih inner hinner
      exact ⟨fun literal => by simp [hvalues.inPlace, inPlace],
        by simp [hvalues.arguments, slots]⟩
  | truth operand negated =>
      intro written hwritten
      rw [render] at hwritten
      rcases bind_eq_ok.1 hwritten with ⟨inner, hinner, hall⟩
      cases hall
      have hvalues := Operand.carries_render hinner
      exact ⟨fun literal => by simp [hvalues.inPlace, inPlace],
        by simp [hvalues.arguments, slots]⟩
  | never operand =>
      intro written hwritten
      rw [render] at hwritten
      cases hwritten
      exact ⟨fun literal => by simp [inPlace], by simp [slots]⟩
  | leaf filter hleaf =>
      intro written hwritten
      cases hleaf with
      | compare left comparison right =>
          rw [render] at hwritten
          rcases bind_eq_ok.1 hwritten with ⟨first, hfirst, hrest⟩
          rcases bind_eq_ok.1 hrest with ⟨second, hsecond, hall⟩
          cases hall
          have hleft := Operand.carries_render hfirst
          have hright := Operand.carries_render hsecond
          exact ⟨fun literal => by simp [hleft.inPlace, hright.inPlace, inPlace],
            by simp [hleft.arguments, hright.arguments, slots]⟩
      | null operand negated =>
          rw [render] at hwritten
          rcases bind_eq_ok.1 hwritten with ⟨inner, hinner, hall⟩
          cases hall
          have hvalues := Operand.carries_render hinner
          exact ⟨fun literal => by simp [hvalues.inPlace, inPlace],
            by simp [hvalues.arguments, slots]⟩
      | inList operand first rest =>
          rw [render] at hwritten
          · rcases bind_eq_ok.1 hwritten with ⟨inner, hinner, hall⟩
            cases hall
            have hvalues := Operand.carries_render hinner
            exact ⟨fun literal => by simp [hvalues.inPlace, Statement.inPlace_ofValues, inPlace],
              by simp [hvalues.arguments, Statement.arguments_ofValues, slots]⟩
          · exact List.cons_ne_nil _ _
      | inQuery operand query =>
          rw [render] at hwritten
          rcases bind_eq_ok.1 hwritten with ⟨inner, hinner, hall⟩
          cases hall
          have hvalues := Operand.carries_render hinner
          exact ⟨fun literal => by simp [hvalues.inPlace, inPlace],
            by simp [hvalues.arguments, slots]⟩
      | verbatim condition =>
          rw [render] at hwritten
          cases hwritten
          exact ⟨fun literal => by simp [inPlace], by simp [slots]⟩
      | invalid error =>
          rw [render] at hwritten
          cases hwritten
      | custom steps =>
          rw [render] at hwritten
          have hvalues := Fragment.carries_renderAll hwritten
          exact ⟨fun literal => by rw [hvalues.inPlace, inPlace],
            by simp [hvalues.arguments, slots]⟩

end Filter

/-! ## Plans -/

/-- What is bound in a source. -/
def Source.slots : Source → List Slot
  | .named _ => []
  | .derived query _ => [.query query]

theorem Source.carries_render (source : Source) :
    Carries source.render (source.inPlace ·) (Slot.argumentsOf source.slots) := by
  cases source with
  | named quoted => exact ⟨fun literal => by simp [render, inPlace], rfl⟩
  | derived query correlation =>
      exact ⟨fun literal => by simp [render, inPlace, String.append_assoc],
        by simp [render, slots]⟩

namespace JoinClause

theorem carries_renderSource (join : JoinClause) :
    Carries join.renderSource (join.sourceInPlace ·) (Slot.argumentsOf join.source.slots) := by
  have hsource := join.source.carries_render
  unfold renderSource
  split
  · rename_i hnone
    exact ⟨fun literal => by simp [hsource.inPlace, sourceInPlace, hnone], hsource.arguments⟩
  · rename_i name hname
    exact ⟨fun literal => by simp [hsource.inPlace, sourceInPlace, hname],
      by simp [hsource.arguments]⟩

/-- What is bound in a join. -/
def slots (columns : ColumnMap) (join : JoinClause) : List Slot :=
  join.source.slots ++ Filter.slotsOf columns join.on

theorem carries_render {join : JoinClause} {columns : ColumnMap} {written : Statement}
    (h : join.render columns = .ok written) :
    Carries written (join.inPlace · columns) (Slot.argumentsOf (join.slots columns)) := by
  unfold render at h
  rcases bind_eq_ok.1 h with ⟨on, hon, hall⟩
  cases hall
  have hsource := join.carries_renderSource
  have hvalues := Filter.carried columns (.and join.on) on hon
  refine ⟨fun literal => ?_, ?_⟩
  · simp [hsource.inPlace, hvalues.inPlace, inPlace, String.append_assoc]
  · simp [hsource.arguments, hvalues.arguments, Filter.slots, slots]

end JoinClause

namespace Plan

/-- The values of limit and offset: where a dialect has a limit clause of its own it stands in front
of the offset, else behind it. -/
def pagingLiterals (plan : Plan) : List BindValue :=
  let limit := (rowCount plan.limit).toList
  let offset := (rowCount plan.offset).toList
  if (plan.dialect.limitClause "?").isSome then limit ++ offset else offset ++ limit

/-- What is bound in the conditions of the `WHERE` clause. -/
def whereSlots (plan : Plan) : List Slot :=
  Filter.slotsOf plan.columns (plan.conditions.getD [])

/-- What is bound behind the select list. -/
def querySlots (plan : Plan) : List Slot :=
  plan.source.toList.flatMap (·.slots) ++ plan.allJoins.flatMap (·.slots plan.columns) ++
    plan.whereSlots ++ Slot.ofValues (plan.order.flatMap (·.operand.literals)) ++
    Slot.ofValues plan.pagingLiterals

/-- What is bound in an `UPDATE` or a `DELETE` behind the assignments: sources in front of all
conditions, those of the joins last. -/
def foldedSlots (plan : Plan) : List Slot :=
  plan.allJoins.flatMap (·.source.slots) ++ plan.whereSlots ++
    plan.allJoins.flatMap (Filter.slotsOf plan.columns ·.on)

/-- What is bound in the statement for an action, from its first mark to its last. -/
def slots (plan : Plan) : Action → List Slot
  | .select | .count => plan.querySlots
  | .insert => Slot.ofValues (plan.assignments.map (·.2))
  | .update => Slot.ofValues (plan.assignments.map (·.2)) ++ plan.foldedSlots
  | .delete => plan.foldedSlots
  | .truncate => []

variable {plan : Plan} {columns : ColumnMap} {written : Statement}

theorem carries_fromClause (plan : Plan) :
    Carries plan.fromClause
      (fun literal => String.join (plan.source.toList.map (" FROM " ++ ·.inPlace literal)))
      (Slot.argumentsOf (plan.source.toList.flatMap (·.slots))) := by
  unfold fromClause
  cases plan.source with
  | none => exact ⟨fun literal => by simp, rfl⟩
  | some source =>
      have hsource := source.carries_render
      exact ⟨fun literal => by simp [hsource.inPlace], by simp [hsource.arguments]⟩

theorem carries_joinClauses {joins : List JoinClause}
    (h : joinClauses columns joins = .ok written) :
    Carries written (fun literal => String.join (joins.map (·.inPlace literal columns)))
      (Slot.argumentsOf (joins.flatMap (·.slots columns))) := by
  induction joins generalizing written with
  | nil =>
      cases h
      exact ⟨fun literal => by simp, rfl⟩
  | cons join rest ih =>
      rw [joinClauses] at h
      rcases bind_eq_ok.1 h with ⟨first, hfirst, hrest⟩
      rcases bind_eq_ok.1 hrest with ⟨others, hothers, hall⟩
      cases hall
      have hhead := JoinClause.carries_render hfirst
      have htail := ih hothers
      exact ⟨fun literal => by simp [hhead.inPlace, htail.inPlace],
        by simp [hhead.arguments, htail.arguments]⟩

theorem carries_whereClause {filters : List Filter}
    (h : whereClause columns filters = .ok written) :
    Carries written (whereInPlace · columns filters)
      (Slot.argumentsOf (Filter.slotsOf columns filters)) := by
  cases filters with
  | nil =>
      cases h
      exact ⟨fun literal => by simp [whereInPlace], rfl⟩
  | cons first rest =>
      rw [whereClause] at h
      · rcases map_eq_ok.1 h with ⟨conditions, hconditions, rfl⟩
        have hvalues := Filter.carried columns (.and (first :: rest)) conditions hconditions
        exact ⟨fun literal => by simp [hvalues.inPlace, whereInPlace],
          by simp [hvalues.arguments, Filter.slots]⟩
      · exact List.cons_ne_nil _ _

theorem carries_groupClause (plan : Plan) :
    Carries plan.groupClause (fun _ => groupInPlace plan.grouping) [] := by
  unfold groupClause
  cases plan.grouping with
  | nil => exact ⟨fun literal => by simp [groupInPlace], rfl⟩
  | cons first rest => exact ⟨fun literal => by simp [groupInPlace], rfl⟩

theorem carries_orderTerms {terms : List OrderTerm} {parts : List Statement}
    (h : orderTerms columns terms = .ok parts) :
    (∀ literal, parts.map (·.inPlace literal) = terms.map fun term =>
      term.operand.inPlace literal columns ++ term.direction.sql) ∧
      parts.flatMap Statement.arguments = terms.flatMap (·.operand.literals) := by
  induction terms generalizing parts with
  | nil =>
      cases h
      exact ⟨fun _ => rfl, rfl⟩
  | cons term rest ih =>
      rw [orderTerms] at h
      rcases bind_eq_ok.1 h with ⟨first, hfirst, hrest⟩
      rcases bind_eq_ok.1 hrest with ⟨others, hothers, hall⟩
      cases hall
      have hhead := Operand.carries_render hfirst
      have htail := ih hothers
      exact ⟨fun literal => by simp [hhead.inPlace, htail.1],
        by simp [hhead.arguments, htail.2]⟩

theorem carries_orderClause (h : plan.orderClause = .ok written) :
    Carries written (fun literal => plan.orderInPlace literal plan.order)
      (plan.order.flatMap (·.operand.literals)) := by
  unfold orderClause at h
  split at h
  · rename_i hnone
    cases h
    rw [hnone]
    exact ⟨fun literal => by simp [orderInPlace], rfl⟩
  · rename_i hsome
    rcases map_eq_ok.1 h with ⟨parts, hparts, rfl⟩
    have hterms := carries_orderTerms hparts
    refine ⟨fun literal => ?_, by simp [Statement.arguments_join, hterms.2]⟩
    rw [orderInPlace]
    · simp [Statement.inPlace_join, hterms.1]
    · exact hsome

theorem carries_limitStatement (clause : String) (limit : BindValue) :
    Carries (limitStatement clause limit) (fun literal => limitInPlace clause (literal limit))
      [limit] :=
  ⟨fun literal => by simp [limitStatement, limitInPlace], rfl⟩

theorem carries_paging (plan : Plan) :
    Carries plan.paging (plan.pagingInPlace ·) plan.pagingLiterals := by
  unfold paging pagingInPlace pagingLiterals
  cases plan.dialect.limitClause "?" with
  | none =>
      cases rowCount plan.limit with
      | none =>
          cases rowCount plan.offset with
          | none => exact ⟨fun literal => by simp, rfl⟩
          | some offset => exact ⟨fun literal => by simp, rfl⟩
      | some limit =>
          cases rowCount plan.offset with
          | none => exact ⟨fun literal => by simp, rfl⟩
          | some offset =>
              exact ⟨fun literal => by simp [-String.reduceAppend, String.append_assoc], rfl⟩
  | some clause =>
      cases rowCount plan.limit with
      | none =>
          cases rowCount plan.offset with
          | none => exact ⟨fun literal => by simp, rfl⟩
          | some offset =>
              cases plan.dialect.unboundedLimit with
              | none => exact ⟨fun literal => by simp, rfl⟩
              | some unbounded => exact ⟨fun literal => by simp [String.append_assoc], rfl⟩
      | some limit =>
          have hlimit := carries_limitStatement clause limit
          cases rowCount plan.offset with
          | none =>
              exact ⟨fun literal => by simp [hlimit.inPlace], by simp [hlimit.arguments]⟩
          | some offset =>
              exact ⟨fun literal => by simp [hlimit.inPlace, String.append_assoc],
                by simp [hlimit.arguments]⟩

theorem carries_queryClauses (h : plan.queryClauses = .ok written) :
    Carries written (plan.queryInPlace ·) (Slot.argumentsOf plan.querySlots) := by
  unfold queryClauses at h
  rcases bind_eq_ok.1 h with ⟨joins, hjoins, hrest⟩
  rcases bind_eq_ok.1 hrest with ⟨conditions, hconditions, hrest⟩
  rcases bind_eq_ok.1 hrest with ⟨order, horder, hall⟩
  cases hall
  -- one fact for each clause, in the order in which they are written
  have hfrom := carries_fromClause plan
  have hjoined := carries_joinClauses hjoins
  have hwhere := carries_whereClause hconditions
  have hgrouped := carries_groupClause plan
  have hordered := carries_orderClause horder
  have hpaged := carries_paging plan
  refine ⟨fun literal => ?_, ?_⟩
  · simp only [Statement.inPlace_append, hfrom.inPlace, hjoined.inPlace, hwhere.inPlace,
      hgrouped.inPlace, hordered.inPlace, hpaged.inPlace, queryInPlace]
  · simp [hfrom.arguments, hjoined.arguments, hwhere.arguments, hgrouped.arguments,
      hordered.arguments, hpaged.arguments, querySlots, whereSlots]

theorem carries_joinSources (plan : Plan) (keyword : String) :
    Carries (plan.joinSources keyword) (sourcesInPlace · keyword plan.allJoins)
      (Slot.argumentsOf (plan.allJoins.flatMap (·.source.slots))) := by
  unfold joinSources
  cases plan.allJoins with
  | nil => exact ⟨fun literal => by simp [sourcesInPlace], rfl⟩
  | cons first rest =>
      have hsources : ∀ join : JoinClause, _ := JoinClause.carries_renderSource
      refine ⟨fun literal => ?_, ?_⟩
      · simp [Statement.inPlace_join, sourcesInPlace, (hsources _).inPlace, Function.comp_def]
      · simp [Statement.arguments_join, Slot.argumentsOf_flatMap, List.flatMap_map,
          (hsources _).arguments]

/-- The sources of all joins, and then the conditions. -/
theorem carries_folded {keyword : String} (h : plan.foldedWhere = .ok written) :
    Carries (plan.joinSources keyword ++ written) (plan.foldedInPlace · keyword)
      (Slot.argumentsOf plan.foldedSlots) := by
  have hsources := carries_joinSources plan keyword
  have hwhere := carries_whereClause h
  refine ⟨fun literal => ?_, ?_⟩
  · simp only [Statement.inPlace_append, hsources.inPlace, hwhere.inPlace, foldedInPlace]
  · simp [hsources.arguments, hwhere.arguments, Filter.slotsOf_append, Filter.slotsOf_flatMap,
      foldedSlots, whereSlots]

theorem carries_assignments (assignments : List (String × BindValue)) :
    Carries (.join ", " (assignments.map fun (column, value) =>
        .ofText (column ++ "=") ++ .ofValue value))
      (fun literal => ", ".intercalate (assignments.map fun item => item.1 ++ "=" ++ literal item.2))
      (assignments.map (·.2)) := by
  refine ⟨fun literal => ?_, ?_⟩
  · simp [Statement.inPlace_join, Function.comp_def]
  · rw [Statement.arguments_join, List.flatMap_map]
    induction assignments with
    | nil => rfl
    | cons assignment rest ih => simpa using ih

/-- The statement of a plan has the plan's literals in place, and binds the values of its slots. -/
theorem carries_statement {action : Action} (h : plan.statement action = .ok written) :
    Carries written (plan.inPlace · action) (Slot.argumentsOf (plan.slots action)) := by
  cases action with
  | select =>
      rcases bind_eq_ok.1 h with ⟨primary, _, hrest⟩
      split at hrest
      · cases hrest
      · rcases bind_eq_ok.1 hrest with ⟨clauses, hclauses, hall⟩
        cases hall
        have hquery := carries_queryClauses hclauses
        refine ⟨fun literal => ?_, by simp [hquery.arguments, slots]⟩
        rw [Statement.inPlace_append, Statement.inPlace_ofText, hquery.inPlace]
        rfl
  | count =>
      rcases bind_eq_ok.1 h with ⟨primary, _, hrest⟩
      rcases bind_eq_ok.1 hrest with ⟨clauses, hclauses, hall⟩
      cases hall
      have hquery := carries_queryClauses hclauses
      refine ⟨fun literal => ?_, by simp [hquery.arguments, slots]⟩
      rw [Statement.inPlace_append, Statement.inPlace_ofText, hquery.inPlace]
      rfl
  | insert =>
      rcases bind_eq_ok.1 h with ⟨primary, _, hrest⟩
      split at hrest
      · cases hrest
      · cases hrest
        refine ⟨fun literal => ?_, by simp [Statement.arguments_ofValues, slots]⟩
        rw [Statement.inPlace_append, Statement.inPlace_append, Statement.inPlace_ofValues,
          Statement.inPlace_ofText, Statement.inPlace_ofText, List.map_map]
        rfl
  | update =>
      rcases bind_eq_ok.1 h with ⟨primary, _, hrest⟩
      split at hrest
      · cases hrest
      · rcases bind_eq_ok.1 hrest with ⟨conditions, hconditions, hall⟩
        cases hall
        have hassigned := carries_assignments plan.assignments
        have hfolded := @carries_folded plan conditions " FROM " hconditions
        refine ⟨fun literal => ?_, ?_⟩
        · rw [Statement.append_assoc, Statement.inPlace_append, hfolded.inPlace,
            Statement.inPlace_append, Statement.inPlace_ofText, hassigned.inPlace]
          rfl
        · rw [Statement.append_assoc, Statement.arguments_append, hfolded.arguments]
          simp [hassigned.arguments, slots]
  | delete =>
      rcases bind_eq_ok.1 h with ⟨primary, _, hrest⟩
      rcases bind_eq_ok.1 hrest with ⟨conditions, hconditions, hall⟩
      cases hall
      have hfolded := @carries_folded plan conditions " USING " hconditions
      refine ⟨fun literal => ?_, ?_⟩
      · rw [Statement.append_assoc, Statement.inPlace_append, hfolded.inPlace,
          Statement.inPlace_ofText]
        rfl
      · rw [Statement.append_assoc, Statement.arguments_append, hfolded.arguments]
        rfl
  | truncate =>
      rcases bind_eq_ok.1 h with ⟨primary, _, hrest⟩
      cases hrest
      exact ⟨fun literal => Statement.inPlace_ofText literal _, rfl⟩

end Plan

/-! ## Unfolding -/

/-- The values of slots in a row.  A sub-query that is the `SELECT` of a plan has the values of that
plan's own slots, and SQL written by hand those that are written in it. -/
inductive Slot.Unfolds : List Slot → List BindValue → Prop
  | nil : Unfolds [] []
  | value {rest : List Slot} {values : List BindValue} (value : BindValue)
      (h : Unfolds rest values) : Unfolds (.value value :: rest) (value :: values)
  | plan {rest : List Slot} {inner values : List BindValue} {sub : Plan} {query : Statement}
      (hquery : sub.selectStatement = .ok query) (hinner : Unfolds (sub.slots .select) inner)
      (h : Unfolds rest values) : Unfolds (.query query :: rest) (inner ++ values)
  | byHand {rest : List Slot} {values : List BindValue} (query : Statement)
      (h : Unfolds rest values) : Unfolds (.query query :: rest) (query.arguments ++ values)

namespace Slot

theorem unfolds_argumentsOf : ∀ slots : List Slot, Unfolds slots (argumentsOf slots)
  | [] => .nil
  | .value v :: rest => .value v (unfolds_argumentsOf rest)
  | .query q :: rest => .byHand q (unfolds_argumentsOf rest)

/-- However far sub-queries are unfolded, the values are those that are written. -/
theorem Unfolds.eq_argumentsOf {slots : List Slot} {values : List BindValue}
    (h : Unfolds slots values) : values = argumentsOf slots := by
  induction h with
  | nil => rfl
  | value value h ih =>
      rw [ih]
      rfl
  | @plan rest inner values sub query hquery hinner h ihinner ih =>
      have hwritten : query.arguments = argumentsOf (sub.slots .select) :=
        (@Plan.carries_statement sub query .select hquery).arguments
      rw [ih, ihinner, ← hwritten]
      rfl
  | byHand query h ih =>
      rw [ih]
      rfl

end Slot

/-! ## Main statement -/

/-- Whatever a plan is made of, the statement for an action has as many marks as values, and with
each value put where its mark stands it reads as the plan does with its literals written out.  In
the order of the marks the values are those of the plan's clauses, with those of sub-queries in
place, however deep these are nested.  In every dialect the same texts stand between the marks, which
are numbered from one on; PostgreSQL writes the numbers. -/
theorem Plan.statement_literals {plan : Plan} {action : Action} {statement : Statement}
    (h : plan.statement action = .ok statement) :
    statement.marks = statement.arguments.length ∧
    statement.gaps.2.length = statement.arguments.length ∧
    (∀ literal : BindValue → String,
      Statement.fill statement.gaps (statement.arguments.map literal) =
        plan.inPlace literal action) ∧
    (∀ values, Slot.Unfolds (plan.slots action) values ↔ values = statement.arguments) ∧
    (∀ dialect, statement.sql dialect = Statement.fill statement.gaps
      ((List.range' 1 statement.arguments.length).map dialect.placeholder)) ∧
    statement.sql .postgres = Statement.fill statement.gaps
      ((List.range' 1 statement.arguments.length).map fun index => "$" ++ toString index) := by
  have hcarries := Plan.carries_statement h
  have hmarks := statement.marks_eq
  have hsql : ∀ dialect, statement.sql dialect = Statement.fill statement.gaps
      ((List.range' 1 statement.arguments.length).map dialect.placeholder) := by
    intro dialect
    rw [← hmarks]
    exact statement.sql_eq dialect
  refine ⟨hmarks, statement.length_gaps.trans hmarks, hcarries.inPlace, ?_, hsql, hsql .postgres⟩
  intro values
  rw [hcarries.arguments]
  constructor
  · exact Slot.Unfolds.eq_argumentsOf
  · rintro rfl
    exact Slot.unfolds_argumentsOf _

/-! ## A sub-query in two places -/

namespace Bookshop

def books : Table :=
  { name := "books", columns := [{ name := "title", field := "title" }] }

/-- The first three titles on k; the template has no place for its second operand. -/
def early : Plan :=
  (((Query.start .postgres ⟨[books]⟩ true [] (.model ⟨books, none, [⟨0⟩]⟩)).plan.apply
    .startWhere).apply (.filter [.compare (.wrapped "lower(?)" [.field ⟨0⟩, .value (.text "spare")])
      .like (.value (.text "k%"))])).apply (.limit 3)

/-- Two of them, without the first and without one that is named. -/
def later : Plan :=
  ((((Query.start .postgres ⟨[books]⟩ true [] (.plan early)).plan.apply .startWhere).apply
    (.filter [.inPlan (.field ⟨0⟩) early,
      .compare (.field ⟨0⟩) .notEqual (.value (.text "Kim"))])).apply (.limit 2)).apply (.offset 1)

def earlyStatement : Statement :=
  ⟨[.text "SELECT \"books\".\"title\" AS \"title\"", .text " FROM ", .text "\"books\"",
    .text " WHERE ", .text "lower(", .text "\"books\".\"title\"", .text ")", .text " LIKE ", .mark,
    .text " FETCH NEXT (", .mark, .text ") ROWS ONLY"], [.text "k%", .int 3], rfl⟩

def laterStatement : Statement :=
  .ofText "SELECT \"books\".\"title\" AS \"title\"" ++
    (.ofText " FROM " ++ (.ofText "(" ++ earlyStatement ++ .ofText ") AS \"books\"")) ++
    ⟨[.text " WHERE ", .text "\"books\".\"title\"", .text " IN ("], [], rfl⟩ ++ earlyStatement ++
    ⟨[.text ")", .text " AND ", .text "\"books\".\"title\"", .text " != ", .mark, .text " OFFSET ",
      .mark, .text " ROWS", .text " FETCH NEXT (", .mark, .text ") ROWS ONLY"],
      [.text "Kim", .int 1, .int 2], rfl⟩

theorem selectStatement_early : early.selectStatement = .ok earlyStatement := by
  rfl

/-- How the values look when they are written out. -/
def shown : BindValue → String
  | .text text => "<" ++ text ++ ">"
  | .int 1 => "one"
  | .int 2 => "two"
  | .int 3 => "three"
  | _ => ""

/-- The first three titles, with the values written out. -/
def earlyShown : String :=
  "SELECT \"books\".\"title\" AS \"title\" FROM \"books\"" ++
    " WHERE lower(\"books\".\"title\") LIKE <k%> FETCH NEXT (three) ROWS ONLY"

/-- The values of the sub-query stand in both of its places. -/
theorem statement_literals_later :
    later.statement .select = .ok laterStatement ∧
    laterStatement.arguments =
      [.text "k%", .int 3, .text "k%", .int 3, .text "Kim", .int 1, .int 2] ∧
    laterStatement.marks = 7 ∧
    Statement.fill laterStatement.gaps (laterStatement.arguments.map shown) =
      "SELECT \"books\".\"title\" AS \"title\" FROM (" ++ earlyShown ++ ") AS \"books\"" ++
        " WHERE \"books\".\"title\" IN (" ++ earlyShown ++ ")" ++
        " AND \"books\".\"title\" != <Kim> OFFSET one ROWS FETCH NEXT (two) ROWS ONLY" := by
  have hcompiles : later.statement .select = .ok laterStatement := by rfl
  have hearly : Slot.Unfolds (early.slots .select) [.text "k%", .int 3] := by
    have hslots : early.slots .select = [.value (.text "k%"), .value (.int 3)] := by rfl
    rw [hslots]
    exact .value _ (.value _ .nil)
  have hlater : Slot.Unfolds (later.slots .select)
      [.text "k%", .int 3, .text "k%", .int 3, .text "Kim", .int 1, .int 2] := by
    have hslots : later.slots .select = [.query earlyStatement, .query earlyStatement,
        .value (.text "Kim"), .value (.int 1), .value (.int 2)] := by rfl
    rw [hslots]
    exact .plan selectStatement_early hearly (.plan selectStatement_early hearly
      (.value _ (.value _ (.value _ .nil))))
  rcases Plan.statement_literals hcompiles with ⟨hmarks, -, hplace, hvalues, -, -⟩
  have harguments := (hvalues _).1 hlater
  refine ⟨hcompiles, harguments.symm, by rw [hmarks, ← harguments]; rfl, ?_⟩
  rw [hplace]
  decide +kernel

end Bookshop

end FieldQuery
