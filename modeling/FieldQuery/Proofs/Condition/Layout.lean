import FieldQuery.Filter
import FieldQuery.Proofs.Condition.Text
import FieldQuery.Proofs.Plan.Sources

/-!
# The layout of a condition

A condition is written with parentheses only where a list of conditions stands within another one,
and a list of one condition is written as that condition.  The layout is the text of a condition,
cut into connectives, parentheses and the texts of its leaves.

Main definitions:

- `Filter.layout`: the text of a condition, cut at the leaves.
- `Filter.value`: the value of a condition under values of its leaves.
- `Filter.leaves`: the conditions that others are made of.

Main statements: `Filter.induction`, conditions by their leaves; `Filter.symbols_render`, the layout
is the text; `Filter.exists_render_iff`, a condition is written exactly if its leaves are.
-/

namespace FieldQuery

namespace Condition

/-! ## Layouts -/

/-- What an empty conjunction is written as. -/
def alwaysText : Statement := .ofText "1=1"

/-- What an empty disjunction is written as, and membership in an empty list. -/
def neverText : Statement := .ofText "1=0"

/-- Part of a list of conditions: whether it is such a list itself, and its layout. -/
abbrev Part := Bool × List (Lexeme Statement)

/-- A part among others. -/
def enclosed (part : Part) : List (Lexeme Statement) :=
  if part.1 then .opening :: part.2 ++ [.closing] else part.2

/-- The layout of a list of conditions. -/
def connected (connective : Lexeme Statement) (empty : Statement) :
    List Part → List (Lexeme Statement)
  | [] => [.other empty]
  | [only] => only.2
  | parts => [connective].intercalate (parts.map enclosed)

/-- What a lexeme is written as. -/
def lexemeSymbols : Lexeme Statement → List Symbol
  | .opening => symbolsOf "("
  | .closing => symbolsOf ")"
  | .and => symbolsOf " AND "
  | .or => symbolsOf " OR "
  | .not => symbolsOf "NOT "
  | .other statement => symbols statement

def layoutSymbols (lexemes : List (Lexeme Statement)) : List Symbol :=
  lexemes.flatMap lexemeSymbols

@[simp] theorem layoutSymbols_append (front back : List (Lexeme Statement)) :
    layoutSymbols (front ++ back) = layoutSymbols front ++ layoutSymbols back :=
  List.flatMap_append

@[simp] theorem layoutSymbols_cons (lexeme : Lexeme Statement) (rest : List (Lexeme Statement)) :
    layoutSymbols (lexeme :: rest) = lexemeSymbols lexeme ++ layoutSymbols rest := rfl

@[simp] theorem layoutSymbols_nil : layoutSymbols [] = [] := rfl

/-- Lists parted by one separator, changed one element after another. -/
theorem flatMap_intercalate {α β : Type} (next : α → List β) (separator : α) :
    ∀ parts : List (List α), ([separator].intercalate parts).flatMap next =
      (next separator).intercalate (parts.map (·.flatMap next))
  | [] => rfl
  | [only] => by simp
  | first :: second :: rest => by
      have hrest := flatMap_intercalate next separator (second :: rest)
      simp only [List.map_cons, List.intercalate_cons_cons] at hrest ⊢
      simp [hrest]

theorem layoutSymbols_intercalate (lexeme : Lexeme Statement)
    (parts : List (List (Lexeme Statement))) : layoutSymbols ([lexeme].intercalate parts) =
      (lexemeSymbols lexeme).intercalate (parts.map layoutSymbols) :=
  flatMap_intercalate lexemeSymbols lexeme parts

theorem symbols_join (separator : String) :
    ∀ parts : List Statement, symbols (.join separator parts) =
      (symbolsOf separator).intercalate (parts.map symbols)
  | [] => rfl
  | [only] => by simp [Statement.join]
  | first :: second :: rest => by
      have hrest := symbols_join separator (second :: rest)
      simp only [List.map_cons, List.intercalate_cons_cons, Statement.join] at hrest ⊢
      simp [hrest]

end Condition

open Condition

/-! ## Conditions -/

/-- The SQL of an operand, or nothing if it cannot be written. -/
def Operand.text (columns : ColumnMap) (operand : Operand) : Statement :=
  (operand.render columns).toOption.getD .empty

theorem Operand.text_of_render {columns : ColumnMap} {operand : Operand} {written : Statement}
    (h : operand.render columns = .ok written) : operand.text columns = written := by
  simp [text, h, Except.toOption]

namespace Filter

/-- The SQL of a condition, or nothing if it cannot be written. -/
def text (columns : ColumnMap) (filter : Filter) : Statement :=
  (filter.render columns).toOption.getD .empty

theorem text_of_render {columns : ColumnMap} {filter : Filter} {written : Statement}
    (h : filter.render columns = .ok written) : filter.text columns = written := by
  simp [text, h, Except.toOption]

mutual

/-- The text of a condition: connectives, parentheses and the texts of its leaves. -/
def layout (columns : ColumnMap) : Filter → List (Lexeme Statement)
  | .and filters => connected .and alwaysText (parts columns filters)
  | .or filters => connected .or neverText (parts columns filters)
  | .not filter => .not :: (.opening :: layout columns filter ++ [.closing])
  | .truth operand false => [.other (operand.text columns)]
  | .truth operand true => [.not, .other (operand.text columns)]
  | .inList _ [] => [.other neverText]
  | filter => [.other (filter.text columns)]

def parts (columns : ColumnMap) : List Filter → List Part
  | [] => []
  | filter :: rest => (filter.isGroup, layout columns filter) :: parts columns rest

end

mutual

/-- The value of a condition under values of its leaves. -/
def value (columns : ColumnMap) (atom : Statement → Truth) : Filter → Truth
  | .and filters => Truth.all (values columns atom filters)
  | .or filters => Truth.any (values columns atom filters)
  | .not filter => (value columns atom filter).not
  | .truth operand false => atom (operand.text columns)
  | .truth operand true => (atom (operand.text columns)).not
  | .inList _ [] => .fails
  | filter => atom (filter.text columns)

def values (columns : ColumnMap) (atom : Statement → Truth) : List Filter → List Truth
  | [] => []
  | filter :: rest => value columns atom filter :: values columns atom rest

end

mutual

/-- The conditions that others are made of.  Membership in an empty list is none of them. -/
def leaves : Filter → List Filter
  | .and filters => leavesOf filters
  | .or filters => leavesOf filters
  | .not filter => leaves filter
  | .inList _ [] => []
  | filter => [filter]

def leavesOf : List Filter → List Filter
  | [] => []
  | filter :: rest => leaves filter ++ leavesOf rest

end

/-- The text of a leaf, without a `NOT` of its own. -/
def leafText (columns : ColumnMap) : Filter → Statement
  | .truth operand _ => operand.text columns
  | filter => filter.text columns

/-! ## Conditions by their leaves -/

/-- A condition with a text of its own, and no connective in front of it. -/
inductive IsLeaf : Filter → Prop
  | compare (left : Operand) (comparison : Comparison) (right : Operand) :
      IsLeaf (.compare left comparison right)
  | null (operand : Operand) (negated : Bool) : IsLeaf (.null operand negated)
  | inList (operand : Operand) (first : BindValue) (rest : List BindValue) :
      IsLeaf (.inList operand (first :: rest))
  | inQuery (operand : Operand) (query : Statement) : IsLeaf (.inQuery operand query)
  | verbatim (condition : String) : IsLeaf (.verbatim condition)
  | invalid (error : PlanError) : IsLeaf (.invalid error)
  | custom (steps : ColumnMap → List Fragment) : IsLeaf (.custom steps)

/-- Conditions are made of leaves by connectives. -/
theorem induction {motive : Filter → Prop}
    (and : ∀ filters, (∀ filter ∈ filters, motive filter) → motive (.and filters))
    (or : ∀ filters, (∀ filter ∈ filters, motive filter) → motive (.or filters))
    (not : ∀ filter, motive filter → motive (.not filter))
    (truth : ∀ operand negated, motive (.truth operand negated))
    (never : ∀ operand, motive (.inList operand []))
    (leaf : ∀ filter, filter.IsLeaf → motive filter) : ∀ filter, motive filter
  | .and filters => and filters fun filter _ => induction and or not truth never leaf filter
  | .or filters => or filters fun filter _ => induction and or not truth never leaf filter
  | .not filter => not filter (induction and or not truth never leaf filter)
  | .truth operand negated => truth operand negated
  | .inList operand [] => never operand
  | .inList operand (first :: rest) => leaf _ (.inList operand first rest)
  | .compare left comparison right => leaf _ (.compare left comparison right)
  | .null operand negated => leaf _ (.null operand negated)
  | .inQuery operand query => leaf _ (.inQuery operand query)
  | .verbatim condition => leaf _ (.verbatim condition)
  | .invalid error => leaf _ (.invalid error)
  | .custom steps => leaf _ (.custom steps)

variable {columns : ColumnMap}

theorem layout_and (columns : ColumnMap) (filters : List Filter) :
    (Filter.and filters).layout columns = connected .and alwaysText (parts columns filters) := by
  rw [layout]

theorem layout_or (columns : ColumnMap) (filters : List Filter) :
    (Filter.or filters).layout columns = connected .or neverText (parts columns filters) := by
  rw [layout]

theorem parts_eq (columns : ColumnMap) (filters : List Filter) :
    parts columns filters = filters.map fun filter => (filter.isGroup, filter.layout columns) := by
  induction filters with
  | nil => rfl
  | cons filter rest ih => simp [parts, ih]

theorem values_eq (columns : ColumnMap) (atom : Statement → Truth) (filters : List Filter) :
    values columns atom filters = filters.map (value columns atom) := by
  induction filters with
  | nil => rfl
  | cons filter rest ih => simp [values, ih]

theorem leavesOf_eq (filters : List Filter) : leavesOf filters = filters.flatMap leaves := by
  induction filters with
  | nil => rfl
  | cons filter rest ih => simp [leavesOf, ih]

/-- What is asked of the leaves of a list of conditions is asked of those of each. -/
theorem forall_leavesOf {property : Filter → Prop} {filters : List Filter}
    (h : ∀ leaf ∈ leavesOf filters, property leaf) :
    ∀ filter ∈ filters, ∀ leaf ∈ filter.leaves, property leaf := by
  intro filter hfilter leaf hleaf
  rw [leavesOf_eq] at h
  exact h leaf (List.mem_flatMap_of_mem hfilter hleaf)

namespace IsLeaf

variable {filter : Filter}

/-- A leaf is nothing but its text. -/
theorem layout_eq (h : filter.IsLeaf) (columns : ColumnMap) :
    filter.layout columns = [.other (filter.leafText columns)] := by
  cases h <;> simp [layout, leafText]

theorem value_eq (h : filter.IsLeaf) (columns : ColumnMap) (atom : Statement → Truth) :
    filter.value columns atom = atom (filter.leafText columns) := by
  cases h <;> simp [value, leafText]

theorem leaves_eq (h : filter.IsLeaf) : filter.leaves = [filter] := by
  cases h <;> simp [leaves]

theorem leafText_eq (h : filter.IsLeaf) (columns : ColumnMap) :
    filter.leafText columns = filter.text columns := by
  cases h <;> rfl

theorem isGroup_eq (h : filter.IsLeaf) : filter.isGroup = false := by
  cases h <;> rfl

end IsLeaf

/-! ## The layout is the text -/

/-- How lists of conditions are written. -/
structure WritesGroup (columns : ColumnMap) (group : List Filter → Filter) (separator : String)
    (empty : Statement) : Prop where
  none : (group []).render columns = .ok empty
  one : ∀ only, (group [only]).render columns = only.render columns
  many : ∀ first second rest, (group (first :: second :: rest)).render columns =
    (renderEach columns (first :: second :: rest)).map (.join separator)

theorem writesGroup_and (columns : ColumnMap) : WritesGroup columns .and " AND " alwaysText where
  none := by simp [render, alwaysText]
  one := by simp [render]
  many := by simp [render]

theorem writesGroup_or (columns : ColumnMap) : WritesGroup columns .or " OR " neverText where
  none := by simp [render, neverText]
  one := by simp [render]
  many := by simp [render]

/-- A condition is laid out as it is written. -/
def LaidOut (columns : ColumnMap) (filter : Filter) : Prop :=
  ∀ written, filter.render columns = .ok written →
    symbols written = layoutSymbols (filter.layout columns)

theorem symbols_renderEach {filters : List Filter}
    (h : ∀ filter ∈ filters, filter.LaidOut columns) {written : List Statement}
    (hwritten : renderEach columns filters = .ok written) :
    written.map symbols = ((parts columns filters).map enclosed).map layoutSymbols := by
  induction filters generalizing written with
  | nil =>
      rw [renderEach] at hwritten
      cases hwritten
      rfl
  | cons filter rest ih =>
      rw [renderEach] at hwritten
      rcases bind_eq_ok.1 hwritten with ⟨first, hfirst, hrest⟩
      rcases bind_eq_ok.1 hrest with ⟨others, hothers, hall⟩
      cases hall
      have hhead := h filter List.mem_cons_self first hfirst
      have htail := ih (fun other hother => h other (List.mem_cons_of_mem _ hother)) hothers
      -- both put a list within another one in parentheses, whatever its length
      cases hgroup : filter.isGroup with
      | true => simp [parts, enclosed, hgroup, hhead, htail, parenthesized, lexemeSymbols]
      | false => simp [parts, enclosed, hgroup, hhead, htail]

/-- So is a list of conditions, if each of them is. -/
theorem LaidOut.group {group : List Filter → Filter} {connective : Lexeme Statement}
    {empty : Statement} {separator : String} (hgroup : WritesGroup columns group separator empty)
    (hlayout : ∀ filters,
      (group filters).layout columns = connected connective empty (parts columns filters))
    (hseparator : lexemeSymbols connective = symbolsOf separator) {filters : List Filter}
    (h : ∀ filter ∈ filters, filter.LaidOut columns) : (group filters).LaidOut columns := by
  intro written hwritten
  rw [hlayout]
  match filters, h, hwritten with
  | [], _, hwritten =>
      cases hgroup.none.symm.trans hwritten
      simp [parts, connected, lexemeSymbols]
  | [only], h, hwritten =>
      -- one alone takes no parentheses, even if it is a list
      have honly : only.render columns = .ok written := (hgroup.one only).symm.trans hwritten
      exact h only List.mem_cons_self written honly
  | first :: second :: rest, h, hwritten =>
      have hmany := (hgroup.many first second rest).symm.trans hwritten
      rcases map_eq_ok.1 hmany with ⟨each, heach, rfl⟩
      have hsymbols := symbols_renderEach h heach
      calc symbols (.join separator each)
          = (lexemeSymbols connective).intercalate (each.map symbols) := by
            rw [symbols_join, hseparator]
        _ = layoutSymbols ([connective].intercalate
              ((parts columns (first :: second :: rest)).map enclosed)) := by
            rw [hsymbols, layoutSymbols_intercalate]

/-- The layout of a condition is its text. -/
theorem symbols_render (columns : ColumnMap) (filter : Filter) : filter.LaidOut columns := by
  induction filter using Filter.induction with
  | and filters ih =>
      have hseparator : lexemeSymbols .and = symbolsOf " AND " := rfl
      exact LaidOut.group (writesGroup_and columns) (layout_and columns) hseparator ih
  | or filters ih =>
      have hseparator : lexemeSymbols .or = symbolsOf " OR " := rfl
      exact LaidOut.group (writesGroup_or columns) (layout_or columns) hseparator ih
  | not filter ih =>
      intro written hwritten
      rw [render] at hwritten
      rcases bind_eq_ok.1 hwritten with ⟨inner, hinner, hall⟩
      cases hall
      have hnot : symbolsOf "NOT (" = symbolsOf "NOT " ++ symbolsOf "(" := rfl
      simp [ih inner hinner, hnot, layout, lexemeSymbols]
  | truth operand negated =>
      intro written hwritten
      rw [render] at hwritten
      rcases bind_eq_ok.1 hwritten with ⟨inner, hinner, hall⟩
      cases hall
      have htext := Operand.text_of_render hinner
      -- a leaf that is not negated has an empty text in front
      cases negated with
      | true => simp [htext, layout, lexemeSymbols]
      | false => simp [htext, layout, lexemeSymbols, symbolsOf]
  | never operand =>
      intro written hwritten
      rw [render] at hwritten
      cases hwritten
      simp [layout, lexemeSymbols, neverText]
  | leaf filter hleaf =>
      intro written hwritten
      have htext := (hleaf.leafText_eq columns).trans (text_of_render hwritten)
      simp [hleaf.layout_eq columns, htext, lexemeSymbols]

/-! ## Leaves are written -/

theorem render_of_mem_renderEach {filters : List Filter} {written : List Statement}
    (hwritten : renderEach columns filters = .ok written) {filter : Filter}
    (hmem : filter ∈ filters) : ∃ text, filter.render columns = .ok text := by
  induction filters generalizing written with
  | nil => cases hmem
  | cons first rest ih =>
      rw [renderEach] at hwritten
      rcases bind_eq_ok.1 hwritten with ⟨head, hhead, hrest⟩
      rcases bind_eq_ok.1 hrest with ⟨others, hothers, hall⟩
      rcases List.mem_cons.1 hmem with rfl | hmem
      · exact ⟨head, hhead⟩
      · exact ih hothers hmem

/-- Where a list of conditions is written, so is each of them. -/
theorem WritesGroup.render_of_mem {group : List Filter → Filter} {separator : String}
    {empty : Statement} (hgroup : WritesGroup columns group separator empty)
    {filters : List Filter} {written : Statement}
    (hwritten : (group filters).render columns = .ok written) {filter : Filter}
    (hmem : filter ∈ filters) : ∃ text, filter.render columns = .ok text := by
  match filters, hmem, hwritten with
  | [only], hmem, hwritten =>
      cases List.mem_singleton.1 hmem
      exact ⟨written, (hgroup.one filter).symm.trans hwritten⟩
  | first :: second :: rest, hmem, hwritten =>
      have hmany := (hgroup.many first second rest).symm.trans hwritten
      rcases map_eq_ok.1 hmany with ⟨each, heach, _⟩
      exact render_of_mem_renderEach heach hmem

/-- Where a condition is written, so are its leaves. -/
theorem render_of_mem_leaves {filter leaf : Filter} {written : Statement}
    (hwritten : filter.render columns = .ok written) (hleaf : leaf ∈ filter.leaves) :
    ∃ text, leaf.render columns = .ok text := by
  induction filter using Filter.induction generalizing written with
  | and filters ih =>
      rw [leaves, leavesOf_eq] at hleaf
      rcases List.mem_flatMap.1 hleaf with ⟨filter, hfilter, hleaf⟩
      rcases (writesGroup_and columns).render_of_mem hwritten hfilter with ⟨text, htext⟩
      exact ih filter hfilter htext hleaf
  | or filters ih =>
      rw [leaves, leavesOf_eq] at hleaf
      rcases List.mem_flatMap.1 hleaf with ⟨filter, hfilter, hleaf⟩
      rcases (writesGroup_or columns).render_of_mem hwritten hfilter with ⟨text, htext⟩
      exact ih filter hfilter htext hleaf
  | not filter ih =>
      rw [leaves] at hleaf
      rw [render] at hwritten
      rcases bind_eq_ok.1 hwritten with ⟨inner, hinner, _⟩
      exact ih hinner hleaf
  | truth operand negated =>
      rw [leaves] at hleaf
      · cases List.mem_singleton.1 hleaf
        exact ⟨written, hwritten⟩
      all_goals simp
  | never operand =>
      rw [leaves] at hleaf
      cases hleaf
  | leaf filter hfilter =>
      rw [hfilter.leaves_eq] at hleaf
      cases List.mem_singleton.1 hleaf
      exact ⟨written, hwritten⟩

theorem exists_renderEach {filters : List Filter}
    (h : ∀ filter ∈ filters, ∃ text, filter.render columns = .ok text) :
    ∃ written, renderEach columns filters = .ok written := by
  induction filters with
  | nil => exact ⟨[], by rw [renderEach]⟩
  | cons first rest ih =>
      rcases h first List.mem_cons_self with ⟨head, hhead⟩
      rcases ih fun filter hmem => h filter (List.mem_cons_of_mem _ hmem) with ⟨others, hothers⟩
      have hall : renderEach columns (first :: rest) =
          .ok ((if first.isGroup then parenthesized head else head) :: others) := by
        rw [renderEach, hhead, hothers]
        rfl
      exact ⟨_, hall⟩

theorem WritesGroup.exists_render {group : List Filter → Filter} {separator : String}
    {empty : Statement} (hgroup : WritesGroup columns group separator empty)
    {filters : List Filter} (h : ∀ filter ∈ filters, ∃ text, filter.render columns = .ok text) :
    ∃ written, (group filters).render columns = .ok written := by
  match filters, h with
  | [], _ => exact ⟨empty, hgroup.none⟩
  | [only], h =>
      rw [hgroup.one]
      exact h only List.mem_cons_self
  | first :: second :: rest, h =>
      rcases exists_renderEach h with ⟨each, heach⟩
      have hall := hgroup.many first second rest
      rw [heach] at hall
      exact ⟨_, hall⟩

/-- A condition is written exactly if its leaves are. -/
theorem exists_render_iff (columns : ColumnMap) (filter : Filter) :
    (∃ written, filter.render columns = .ok written) ↔
      ∀ leaf ∈ filter.leaves, ∃ text, leaf.render columns = .ok text := by
  constructor
  · rintro ⟨written, hwritten⟩ leaf hleaf
    exact render_of_mem_leaves hwritten hleaf
  · intro h
    induction filter using Filter.induction with
    | and filters ih =>
        rw [leaves] at h
        refine (writesGroup_and columns).exists_render ?_
        exact fun filter hfilter => ih filter hfilter (forall_leavesOf h filter hfilter)
    | or filters ih =>
        rw [leaves] at h
        refine (writesGroup_or columns).exists_render ?_
        exact fun filter hfilter => ih filter hfilter (forall_leavesOf h filter hfilter)
    | not filter ih =>
        rw [leaves] at h
        rcases ih h with ⟨inner, hinner⟩
        rw [render, hinner]
        exact ⟨_, rfl⟩
    | truth operand negated => exact h _ (by simp [leaves])
    | never operand => exact ⟨neverText, by rw [render, neverText]⟩
    | leaf filter hfilter => exact h filter (by simp [hfilter.leaves_eq])

end Filter

end FieldQuery
