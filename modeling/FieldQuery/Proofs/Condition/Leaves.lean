import FieldQuery.Proofs.Condition.Layout

/-!
# The texts of leaves

Operands are written by the caller: a template may hold whatever text.  Where they hold no `AND`, no
`OR` and no `NOT` at their front, but within parentheses, a leaf is one operand of the connectives
around it.  The `NOT` of `IS NOT NULL` is not at the front of anything.

Main definitions:

- `Spans`: a text is balanced, and what it consists of.
- `Simple`: a text without connectives outside of parentheses.
- `Filter.SimpleLeaf`: a leaf whose operands are simple.

Main statements: `Filter.SimpleLeaf.simple`, the text of such a leaf is simple;
`Filter.IsComparison.atomic`, it is read as an atom.
-/

namespace FieldQuery

namespace Condition

/-- The lexemes of a statement. -/
def words (statement : Statement) : List (Lexeme Word) :=
  lex (symbols statement)

/-! ## Balanced texts -/

/-- Symbols leave no quotes and no parentheses open, and consist of items. -/
structure Spans (symbols : List Symbol) (items : List (Item Word)) : Prop where
  closed : Closed symbols
  balanced : items? (lex symbols) = some items

namespace Spans

variable {front back symbols : List Symbol} {items others : List (Item Word)}
  {lexemes : List (Lexeme Word)}

theorem of_lexes (hlexes : Lexes symbols lexemes) (hyields : Yields lexemes items) :
    Spans symbols items where
  closed := hlexes.closed
  balanced := by
    rw [hlexes.lex]
    exact items?_of_yields hyields

theorem lexes (h : Spans symbols items) : Lexes symbols (lex symbols) :=
  ⟨h.closed, rfl⟩

theorem yields (h : Spans symbols items) : Yields (lex symbols) items :=
  yields_of_items? h.balanced

theorem nil : Spans [] [] :=
  .of_lexes .nil .nil

/-- Balanced texts on both sides of a blank. -/
theorem seq (hfront : Spans front items) (hback : Spans back others) :
    Spans (front ++ .char ' ' :: back) (items ++ others) := by
  have hlexes := hfront.lexes.seq (c := ' ') (.inl rfl) hback.lexes
  have hyields := hfront.yields.append hback.yields
  have hblank : ownLexemes ' ' = [] := rfl
  rw [hblank, List.append_nil] at hlexes
  exact .of_lexes hlexes hyields

theorem parenthesized (h : Spans symbols items) :
    Spans (symbolsOf "(" ++ symbols ++ symbolsOf ")") [grouped items] :=
  .of_lexes h.lexes.parenthesized h.yields.parenthesized

end Spans

/-- A balanced text of items is one operand of a connective, and no negation. -/
structure Atomic (symbols : List Symbol) (items : List (Item Word)) : Prop where
  spans : Spans symbols items
  factor : Factor items
  front : items.head? ≠ some (.lexeme .not)

/-- Text without `AND`, `OR` and a `NOT` at its front, but within parentheses. -/
def Simple (symbols : List Symbol) : Prop :=
  ∃ items, Atomic symbols items

/-- Simple texts on both sides of a blank. -/
theorem Atomic.seq {front back : List Symbol} {items others : List (Item Word)}
    (hfront : Atomic front items) (hback : Atomic back others) :
    Atomic (front ++ .char ' ' :: back) (items ++ others) where
  spans := hfront.spans.seq hback.spans
  factor := hfront.factor.append hback.factor
  front := by
    cases items with
    | nil => exact hback.front
    | cons first rest => exact hfront.front

theorem Atomic.parenthesized {symbols : List Symbol} {items : List (Item Word)}
    (h : Spans symbols items) :
    Atomic (symbolsOf "(" ++ symbols ++ symbolsOf ")") [grouped items] where
  spans := h.parenthesized
  factor := .grouped items
  front := by simp [grouped]

/-- A simple text is an atom, unless it is a pair of parentheses. -/
theorem Atomic.read? {symbols : List Symbol} {items : List (Item Word)} (h : Atomic symbols items)
    (hgroup : ∀ text inside, items ≠ [.group text inside]) :
    Condition.read? (lex symbols) = some (.atom (lex symbols)) :=
  read?_atom h.spans.balanced h.factor h.front hgroup

/-- Words that are no connectives. -/
def plainItems (texts : List Word) : List (Item Word) :=
  texts.map fun text => .lexeme (.other text)

theorem factor_plainItems (texts : List Word) : Factor (plainItems texts) where
  and := by simp [plainItems]
  or := by simp [plainItems]

/-- Text of such words is simple. -/
theorem Atomic.of_plainItems {symbols : List Symbol} {texts : List Word}
    (h : Spans symbols (plainItems texts)) : Atomic symbols (plainItems texts) where
  spans := h
  factor := factor_plainItems texts
  front := by
    cases texts with
    | nil => simp [plainItems]
    | cons first rest => simp [plainItems]

/-- Bound values parted by commas are balanced. -/
theorem spans_ofValues (values : List BindValue) :
    ∃ items, Spans (symbols (.ofValues values)) items := by
  rw [Statement.ofValues_eq, symbols_join, List.map_map]
  induction values with
  | nil => exact ⟨[], .nil⟩
  | cons value rest ih =>
      cases rest with
      | nil => exact ⟨[.lexeme (.other (.bind value))], by rfl, by rfl⟩
      | cons second more =>
          rcases ih with ⟨others, hothers⟩
          have hfirst : Spans [.bind value, .char ',']
              [.lexeme (.other (.bind value)), .lexeme (.other (.sign ','))] := ⟨by rfl, by rfl⟩
          exact ⟨_, hfirst.seq hothers⟩

end Condition

open Condition

/-! ## Leaves -/

theorem Comparison.spans_sql (comparison : Comparison) :
    ∃ (first : Word) (rest : List Word),
      Spans (symbolsOf comparison.sql) (plainItems (first :: rest)) := by
  cases comparison with
  | equal => exact ⟨.sign '=', [], by rfl, by rfl⟩
  | notEqual => exact ⟨.sign '!', [.sign '='], by rfl, by rfl⟩
  | less => exact ⟨.sign '<', [], by rfl, by rfl⟩
  | lessOrEqual => exact ⟨.sign '<', [.sign '='], by rfl, by rfl⟩
  | greater => exact ⟨.sign '>', [], by rfl, by rfl⟩
  | greaterOrEqual => exact ⟨.sign '>', [.sign '='], by rfl, by rfl⟩
  | like => exact ⟨.plain ['L', 'I', 'K', 'E'], [], by rfl, by rfl⟩

namespace Filter

variable {columns : ColumnMap}

/-- A leaf that compares an operand with something. -/
inductive IsComparison : Filter → Prop
  | compare (left : Operand) (comparison : Comparison) (right : Operand) :
      IsComparison (.compare left comparison right)
  | null (operand : Operand) (negated : Bool) : IsComparison (.null operand negated)
  | inList (operand : Operand) (first : BindValue) (rest : List BindValue) :
      IsComparison (.inList operand (first :: rest))
  | inQuery (operand : Operand) (query : Statement) : IsComparison (.inQuery operand query)

/-- A leaf whose operands, or whose text if it has none, are simple.  A query stands in parentheses
and needs only be balanced. -/
def SimpleLeaf (columns : ColumnMap) : Filter → Prop
  | .compare left _ right =>
    Simple (symbols (left.text columns)) ∧ Simple (symbols (right.text columns))
  | .null operand _ | .truth operand _ | .inList operand (_ :: _) =>
    Simple (symbols (operand.text columns))
  | .inQuery operand query =>
    Simple (symbols (operand.text columns)) ∧ ∃ items, Spans (symbols query) items
  | filter => Simple (symbols (filter.text columns))

/-- What stands behind an operand: a simple text with a word in it that is no connective. -/
structure Behind (symbols : List Symbol) (items : List (Item Word)) : Prop where
  atomic : Atomic symbols items
  word : ∃ text, .lexeme (.other text) ∈ items

theorem behind_comparison (comparison : Comparison) {right : List Symbol}
    {items : List (Item Word)} (h : Atomic right items) :
    ∃ others, Behind (symbolsOf comparison.sql ++ .char ' ' :: right) others := by
  rcases comparison.spans_sql with ⟨first, rest, hsql⟩
  have hword : .lexeme (.other first) ∈ plainItems (first :: rest) ++ items := by
    simp [plainItems]
  exact ⟨_, (Atomic.of_plainItems hsql).seq h, first, hword⟩

theorem behind_null (negated : Bool) :
    ∃ others, Behind (symbolsOf (if negated then "IS NOT NULL" else "IS NULL")) others := by
  let is : Item Word := .lexeme (.other (.plain ['I', 'S']))
  let null : Item Word := .lexeme (.other (.plain ['N', 'U', 'L', 'L']))
  have hword (more : List (Item Word)) :
      .lexeme (.other (.plain ['I', 'S'])) ∈ is :: more := List.mem_cons_self
  cases negated with
  | true =>
      have hspans : Spans (symbolsOf "IS NOT NULL") [is, .lexeme .not, null] := ⟨by rfl, by rfl⟩
      have hfactor : Factor [is, .lexeme .not, null] := ⟨by simp [is, null], by simp [is, null]⟩
      exact ⟨_, ⟨hspans, hfactor, by simp [is]⟩, _, hword _⟩
  | false =>
      have hspans : Spans (symbolsOf "IS NULL") [is, null] := ⟨by rfl, by rfl⟩
      have hfactor : Factor [is, null] := ⟨by simp [is, null], by simp [is, null]⟩
      exact ⟨_, ⟨hspans, hfactor, by simp [is]⟩, _, hword _⟩

theorem behind_membership {inside : List Symbol} {items : List (Item Word)}
    (h : Spans inside items) :
    ∃ others, Behind (symbolsOf "IN (" ++ inside ++ symbolsOf ")") others := by
  have hspans : Spans (symbolsOf "IN") (plainItems [.plain ['I', 'N']]) := ⟨by rfl, by rfl⟩
  have hatomic := (Atomic.of_plainItems hspans).seq (Atomic.parenthesized h)
  exact ⟨_, hatomic, _, List.mem_cons_self⟩

/-- A comparison that is written is an operand with more behind it. -/
theorem IsComparison.symbols_eq {filter : Filter} (h : filter.IsComparison)
    (hsimple : filter.SimpleLeaf columns) {written : Statement}
    (hwritten : filter.render columns = .ok written) :
    ∃ front back items others, symbols written = front ++ .char ' ' :: back ∧
      Atomic front items ∧ Behind back others := by
  cases h with
  | compare left comparison right =>
      rcases hsimple with ⟨⟨items, hleft⟩, others, hright⟩
      rw [render] at hwritten
      rcases bind_eq_ok.1 hwritten with ⟨leftText, hleftText, hrest⟩
      rcases bind_eq_ok.1 hrest with ⟨rightText, hrightText, hall⟩
      cases hall
      rw [Operand.text_of_render hleftText] at hleft
      rw [Operand.text_of_render hrightText] at hright
      rcases behind_comparison comparison hright with ⟨behind, hbehind⟩
      refine ⟨_, _, _, _, ?_, hleft, hbehind⟩
      simp [symbolsOf]
  | null operand negated =>
      rcases hsimple with ⟨items, hitems⟩
      rw [render] at hwritten
      rcases bind_eq_ok.1 hwritten with ⟨text, htext, hall⟩
      cases hall
      rw [Operand.text_of_render htext] at hitems
      rcases behind_null negated with ⟨behind, hbehind⟩
      refine ⟨_, _, _, _, ?_, hitems, hbehind⟩
      cases negated <;> simp [symbolsOf]
  | inList operand first rest =>
      rcases hsimple with ⟨items, hitems⟩
      simp only [render] at hwritten
      rcases bind_eq_ok.1 hwritten with ⟨text, htext, hall⟩
      cases hall
      rw [Operand.text_of_render htext] at hitems
      rcases spans_ofValues (first :: rest) with ⟨inside, hinside⟩
      rcases behind_membership hinside with ⟨behind, hbehind⟩
      refine ⟨_, _, _, _, ?_, hitems, hbehind⟩
      simp [symbolsOf]
  | inQuery operand query =>
      rcases hsimple with ⟨⟨items, hitems⟩, inside, hinside⟩
      rw [render] at hwritten
      rcases bind_eq_ok.1 hwritten with ⟨text, htext, hall⟩
      cases hall
      rw [Operand.text_of_render htext] at hitems
      rcases behind_membership hinside with ⟨behind, hbehind⟩
      refine ⟨_, _, _, _, ?_, hitems, hbehind⟩
      simp [symbolsOf]

/-- A comparison is an atom. -/
theorem IsComparison.atomic {filter : Filter} (h : filter.IsComparison)
    (hsimple : filter.SimpleLeaf columns) {written : Statement}
    (hwritten : filter.render columns = .ok written) :
    ∃ items, Atomic (symbols written) items ∧ ∀ text inside, items ≠ [.group text inside] := by
  rcases h.symbols_eq hsimple hwritten with
    ⟨front, back, items, others, hsymbols, hfront, hbehind⟩
  rcases hbehind.word with ⟨text, htext⟩
  -- with a word behind the operand it is no pair of parentheses, whatever the operand is
  refine ⟨items ++ others, ?_, ?_⟩
  · rw [hsymbols]
    exact hfront.seq hbehind.atomic
  · intro inner inside hgroup
    have hmem : .lexeme (.other text) ∈ items ++ others := List.mem_append_right items htext
    rw [hgroup] at hmem
    cases List.mem_singleton.1 hmem

theorem IsComparison.isLeaf {filter : Filter} (h : filter.IsComparison) : filter.IsLeaf := by
  cases h with
  | compare left comparison right => exact .compare left comparison right
  | null operand negated => exact .null operand negated
  | inList operand first rest => exact .inList operand first rest
  | inQuery operand query => exact .inQuery operand query

/-- The text of such a leaf is simple. -/
theorem SimpleLeaf.simple {filter : Filter} (h : filter.SimpleLeaf columns) {written : Statement}
    (hwritten : filter.render columns = .ok written) :
    Simple (symbols (filter.leafText columns)) := by
  have hcompared (hcomparison : filter.IsComparison) :
      Simple (symbols (filter.leafText columns)) := by
    rcases hcomparison.atomic h hwritten with ⟨items, hatomic, _⟩
    rw [hcomparison.isLeaf.leafText_eq, text_of_render hwritten]
    exact ⟨items, hatomic⟩
  cases filter with
  | compare left comparison right => exact hcompared (.compare left comparison right)
  | null operand negated => exact hcompared (.null operand negated)
  | inQuery operand query => exact hcompared (.inQuery operand query)
  | inList operand values =>
      cases values with
      | nil => exact h
      | cons first rest => exact hcompared (.inList operand first rest)
  | _ => exact h

end Filter

end FieldQuery
