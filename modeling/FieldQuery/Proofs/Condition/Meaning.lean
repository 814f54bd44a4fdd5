import FieldQuery.Proofs.Condition.Leaves

/-!
# The meaning of a condition

The text of a condition is read with the value of the condition.  The induction is on the condition;
what it carries is that a layout is balanced, and that it is one operand of a connective unless it
lies between connectives itself: only then does another list of conditions put it in parentheses.

It is carried out for any way of cutting the texts of leaves.  Two are of use: a leaf's text may be
kept as it is, so that whatever stands in it is one atom, or it may be cut into words.

Main definitions:

- `expand`: a layout with the texts of leaves cut up.
- `evaluate`: the value that lexemes are read with.
- `Filter.ReadsAs`: a text that is read as a condition.

Main statements: `Filter.cuts_layout`, the text of a condition is cut leaf by leaf;
`Filter.means_layout`, its layout has the value of the condition; `Filter.readsAs_render`, both of
what is written.
-/

namespace FieldQuery

namespace Condition

variable {α : Type}

/-- A layout with the texts of leaves cut up. -/
def expand (cut : Statement → List (Lexeme α)) : Lexeme Statement → List (Lexeme α)
  | .opening => [.opening]
  | .closing => [.closing]
  | .and => [.and]
  | .or => [.or]
  | .not => [.not]
  | .other statement => cut statement

/-! ## Cutting a layout -/

/-- The text of a layout is cut leaf by leaf. -/
def Cuts (lexemes : List (Lexeme Statement)) : Prop :=
  Lexes (layoutSymbols lexemes) (lexemes.flatMap (expand words))

namespace Cuts

variable {lexemes front back : List (Lexeme Statement)} {connective : Lexeme Statement}

theorem other {statement : Statement} (h : Closed (symbols statement)) :
    Cuts [.other statement] := by
  have hlexes : Lexes (symbols statement) (words statement) := ⟨h, rfl⟩
  simpa [Cuts, expand, lexemeSymbols] using hlexes

theorem not (h : Cuts lexemes) : Cuts (.not :: lexemes) := by
  have hlexes := Lexes.not h
  simpa [Cuts, expand, lexemeSymbols] using hlexes

theorem parenthesized (h : Cuts lexemes) : Cuts (.opening :: lexemes ++ [.closing]) := by
  have hlexes := Lexes.parenthesized h
  simpa [Cuts, expand, lexemeSymbols] using hlexes

theorem connect (hconnective : connective = .and ∨ connective = .or) (hfront : Cuts front)
    (hback : Cuts back) : Cuts (front ++ connective :: back) := by
  rcases hconnective with rfl | rfl
  · have hword : Lexes (symbolsOf "AND") [.and] := ⟨by rfl, by rfl⟩
    have hlexes := hword.connect hfront hback
    simpa [Cuts, expand, lexemeSymbols] using hlexes
  · have hword : Lexes (symbolsOf "OR") [.or] := ⟨by rfl, by rfl⟩
    have hlexes := hword.connect hfront hback
    simpa [Cuts, expand, lexemeSymbols] using hlexes

theorem enclosed {part : Part} (h : Cuts part.2) : Cuts (enclosed part) := by
  unfold Condition.enclosed
  split
  · exact h.parenthesized
  · exact h

theorem intercalate (hconnective : connective = .and ∨ connective = .or) :
    ∀ {parts : List (List (Lexeme Statement))}, parts ≠ [] → (∀ part ∈ parts, Cuts part) →
      Cuts ([connective].intercalate parts)
  | [only], _, h => by
      have honly := h only List.mem_cons_self
      simpa using honly
  | first :: second :: rest, _, h => by
      have hfirst := h first List.mem_cons_self
      have hrest : ∀ part ∈ second :: rest, Cuts part := by
        intro part hmem
        exact h part (List.mem_cons_of_mem _ hmem)
      have hmore := intercalate hconnective (List.cons_ne_nil second rest) hrest
      rw [List.intercalate_cons_cons, List.append_assoc]
      exact hfirst.connect hconnective hmore

theorem connected (hconnective : connective = .and ∨ connective = .or) {empty : Statement}
    (hempty : Closed (symbols empty)) :
    ∀ {parts : List Part}, (∀ part ∈ parts, Cuts part.2) → Cuts (connected connective empty parts)
  | [], _ => .other hempty
  | [only], h => h only List.mem_cons_self
  | first :: second :: rest, h => by
      have hparts : ∀ part ∈ (first :: second :: rest).map Condition.enclosed, Cuts part := by
        intro part hmem
        rcases List.mem_map.1 hmem with ⟨whole, hwhole, rfl⟩
        exact (h whole hwhole).enclosed
      exact intercalate hconnective (List.cons_ne_nil _ _) hparts

end Cuts

/-! ## Reading a layout -/

section Values

variable [DecidableEq α]

/-- The value that lexemes are read with, if they can be read. -/
def evaluate (assign : List (Lexeme α) → Truth) (lexemes : List (Lexeme α)) : Option Truth :=
  (read? lexemes).map (·.truth assign)

/-- The value of a leaf's text under values of what it is made of. -/
def leafTruth (cut : Statement → List (Lexeme α)) (assign : List (Lexeme α) → Truth)
    (leaf : Statement) : Truth :=
  (evaluate assign (cut leaf)).getD .unknown

/-- A leaf's text is one operand of a connective. -/
def Sealed (cut : Statement → List (Lexeme α)) (leaf : Statement) : Prop :=
  ∃ items, items? (cut leaf) = some items ∧ Factor items

variable {cut : Statement → List (Lexeme α)} {assign : List (Lexeme α) → Truth}

/-- Part of a list of conditions reads with a value; it is one operand of a connective, unless it
is a list itself. -/
def Means (cut : Statement → List (Lexeme α)) (assign : List (Lexeme α) → Truth) (part : Part)
    (truth : Truth) : Prop :=
  ∃ items, Yields (part.2.flatMap (expand cut)) items ∧ (readItems items).truth assign = truth ∧
    (part.1 = false → Factor items)

namespace Means

theorem evaluate_eq {part : Part} {truth : Truth} (h : Means cut assign part truth) :
    evaluate assign (part.2.flatMap (expand cut)) = some truth := by
  rcases h with ⟨items, hyields, htruth, _⟩
  simp [evaluate, read?_of_yields hyields, htruth]

theorem leaf {leaf : Statement} (h : Sealed cut leaf) :
    Means cut assign (false, [.other leaf]) (leafTruth cut assign leaf) := by
  rcases h with ⟨items, hitems, hfactor⟩
  refine ⟨items, ?_, ?_, fun _ => hfactor⟩
  · simpa [expand] using yields_of_items? hitems
  · simp [leafTruth, evaluate, read?, hitems]

/-- A negation applies to one operand. -/
theorem not {lexemes : List (Lexeme Statement)} {truth : Truth}
    (h : Means cut assign (false, lexemes) truth) :
    Means cut assign (false, .not :: lexemes) truth.not := by
  rcases h with ⟨items, hyields, htruth, hfactor⟩
  -- an `AND` or `OR` behind it would end what it applies to
  have hoperand := hfactor rfl
  have hnot : Yields [.not] [(.lexeme .not : Item α)] :=
    .single (by simp) (by simp)
  refine ⟨.lexeme .not :: items, ?_, ?_, fun _ => hoperand.not⟩
  · simpa [expand] using hnot.append hyields
  · rw [hoperand.not.readItems]
    rw [hoperand.readItems] at htruth
    simp [readFactor, Formula.truth, htruth]

theorem parenthesized {isGroup : Bool} {lexemes : List (Lexeme Statement)} {truth : Truth}
    (h : Means cut assign (isGroup, lexemes) truth) :
    Means cut assign (false, .opening :: lexemes ++ [.closing]) truth := by
  rcases h with ⟨items, hyields, htruth, _⟩
  have hfactor := Factor.grouped items
  refine ⟨[grouped items], ?_, ?_, fun _ => hfactor⟩
  · simpa [expand] using hyields.parenthesized
  · rw [hfactor.readItems]
    exact htruth

/-- Among others, each part is one operand. -/
theorem enclosed {part : Part} {truth : Truth} (h : Means cut assign part truth) :
    Means cut assign (false, Condition.enclosed part) truth := by
  rcases part with ⟨isGroup, lexemes⟩
  cases isGroup with
  | true => exact h.parenthesized
  | false => exact h

/-- What parts between connectives consist of. -/
theorem operands {parts : List Part} {truths : List Truth}
    (h : List.Forall₂ (Means cut assign) parts truths) :
    ∃ itemsOf, List.Forall₂ Yields
        ((parts.map Condition.enclosed).map (·.flatMap (expand cut))) itemsOf ∧
      (∀ items ∈ itemsOf, Factor items) ∧
      itemsOf.map (fun items => (readFactor items).truth assign) = truths := by
  induction h with
  | nil => exact ⟨[], .nil, by simp, rfl⟩
  | @cons part truth parts truths hpart hrest ih =>
      rcases ih with ⟨others, hyields, hfactors, htruths⟩
      rcases hpart.enclosed with ⟨items, hitems, htruth, hfactor⟩
      rw [(hfactor rfl).readItems] at htruth
      refine ⟨items :: others, .cons hitems hyields, ?_, ?_⟩
      · simpa using ⟨hfactor rfl, hfactors⟩
      · simp [htruth, htruths]

/-- A list of conditions reads as its parts combined.  One part alone is read as it is, with or
without parentheses around it. -/
theorem connected {connective : Lexeme Statement} {lexeme : Lexeme α}
    {combine : List Truth → Truth} {empty : Statement}
    (hexpand : expand cut connective = [lexeme]) (hopening : lexeme ≠ .opening)
    (hclosing : lexeme ≠ .closing)
    (hread : ∀ {itemsOf : List (List (Item α))}, itemsOf ≠ [] →
      (∀ items ∈ itemsOf, Factor items) →
        (readItems ([.lexeme lexeme].intercalate itemsOf)).truth assign =
          combine (itemsOf.map fun items => (readFactor items).truth assign))
    (hone : ∀ truth, combine [truth] = truth)
    (hempty : Means cut assign (false, [.other empty]) (combine []))
    {parts : List Part} {truths : List Truth}
    (h : List.Forall₂ (Means cut assign) parts truths) :
    Means cut assign (true, Condition.connected connective empty parts) (combine truths) := by
  cases h with
  | nil =>
      rcases hempty with ⟨items, hyields, htruth, _⟩
      exact ⟨items, hyields, htruth, by simp⟩
  | @cons first truth parts truths hfirst hrest =>
      cases hrest with
      | nil =>
          -- one part alone may be a list, so the whole need not be an operand
          rcases hfirst with ⟨items, hyields, htruth, _⟩
          exact ⟨items, hyields, by rw [htruth, hone], by simp⟩
      | @cons second next parts truths hsecond hmore =>
          rcases operands (.cons hfirst (.cons hsecond hmore)) with
            ⟨itemsOf, hyields, hfactors, htruths⟩
          have hne : itemsOf ≠ [] := by
            rintro rfl
            cases hyields
          refine ⟨[.lexeme lexeme].intercalate itemsOf, ?_, ?_, by simp⟩
          · have hall := Yields.intercalate hopening hclosing hyields
            rw [← hexpand, ← flatMap_intercalate] at hall
            exact hall
          · rw [hread hne hfactors, htruths]

end Means

end Values

end Condition

open Condition

namespace Filter

variable {columns : ColumnMap}

theorem forall_parts {property : Part → Prop} {filters : List Filter}
    (h : ∀ filter ∈ filters, property (filter.isGroup, filter.layout columns)) :
    ∀ part ∈ parts columns filters, property part := by
  intro part hpart
  rw [parts_eq] at hpart
  rcases List.mem_map.1 hpart with ⟨filter, hfilter, rfl⟩
  exact h filter hfilter

/-- The text of a condition is cut leaf by leaf. -/
theorem cuts_layout (columns : ColumnMap) {filter : Filter}
    (h : ∀ leaf ∈ filter.leaves, Closed (symbols (leaf.leafText columns))) :
    Cuts (filter.layout columns) := by
  induction filter using Filter.induction with
  | and filters ih =>
      have hparts : ∀ part ∈ parts columns filters, Cuts part.2 := by
        refine forall_parts ?_
        intro filter hfilter
        exact ih filter hfilter (forall_leavesOf (by simpa [leaves] using h) filter hfilter)
      have hcuts : Cuts (connected .and alwaysText (parts columns filters)) :=
        .connected (.inl rfl) (by rfl) hparts
      simpa [layout] using hcuts
  | or filters ih =>
      have hparts : ∀ part ∈ parts columns filters, Cuts part.2 := by
        refine forall_parts ?_
        intro filter hfilter
        exact ih filter hfilter (forall_leavesOf (by simpa [leaves] using h) filter hfilter)
      have hcuts : Cuts (connected .or neverText (parts columns filters)) :=
        .connected (.inr rfl) (by rfl) hparts
      simpa [layout] using hcuts
  | not filter ih =>
      have hinner : Cuts (filter.layout columns) := ih (by simpa [leaves] using h)
      simpa [layout] using hinner.parenthesized.not
  | truth operand negated =>
      have hclosed : Closed (symbols (operand.text columns)) := by
        simpa [leaves, leafText] using h
      have hoperand : Cuts [.other (operand.text columns)] := .other hclosed
      cases negated with
      | true => simpa [layout] using hoperand.not
      | false => simpa [layout] using hoperand
  | never operand =>
      have hnever : Cuts [.other neverText] := .other (by rfl)
      simpa [layout] using hnever
  | leaf filter hleaf =>
      have hclosed : Closed (symbols (filter.leafText columns)) :=
        h filter (by simp [hleaf.leaves_eq])
      simpa [hleaf.layout_eq] using Cuts.other hclosed

section Reading

variable {α : Type} [DecidableEq α] {cut : Statement → List (Lexeme α)}
  {assign : List (Lexeme α) → Truth}

theorem means_parts {filters : List Filter}
    (h : ∀ filter ∈ filters, Means cut assign (filter.isGroup, filter.layout columns)
      (filter.value columns (leafTruth cut assign))) :
    List.Forall₂ (Means cut assign) (parts columns filters)
      (values columns (leafTruth cut assign) filters) := by
  induction filters with
  | nil => exact .nil
  | cons filter rest ih =>
      have hfirst := h filter List.mem_cons_self
      have hrest := ih fun filter hmem => h filter (List.mem_cons_of_mem _ hmem)
      exact .cons hfirst hrest

/-- The layout of a condition reads with the value of the condition. -/
theorem means_layout (columns : ColumnMap)
    (halways : Means cut assign (false, [.other alwaysText]) .holds)
    (hnever : Means cut assign (false, [.other neverText]) .fails) {filter : Filter}
    (h : ∀ leaf ∈ filter.leaves, Sealed cut (leaf.leafText columns)) :
    Means cut assign (filter.isGroup, filter.layout columns)
      (filter.value columns (leafTruth cut assign)) := by
  induction filter using Filter.induction with
  | and filters ih =>
      have hparts := means_parts fun filter hfilter =>
        ih filter hfilter (forall_leavesOf (by simpa [leaves] using h) filter hfilter)
      have hall : Means cut assign (true, connected .and alwaysText (parts columns filters))
          (Truth.all (values columns (leafTruth cut assign) filters)) :=
        .connected rfl (by simp) (by simp) (truth_readItems_and assign) Truth.all_singleton halways
          hparts
      simpa [isGroup, layout, value] using hall
  | or filters ih =>
      have hparts := means_parts fun filter hfilter =>
        ih filter hfilter (forall_leavesOf (by simpa [leaves] using h) filter hfilter)
      have hany : Means cut assign (true, connected .or neverText (parts columns filters))
          (Truth.any (values columns (leafTruth cut assign) filters)) :=
        .connected rfl (by simp) (by simp) (truth_readItems_or assign) Truth.any_singleton hnever
          hparts
      simpa [isGroup, layout, value] using hany
  | not filter ih =>
      -- the parentheses make one operand of whatever is negated
      have hinner := ih (by simpa [leaves] using h)
      simpa [isGroup, layout, value] using hinner.parenthesized.not
  | truth operand negated =>
      have hsealed : Sealed cut (operand.text columns) := by
        simpa [leaves, leafText] using h
      have hoperand : Means cut assign (false, [.other (operand.text columns)])
          (leafTruth cut assign (operand.text columns)) := .leaf hsealed
      cases negated with
      | true => simpa [isGroup, layout, value] using hoperand.not
      | false => simpa [isGroup, layout, value] using hoperand
  | never operand => simpa [isGroup, layout, value] using hnever
  | leaf filter hleaf =>
      have hsealed := h filter (by simp [hleaf.leaves_eq])
      simpa [hleaf.layout_eq, hleaf.value_eq, hleaf.isGroup_eq] using Means.leaf hsealed

end Reading

/-! ## What is written -/

/-- A text is read as a condition. -/
structure ReadsAs (columns : ColumnMap) (filter : Filter) (written : Statement) : Prop where
  /-- It is the layout of the condition. -/
  text : symbols written = layoutSymbols (filter.layout columns)
  /-- With each leaf's text as one atom it has the value of the condition. -/
  marked : ∀ assign : List (Lexeme Statement) → Truth,
    assign [.other alwaysText] = .holds → assign [.other neverText] = .fails →
      evaluate assign (filter.layout columns) =
        some (filter.value columns fun leaf => assign [.other leaf])
  /-- So it has by its words alone, if operands hold no connectives outside of parentheses. -/
  worded : (∀ leaf ∈ filter.leaves, leaf.SimpleLeaf columns) →
    ∀ assign : List (Lexeme Word) → Truth,
      assign (words alwaysText) = .holds → assign (words neverText) = .fails →
        evaluate assign (words written) =
          some (filter.value columns (leafTruth words assign))
  /-- Then a leaf is one atom, or nothing but a pair of parentheses and what it holds. -/
  atoms : ∀ leaf ∈ filter.leaves, leaf.SimpleLeaf columns →
    (leaf.IsComparison ∨ ∀ text inside,
      items? (words (leaf.leafText columns)) ≠ some [.group text inside]) →
        read? (words (leaf.leafText columns)) = some (.atom (words (leaf.leafText columns)))

/-- With the texts of leaves kept as they are, a layout is what it was. -/
theorem flatMap_expand_other (lexemes : List (Lexeme Statement)) :
    lexemes.flatMap (expand fun leaf => [.other leaf]) = lexemes := by
  have hexpand : (expand fun leaf => [.other leaf]) = fun lexeme => [lexeme] := by
    funext lexeme
    cases lexeme <;> rfl
  rw [hexpand]
  exact List.flatMap_pure_eq_map _ _ |>.trans (List.map_id _)

theorem evaluate_layout (columns : ColumnMap) (filter : Filter)
    {assign : List (Lexeme Statement) → Truth} (halways : assign [.other alwaysText] = .holds)
    (hnever : assign [.other neverText] = .fails) :
    evaluate assign (filter.layout columns) =
      some (filter.value columns fun leaf => assign [.other leaf]) := by
  have hsealed (leaf : Statement) : Sealed (fun leaf => [.other leaf]) leaf :=
    ⟨[.lexeme (.other leaf)], rfl, by simp, by simp⟩
  have hholds : Means (fun leaf => [.other leaf]) assign (false, [.other alwaysText]) .holds := by
    rw [← halways]
    exact .leaf (hsealed alwaysText)
  have hfails : Means (fun leaf => [.other leaf]) assign (false, [.other neverText]) .fails := by
    rw [← hnever]
    exact .leaf (hsealed neverText)
  have hleaves : ∀ leaf ∈ filter.leaves, Sealed (fun leaf => [.other leaf])
      (leaf.leafText columns) := by
    intro leaf _
    exact hsealed _
  have heval := (means_layout columns hholds hfails hleaves).evaluate_eq
  rw [flatMap_expand_other] at heval
  exact heval

theorem evaluate_words {filter : Filter} {written : Statement}
    (hwritten : filter.render columns = .ok written)
    (h : ∀ leaf ∈ filter.leaves, leaf.SimpleLeaf columns) {assign : List (Lexeme Word) → Truth}
    (halways : assign (words alwaysText) = .holds) (hnever : assign (words neverText) = .fails) :
    evaluate assign (words written) = some (filter.value columns (leafTruth words assign)) := by
  have hsimple : ∀ leaf ∈ filter.leaves, Simple (symbols (leaf.leafText columns)) := by
    intro leaf hleaf
    rcases render_of_mem_leaves hwritten hleaf with ⟨text, htext⟩
    exact (h leaf hleaf).simple htext
  have hcuts := cuts_layout columns fun leaf hleaf => by
    rcases hsimple leaf hleaf with ⟨items, hatomic⟩
    exact hatomic.spans.closed
  have hwords : words written = (filter.layout columns).flatMap (expand words) := by
    rw [words, symbols_render columns filter written hwritten]
    exact hcuts.lex
  have hsealed : ∀ leaf ∈ filter.leaves, Sealed words (leaf.leafText columns) := by
    intro leaf hleaf
    rcases hsimple leaf hleaf with ⟨items, hatomic⟩
    exact ⟨items, hatomic.spans.balanced, hatomic.factor⟩
  -- the constants are written in words that are no connectives
  have hholds : Means words assign (false, [.other alwaysText]) .holds := by
    rw [← halways]
    exact .leaf ⟨plainItems [.plain ['1'], .sign '=', .plain ['1']], by rfl,
      factor_plainItems _⟩
  have hfails : Means words assign (false, [.other neverText]) .fails := by
    rw [← hnever]
    exact .leaf ⟨plainItems [.plain ['1'], .sign '=', .plain ['0']], by rfl,
      factor_plainItems _⟩
  have heval := (means_layout columns hholds hfails hsealed).evaluate_eq
  rw [hwords]
  exact heval

/-- What is written is read as the condition. -/
theorem readsAs_render {filter : Filter} {written : Statement}
    (hwritten : filter.render columns = .ok written) : ReadsAs columns filter written where
  text := symbols_render columns filter written hwritten
  marked := by
    intro assign halways hnever
    exact evaluate_layout columns filter halways hnever
  worded := by
    intro hleaves assign halways hnever
    exact evaluate_words hwritten hleaves halways hnever
  atoms := by
    intro leaf hleaf hsimple hatom
    rcases render_of_mem_leaves hwritten hleaf with ⟨text, htext⟩
    rcases hatom with hcomparison | hgroup
    · rcases hcomparison.atomic hsimple htext with ⟨items, hatomic, hgroup⟩
      rw [hcomparison.isLeaf.leafText_eq, text_of_render htext]
      exact hatomic.read? hgroup
    · rcases hsimple.simple htext with ⟨items, hatomic⟩
      refine hatomic.read? ?_
      rintro text inside rfl
      exact hgroup text inside hatomic.spans.balanced

end Filter

end FieldQuery
