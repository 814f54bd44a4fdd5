import Mathlib.Data.List.Forall2

/-!
# Reading conditions

How SQL reads a condition: parentheses first, then `NOT`, then `AND`, then `OR`.  What lies between
these is not looked into.  Values are three: a comparison with `NULL` neither holds nor fails.

Main definitions:

- `Truth`, `Formula`: values, and formulas over the texts of atoms.
- `Lexeme`, `read?`: a condition cut into words and signs, and the formula that it is read as.
- `Yields`: what lexemes leave behind within any parentheses.

Main statements: `yields_of_items?` and its converse, `read?_atom`, and `truth_readItems_and` with
its counterpart for `OR`.
-/

namespace FieldQuery.Condition

/-! ## Values -/

inductive Truth
  | holds
  | fails
  | unknown
  deriving DecidableEq, Repr

namespace Truth

protected def not : Truth → Truth
  | .holds => .fails
  | .fails => .holds
  | .unknown => .unknown

protected def and : Truth → Truth → Truth
  | .fails, _ => .fails
  | _, .fails => .fails
  | .holds, .holds => .holds
  | _, _ => .unknown

protected def or : Truth → Truth → Truth
  | .holds, _ => .holds
  | _, .holds => .holds
  | .fails, .fails => .fails
  | _, _ => .unknown

/-- Whether all hold; nothing at all holds. -/
def all (truths : List Truth) : Truth :=
  truths.foldr Truth.and .holds

/-- Whether one holds; nothing at all fails. -/
def any (truths : List Truth) : Truth :=
  truths.foldr Truth.or .fails

@[simp] theorem and_holds (truth : Truth) : truth.and .holds = truth := by
  cases truth <;> rfl

@[simp] theorem or_fails (truth : Truth) : truth.or .fails = truth := by
  cases truth <;> rfl

theorem all_singleton (truth : Truth) : all [truth] = truth := by
  simp [all]

theorem any_singleton (truth : Truth) : any [truth] = truth := by
  simp [any]

end Truth

/-! ## Formulas -/

/-- The words and signs of a condition.  All that is not looked into is some other text. -/
inductive Lexeme (α : Type)
  | opening
  | closing
  | and
  | or
  | not
  | other (text : α)
  deriving DecidableEq, Repr

inductive Formula (α : Type)
  | atom (text : List (Lexeme α))
  | not (operand : Formula α)
  | and (left right : Formula α)
  | or (left right : Formula α)
  deriving DecidableEq, Repr

/-- What a list of lexemes consists of within its outermost parentheses. -/
inductive Item (α : Type)
  | lexeme (lexeme : Lexeme α)
  | group (text : List (Lexeme α)) (inside : Formula α)
  deriving DecidableEq, Repr

variable {α : Type}

namespace Formula

/-- The value of a formula under values of its atoms. -/
def truth (assign : List (Lexeme α) → Truth) : Formula α → Truth
  | .atom text => assign text
  | .not operand => (operand.truth assign).not
  | .and left right => (left.truth assign).and (right.truth assign)
  | .or left right => (left.truth assign).or (right.truth assign)

/-- Formulas in a row, joined by a connective. -/
def combine (connective : Formula α → Formula α → Formula α) : List (Formula α) → Formula α
  | [] => .atom []
  | [only] => only
  | first :: second :: rest => connective first (combine connective (second :: rest))

/-- The value of formulas in a row is that of the connective's counterpart over their values. -/
theorem truth_combine {assign : List (Lexeme α) → Truth}
    {connective : Formula α → Formula α → Formula α} {join : Truth → Truth → Truth} {start : Truth}
    (htruth : ∀ left right,
      (connective left right).truth assign = join (left.truth assign) (right.truth assign))
    (hstart : ∀ truth, join truth start = truth) : ∀ {formulas : List (Formula α)}, formulas ≠ [] →
      (combine connective formulas).truth assign =
        (formulas.map (·.truth assign)).foldr join start
  | [only], _ => (hstart _).symm
  | first :: second :: rest, _ => by
      rw [combine, htruth, truth_combine htruth hstart (List.cons_ne_nil second rest)]
      rfl

end Formula

/-- The lexemes that an item stands for. -/
def Item.text : Item α → List (Lexeme α)
  | .lexeme l => [l]
  | .group text _ => .opening :: text ++ [.closing]

/-! ## Reading -/

section Reading

/-- Reads items without `AND` and `OR` outside of parentheses. -/
def readFactor : List (Item α) → Formula α
  | .lexeme .not :: rest => .not (readFactor rest)
  | [.group _ inside] => inside
  | items => .atom (items.flatMap Item.text)

variable [DecidableEq α]

/-- Reads items without `OR` outside of parentheses. -/
def readTerm (items : List (Item α)) : Formula α :=
  .combine .and ((items.splitOn (.lexeme .and)).map readFactor)

/-- Reads items, where parentheses are read already. -/
def readItems (items : List (Item α)) : Formula α :=
  .combine .or ((items.splitOn (.lexeme .or)).map readTerm)

/-- A pair of parentheses, read. -/
def grouped (items : List (Item α)) : Item α :=
  .group (items.flatMap Item.text) (readItems items)

/-- The items of parentheses that are open, the innermost first; the last are outside of all. -/
abbrev Frames (α : Type) := List (List (Item α))

def step : Lexeme α → Frames α → Option (Frames α)
  | .opening, frame :: frames => some ([] :: frame :: frames)
  | .closing, frame :: outer :: frames => some ((outer ++ [grouped frame]) :: frames)
  | .closing, _ => none
  | lexeme, frame :: frames => some ((frame ++ [.lexeme lexeme]) :: frames)
  | _, [] => none

def run : List (Lexeme α) → Frames α → Option (Frames α)
  | [], frames => some frames
  | lexeme :: rest, frames => (step lexeme frames).bind (run rest)

/-- The items outside of all parentheses, where these are balanced. -/
def items? (lexemes : List (Lexeme α)) : Option (List (Item α)) :=
  match run lexemes [[]] with
  | some [items] => some items
  | _ => none

/-- The formula that a condition is read as. -/
def read? (lexemes : List (Lexeme α)) : Option (Formula α) :=
  (items? lexemes).map readItems

/-! ## What lexemes leave behind -/

theorem run_append (front back : List (Lexeme α)) (frames : Frames α) :
    run (front ++ back) frames = (run front frames).bind (run back) := by
  induction front generalizing frames with
  | nil => rfl
  | cons lexeme rest ih =>
      simp only [List.cons_append, run, Option.bind_assoc]
      cases step lexeme frames with
      | none => rfl
      | some next => exact ih next

/-- Within whatever parentheses lexemes stand, they leave these items behind. -/
def Yields (lexemes : List (Lexeme α)) (items : List (Item α)) : Prop :=
  ∀ frame frames, run lexemes (frame :: frames) = some ((frame ++ items) :: frames)

namespace Yields

variable {front back lexemes : List (Lexeme α)} {items others : List (Item α)}

theorem nil : Yields ([] : List (Lexeme α)) [] := by
  intro frame frames
  simp [run]

theorem append (hfront : Yields front items) (hback : Yields back others) :
    Yields (front ++ back) (items ++ others) := by
  intro frame frames
  simp [run_append, hfront frame frames, hback (frame ++ items) frames]

theorem single {lexeme : Lexeme α} (hopening : lexeme ≠ .opening) (hclosing : lexeme ≠ .closing) :
    Yields [lexeme] [.lexeme lexeme] := by
  intro frame frames
  cases lexeme with
  | opening => exact absurd rfl hopening
  | closing => exact absurd rfl hclosing
  | and => rfl
  | or => rfl
  | not => rfl
  | other text => rfl

theorem parenthesized (h : Yields lexemes items) :
    Yields (.opening :: lexemes ++ [.closing]) [grouped items] := by
  intro frame frames
  have hinside := h [] (frame :: frames)
  simp [run, step, run_append, hinside]

/-- Lexemes in a row, parted by a connective. -/
theorem intercalate {lexeme : Lexeme α} (hopening : lexeme ≠ .opening)
    (hclosing : lexeme ≠ .closing) {parts : List (List (Lexeme α))}
    {itemsOf : List (List (Item α))} (h : List.Forall₂ Yields parts itemsOf) :
    Yields ([lexeme].intercalate parts) ([.lexeme lexeme].intercalate itemsOf) := by
  induction h with
  | nil => exact nil
  | @cons part items rest others hpart hrest ih =>
      cases hrest with
      | nil => simpa using hpart
      | cons hsecond hmore =>
          rw [List.intercalate_cons_cons, List.intercalate_cons_cons]
          exact (hpart.append (single hopening hclosing)).append ih

end Yields

/-- More frames below, and more items at the front of the outermost one. -/
def under (front : List (Item α)) (more : Frames α) : Frames α → Frames α
  | [] => []
  | [frame] => (front ++ frame) :: more
  | frame :: outer :: frames => frame :: under front more (outer :: frames)

/-- A step does not look at what lies below the frames that it needs. -/
theorem step_under (front : List (Item α)) (more : Frames α) {lexeme : Lexeme α}
    {frames next : Frames α} (h : step lexeme frames = some next) :
    next ≠ [] ∧ step lexeme (under front more frames) = some (under front more next) := by
  -- with no frame nothing is read, with one alone nothing can be closed
  rcases frames with _ | ⟨frame, _ | ⟨outer, frames⟩⟩
  · cases lexeme <;> cases h
  · cases lexeme with
    | closing => cases h
    | opening =>
        cases h
        exact ⟨List.cons_ne_nil _ _, rfl⟩
    | _ =>
        cases h
        exact ⟨List.cons_ne_nil _ _, by simp [step, under]⟩
  · cases lexeme with
    | closing =>
        cases h
        refine ⟨List.cons_ne_nil _ _, ?_⟩
        -- what is closed may lie in the outermost frame
        cases frames with
        | nil => simp [step, under]
        | cons next rest => rfl
    | _ =>
        cases h
        exact ⟨List.cons_ne_nil _ _, rfl⟩

theorem run_under (front : List (Item α)) (more : Frames α) {lexemes : List (Lexeme α)}
    {frames next : Frames α} (h : run lexemes frames = some next) :
    run lexemes (under front more frames) = some (under front more next) := by
  induction lexemes generalizing frames with
  | nil =>
      cases h
      rfl
  | cons lexeme rest ih =>
      rcases Option.bind_eq_some_iff.1 h with ⟨behind, hstep, hrest⟩
      simp [run, (step_under front more hstep).2, ih hrest]

/-- Lexemes whose parentheses are balanced leave the same items behind everywhere. -/
theorem yields_of_items? {lexemes : List (Lexeme α)} {items : List (Item α)}
    (h : items? lexemes = some items) : Yields lexemes items := by
  have hrun : run lexemes [[]] = some [items] := by
    unfold items? at h
    split at h
    · rename_i found hfound
      cases h
      exact hfound
    · cases h
  intro frame frames
  have hunder := run_under frame frames hrun
  simpa [under] using hunder

theorem items?_of_yields {lexemes : List (Lexeme α)} {items : List (Item α)}
    (h : Yields lexemes items) : items? lexemes = some items := by
  have hrun := h [] []
  unfold items?
  rw [hrun]
  rfl

theorem read?_of_yields {lexemes : List (Lexeme α)} {items : List (Item α)}
    (h : Yields lexemes items) : read? lexemes = some (readItems items) := by
  simp [read?, items?_of_yields h]

/-- The lexemes that frames stand for, the outermost first. -/
def textOf : Frames α → List (Lexeme α)
  | [] => []
  | [frame] => frame.flatMap Item.text
  | frame :: outer :: frames => textOf (outer :: frames) ++ .opening :: frame.flatMap Item.text

omit [DecidableEq α] in
theorem textOf_snoc (item : Item α) (frame : List (Item α)) (frames : Frames α) :
    textOf ((frame ++ [item]) :: frames) = textOf (frame :: frames) ++ item.text := by
  cases frames with
  | nil => simp [textOf]
  | cons outer rest => simp [textOf]

theorem textOf_step {lexeme : Lexeme α} {frames next : Frames α}
    (h : step lexeme frames = some next) : textOf next = textOf frames ++ [lexeme] := by
  cases frames with
  | nil => cases lexeme <;> cases h
  | cons frame frames =>
      cases lexeme with
      | opening =>
          cases h
          simp [textOf]
      | closing =>
          cases frames with
          | nil => cases h
          | cons outer frames =>
              cases h
              simp [textOf, textOf_snoc, grouped, Item.text]
      | _ =>
          cases h
          exact textOf_snoc _ frame frames

/-- Nothing of a text is lost. -/
theorem textOf_run {lexemes : List (Lexeme α)} {frames next : Frames α}
    (h : run lexemes frames = some next) : textOf next = textOf frames ++ lexemes := by
  induction lexemes generalizing frames with
  | nil =>
      cases h
      simp
  | cons lexeme rest ih =>
      rcases Option.bind_eq_some_iff.1 h with ⟨behind, hstep, hrest⟩
      simp [ih hrest, textOf_step hstep]

/-! ## Factors -/

/-- Items that stand for one operand of a connective. -/
structure Factor (items : List (Item α)) : Prop where
  and : .lexeme .and ∉ items
  or : .lexeme .or ∉ items

theorem Factor.grouped (items : List (Item α)) : Factor [grouped items] where
  and := by simp [Condition.grouped]
  or := by simp [Condition.grouped]

omit [DecidableEq α] in
theorem Factor.append {items others : List (Item α)} (h : Factor items) (hothers : Factor others) :
    Factor (items ++ others) where
  and := by simp [h.and, hothers.and]
  or := by simp [h.or, hothers.or]

omit [DecidableEq α] in
theorem Factor.not {items : List (Item α)} (h : Factor items) :
    Factor (.lexeme .not :: items) where
  and := by simp [h.and]
  or := by simp [h.or]

theorem readTerm_of_factor {items : List (Item α)} (h : .lexeme .and ∉ items) :
    readTerm items = readFactor items := by
  simp [readTerm, List.splitOn_eq_singleton h, Formula.combine]

theorem readItems_of_term {items : List (Item α)} (h : .lexeme .or ∉ items) :
    readItems items = readTerm items := by
  simp [readItems, List.splitOn_eq_singleton h, Formula.combine]

/-- One operand alone is read as what it is. -/
theorem Factor.readItems {items : List (Item α)} (h : Factor items) :
    readItems items = readFactor items :=
  (readItems_of_term h.or).trans (readTerm_of_factor h.and)

/-- A text whose parentheses are balanced is a single atom, if outside of them it has neither `AND`
nor `OR`, does not begin with `NOT`, and is not a pair of parentheses as a whole. -/
theorem read?_atom {lexemes : List (Lexeme α)} {items : List (Item α)}
    (hitems : items? lexemes = some items) (hfactor : Factor items)
    (hnot : items.head? ≠ some (.lexeme .not))
    (hgroup : ∀ text inside, items ≠ [.group text inside]) :
    read? lexemes = some (.atom lexemes) := by
  have hyields := yields_of_items? hitems
  have htext : items.flatMap Item.text = lexemes := by
    have hrun := textOf_run (hyields [] [])
    simpa [textOf] using hrun
  have hatom : readFactor items = .atom (items.flatMap Item.text) := by
    unfold readFactor
    split
    · exact absurd rfl hnot
    · rename_i text inside
      exact absurd rfl (hgroup text inside)
    · rfl
  rw [read?_of_yields hyields, hfactor.readItems, hatom, htext]

theorem mem_intercalate {β : Type} {item separator : β} {parts : List (List β)}
    (h : item ∈ [separator].intercalate parts) :
    item = separator ∨ ∃ part ∈ parts, item ∈ part := by
  induction parts with
  | nil => simp at h
  | cons part rest ih =>
      cases rest with
      | nil => exact .inr ⟨part, List.mem_cons_self, by simpa using h⟩
      | cons second more =>
          rw [List.intercalate_cons_cons, List.mem_append, List.mem_append] at h
          rcases h with (hpart | hseparator) | hrest
          · exact .inr ⟨part, List.mem_cons_self, hpart⟩
          · exact .inl (List.mem_singleton.1 hseparator)
          · refine (ih hrest).imp_right ?_
            rintro ⟨other, hmem, hitem⟩
            exact ⟨other, List.mem_cons_of_mem _ hmem, hitem⟩

/-- Operands parted by `AND` are read as their conjunction. -/
theorem truth_readItems_and (assign : List (Lexeme α) → Truth) {parts : List (List (Item α))}
    (hne : parts ≠ []) (h : ∀ part ∈ parts, Factor part) :
    (readItems ([.lexeme .and].intercalate parts)).truth assign =
      Truth.all (parts.map fun part => (readFactor part).truth assign) := by
  -- without `OR` there is one term
  have hor : .lexeme .or ∉ [(.lexeme .and : Item α)].intercalate parts := by
    intro hmem
    rcases mem_intercalate hmem with heq | ⟨part, hpart, hitem⟩
    · cases heq
    · exact (h part hpart).or hitem
  have hsplit := List.splitOn_intercalate (.lexeme .and) (fun part hpart => (h part hpart).and) hne
  have hterms : parts.map readFactor ≠ [] := by simpa using hne
  calc (readItems ([.lexeme .and].intercalate parts)).truth assign
      = (Formula.combine .and (parts.map readFactor)).truth assign := by
        rw [readItems_of_term hor, readTerm, hsplit]
    _ = Truth.all ((parts.map readFactor).map (·.truth assign)) :=
        Formula.truth_combine (fun _ _ => rfl) Truth.and_holds hterms
    _ = Truth.all (parts.map fun part => (readFactor part).truth assign) := by
        rw [List.map_map]
        rfl

/-- Operands parted by `OR` are read as their disjunction. -/
theorem truth_readItems_or (assign : List (Lexeme α) → Truth) {parts : List (List (Item α))}
    (hne : parts ≠ []) (h : ∀ part ∈ parts, Factor part) :
    (readItems ([.lexeme .or].intercalate parts)).truth assign =
      Truth.any (parts.map fun part => (readFactor part).truth assign) := by
  have hsplit := List.splitOn_intercalate (.lexeme .or) (fun part hpart => (h part hpart).or) hne
  -- each term is one factor
  have hterms : parts.map readTerm = parts.map readFactor :=
    List.map_congr_left fun part hpart => readTerm_of_factor (h part hpart).and
  have hfactors : parts.map readFactor ≠ [] := by simpa using hne
  calc (readItems ([.lexeme .or].intercalate parts)).truth assign
      = (Formula.combine .or (parts.map readFactor)).truth assign := by
        rw [readItems, hsplit, hterms]
    _ = Truth.any ((parts.map readFactor).map (·.truth assign)) :=
        Formula.truth_combine (fun _ _ => rfl) Truth.or_fails hfactors
    _ = Truth.any (parts.map fun part => (readFactor part).truth assign) := by
        rw [List.map_map]
        rfl

end Reading

end FieldQuery.Condition
