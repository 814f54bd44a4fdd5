import FieldQuery.Plan.Basic
import Mathlib.Logic.Embedding.Basic
import Mathlib.Logic.Function.Basic

/-!
# Renaming tokens in conditions

A token tells one field from another, and says nothing else.  So conditions whose tokens are renamed
are written in a column map whose tokens are renamed alike just as they were before; only an error
about an unresolved field names another token.  Renamings are injective, since two fields must not
become one; a condition written by hand is shown the tokens that it knows.

Main definitions:

- `Operand.rename`, `Fragment.rename`, `Filter.rename`: conditions with other tokens.
- `ColumnMap.rename`: a column map with other tokens; `ColumnMap.unrename`: with the former ones.

Main statement: `Filter.render_rename`.
-/

namespace FieldQuery

/-! ## Errors -/

/-- The error with another token. -/
def PlanError.rename (ρ : Token ↪ Token) : PlanError → PlanError
  | .unresolvedField token => .unresolvedField (ρ token)
  | error => error

/-- A result whose error has another token. -/
def renamedError {α : Type} (ρ : Token ↪ Token) (result : Except PlanError α) :
    Except PlanError α :=
  result.mapError (·.rename ρ)

theorem renamedError_bind {α β : Type} (ρ : Token ↪ Token) (first : Except PlanError α)
    (next : α → Except PlanError β) : renamedError ρ (first >>= next) =
      renamedError ρ first >>= fun value => renamedError ρ (next value) := by
  cases first <;> rfl

theorem renamedError_map {α β : Type} (ρ : Token ↪ Token) (first : Except PlanError α)
    (next : α → β) : renamedError ρ (first.map next) = (renamedError ρ first).map next := by
  cases first <;> rfl

/-! ## Column maps -/

/-- The entry under another token. -/
def Entry.rename (ρ : Token ↪ Token) (entry : Entry) : Entry :=
  { entry with token := ρ entry.token, parent := entry.parent.map ρ }

def ColumnMap.rename (ρ : Token ↪ Token) (columns : ColumnMap) : ColumnMap :=
  ⟨columns.entries.map (·.rename ρ)⟩

/-- The token that was renamed to this one. -/
noncomputable def Token.unrename (ρ : Token ↪ Token) : Token → Token :=
  haveI : Nonempty Token := ⟨⟨0⟩⟩
  Function.invFun ρ

theorem Token.unrename_rename (ρ : Token ↪ Token) (token : Token) : (ρ token).unrename ρ = token :=
  haveI : Nonempty Token := ⟨⟨0⟩⟩
  Function.leftInverse_invFun ρ.injective token

noncomputable def Entry.unrename (ρ : Token ↪ Token) (entry : Entry) : Entry :=
  { entry with token := entry.token.unrename ρ, parent := entry.parent.map (Token.unrename ρ) }

theorem Entry.unrename_rename (ρ : Token ↪ Token) (entry : Entry) :
    (entry.rename ρ).unrename ρ = entry := by
  rcases entry with ⟨token⟩
  simp [Entry.rename, Entry.unrename, Token.unrename_rename, Function.comp_def]

/-- The column map with the tokens that were renamed. -/
noncomputable def ColumnMap.unrename (ρ : Token ↪ Token) (columns : ColumnMap) : ColumnMap :=
  ⟨columns.entries.map (·.unrename ρ)⟩

namespace ColumnMap

variable (ρ : Token ↪ Token) (columns : ColumnMap)

theorem unrename_rename : (columns.rename ρ).unrename ρ = columns := by
  rcases columns with ⟨entries⟩
  simp [rename, unrename, Function.comp_def, Entry.unrename_rename]

@[simp] theorem token_rename (entry : Entry) : (entry.rename ρ).token = ρ entry.token := rfl

theorem beq_rename (entry : Entry) (token : Token) :
    ((entry.rename ρ).token == ρ token) = (entry.token == token) := by
  rw [token_rename, Bool.eq_iff_iff, beq_iff_eq, beq_iff_eq, ρ.injective.eq_iff]

theorem contains_rename (token : Token) :
    (columns.rename ρ).contains (ρ token) = columns.contains token := by
  simp only [contains, rename, List.any_map, Function.comp_def, beq_rename]

theorem push_rename (entry : Entry) :
    (columns.rename ρ).push (entry.rename ρ) = (columns.push entry).rename ρ := by
  unfold push
  rw [token_rename, contains_rename]
  split
  · rfl
  · simp only [rename, List.map_append, List.map_singleton]

theorem pushes_rename (entries : List Entry) :
    (entries.map (·.rename ρ)).foldl push (columns.rename ρ) =
      (entries.foldl push columns).rename ρ := by
  induction entries generalizing columns with
  | nil => rfl
  | cons entry rest ih => rw [List.map_cons, List.foldl_cons, push_rename, ih, List.foldl_cons]

theorem find?_rename (token : Token) :
    (columns.rename ρ).find? (ρ token) = (columns.find? token).map (·.rename ρ) := by
  simp only [find?, rename, List.find?_map, Function.comp_def, beq_rename]

theorem relation?_rename (token : Token) :
    (columns.rename ρ).relation? (ρ token) = (columns.relation? token).map (·.rename ρ) := by
  simp only [relation?, rename, List.find?_map, Function.comp_def, beq_rename]
  rfl

theorem locate_rename (token : Token) :
    (columns.rename ρ).locate (ρ token) =
      renamedError ρ ((columns.locate token).map (·.rename ρ)) := by
  unfold locate
  rw [find?_rename]
  cases columns.find? token <;> rfl

theorem queryable_rename (token : Token) :
    (columns.rename ρ).queryable (ρ token) =
      renamedError ρ ((columns.queryable token).map (·.rename ρ)) := by
  unfold queryable
  rw [locate_rename]
  cases columns.locate token with
  | error error => rfl
  | ok entry =>
      show (if entry.column.transient then _ else _) =
        renamedError ρ (Except.map _ (if _ then _ else _))
      split <;> rfl

theorem bareColumn_rename (token : Token) :
    (columns.rename ρ).bareColumn (ρ token) = renamedError ρ (columns.bareColumn token) := by
  unfold bareColumn
  rw [queryable_rename]
  cases columns.queryable token <;> rfl

theorem qualifiedColumn_rename (token : Token) :
    (columns.rename ρ).qualifiedColumn (ρ token) =
      renamedError ρ (columns.qualifiedColumn token) := by
  unfold qualifiedColumn
  rw [queryable_rename]
  cases columns.queryable token <;> rfl

theorem modify_rename (change : Entry → Entry)
    (hchange : ∀ entry, change (entry.rename ρ) = (change entry).rename ρ) (token : Token) :
    (columns.rename ρ).modify (ρ token) change = (columns.modify token change).rename ρ := by
  simp only [modify, rename, List.map_map, Function.comp_def, token_rename, ρ.injective.eq_iff,
    hchange, apply_ite]

theorem selected_rename : (columns.rename ρ).selected = columns.selected.map (·.rename ρ) := by
  simp only [selected, rename, List.filter_map]
  rfl

end ColumnMap

/-! ## Operands -/

namespace Operand

mutual

/-- The operand with other tokens. -/
def rename (ρ : Token ↪ Token) : Operand → Operand
  | .field token => .field (ρ token)
  | .value v => .value v
  | .wrapped template operands => .wrapped template (renameAll ρ operands)

def renameAll (ρ : Token ↪ Token) : List Operand → List Operand
  | [] => []
  | operand :: rest => rename ρ operand :: renameAll ρ rest

end

variable (ρ : Token ↪ Token) (columns : ColumnMap)

theorem renameAll_eq : ∀ operands : List Operand,
    renameAll ρ operands = operands.map (·.rename ρ)
  | [] => rfl
  | operand :: rest => by rw [renameAll, renameAll_eq rest, List.map_cons]

mutual

theorem hasField_rename : ∀ operand : Operand, (operand.rename ρ).hasField = operand.hasField
  | .field _ => rfl
  | .value _ => rfl
  | .wrapped _ operands => by
      rw [rename, hasField, hasField, anyHasField_renameAll operands]

theorem anyHasField_renameAll : ∀ operands : List Operand,
    anyHasField (renameAll ρ operands) = anyHasField operands
  | [] => rfl
  | operand :: rest => by
      rw [renameAll, anyHasField, anyHasField, hasField_rename operand, anyHasField_renameAll rest]

end

mutual

theorem render_rename : ∀ operand : Operand,
    (operand.rename ρ).render (columns.rename ρ) = renamedError ρ (operand.render columns)
  | .field token => by
      rw [rename, render, render, ColumnMap.qualifiedColumn_rename, renamedError_map]
  | .value _ => rfl
  | .wrapped template operands => by
      rw [rename, render, render]
      simp only [renamedError_bind, renderMarks_rename operands]
      rfl

theorem renderMarks_rename : ∀ (operands : List Operand) (parts : List String),
    renderMarks (columns.rename ρ) (renameAll ρ operands) parts =
      renamedError ρ (renderMarks columns operands parts)
  | [], [] => rfl
  | _ :: _, [] => rfl
  | [], _ :: _ => rfl
  | operand :: operands, part :: parts => by
      rw [renameAll, renderMarks, renderMarks]
      simp only [renamedError_bind, render_rename operand,
        renderMarks_rename operands parts]
      rfl

end

end Operand

/-! ## Conditions -/

namespace Fragment

/-- The step with other tokens. -/
def rename (ρ : Token ↪ Token) : Fragment → Fragment
  | .sql text => .sql text
  | .value v => .value v
  | .qualifiedColumn token => .qualifiedColumn (ρ token)
  | .bareColumn token => .bareColumn (ρ token)
  | .fail error => .fail (error.rename ρ)

variable (ρ : Token ↪ Token) (columns : ColumnMap)

theorem render_rename (fragment : Fragment) :
    (fragment.rename ρ).render (columns.rename ρ) = renamedError ρ (fragment.render columns) := by
  cases fragment with
  | sql text => rfl
  | value v => rfl
  | qualifiedColumn token =>
      rw [rename, render, render, ColumnMap.qualifiedColumn_rename, renamedError_map]
  | bareColumn token =>
      rw [rename, render, render, ColumnMap.bareColumn_rename, renamedError_map]
  | fail error => rfl

theorem renderAll_rename : ∀ fragments : List Fragment,
    renderAll (columns.rename ρ) (fragments.map (·.rename ρ)) =
      renamedError ρ (renderAll columns fragments)
  | [] => rfl
  | fragment :: rest => by
      rw [List.map_cons, renderAll, renderAll]
      simp only [renamedError_bind, render_rename, renderAll_rename rest]
      rfl

end Fragment

namespace Filter

mutual

/-- The condition with other tokens. -/
noncomputable def rename (ρ : Token ↪ Token) : Filter → Filter
  | .and filters => .and (renameAll ρ filters)
  | .or filters => .or (renameAll ρ filters)
  | .not filter => .not (rename ρ filter)
  | .compare left comparison right => .compare (left.rename ρ) comparison (right.rename ρ)
  | .null operand negated => .null (operand.rename ρ) negated
  | .truth operand negated => .truth (operand.rename ρ) negated
  | .inList operand values => .inList (operand.rename ρ) values
  | .inQuery operand query => .inQuery (operand.rename ρ) query
  | .verbatim condition => .verbatim condition
  | .invalid error => .invalid (error.rename ρ)
  | .custom steps => .custom fun columns => (steps (columns.unrename ρ)).map (·.rename ρ)

noncomputable def renameAll (ρ : Token ↪ Token) : List Filter → List Filter
  | [] => []
  | filter :: rest => rename ρ filter :: renameAll ρ rest

end

variable (ρ : Token ↪ Token) (columns : ColumnMap)

theorem renameAll_eq : ∀ filters : List Filter, renameAll ρ filters = filters.map (·.rename ρ)
  | [] => rfl
  | filter :: rest => by rw [renameAll, renameAll_eq rest, List.map_cons]

theorem isGroup_rename (filter : Filter) : (filter.rename ρ).isGroup = filter.isGroup := by
  cases filter <;> rfl

theorem render_and (first second : Filter) (rest : List Filter) :
    (Filter.and (first :: second :: rest)).render columns =
      (renderEach columns (first :: second :: rest)).map (.join " AND ") := by
  rw [render] <;> nofun

theorem render_or (first second : Filter) (rest : List Filter) :
    (Filter.or (first :: second :: rest)).render columns =
      (renderEach columns (first :: second :: rest)).map (.join " OR ") := by
  rw [render] <;> nofun

mutual

theorem render_rename : ∀ filter : Filter,
    (filter.rename ρ).render (columns.rename ρ) = renamedError ρ (filter.render columns)
  | .and [] => rfl
  | .and [filter] => by
      rw [rename, renameAll, renameAll, render, render, render_rename filter]
  | .and (first :: second :: rest) => by
      have heach := renderEach_rename (first :: second :: rest)
      rw [renameAll, renameAll] at heach
      rw [rename, renameAll, renameAll, render_and, render_and, heach, renamedError_map]
  | .or [] => rfl
  | .or [filter] => by
      rw [rename, renameAll, renameAll, render, render, render_rename filter]
  | .or (first :: second :: rest) => by
      have heach := renderEach_rename (first :: second :: rest)
      rw [renameAll, renameAll] at heach
      rw [rename, renameAll, renameAll, render_or, render_or, heach, renamedError_map]
  | .not filter => by
      rw [rename, render, render]
      simp only [renamedError_bind, render_rename filter]
      rfl
  | .compare left comparison right => by
      rw [rename, render, render]
      simp only [renamedError_bind, Operand.render_rename]
      rfl
  | .null operand negated => by
      rw [rename, render, render]
      simp only [renamedError_bind, Operand.render_rename]
      rfl
  | .truth operand negated => by
      rw [rename, render, render]
      simp only [renamedError_bind, Operand.render_rename]
      rfl
  | .inList operand [] => rfl
  | .inList operand (first :: rest) => by
      rw [rename, render, render]
      · simp only [renamedError_bind, Operand.render_rename]
        rfl
      · nofun
      · nofun
  | .inQuery operand query => by
      rw [rename, render, render]
      simp only [renamedError_bind, Operand.render_rename]
      rfl
  | .verbatim condition => rfl
  | .invalid error => rfl
  | .custom steps => by
      rw [rename, render, render, ColumnMap.unrename_rename, Fragment.renderAll_rename]

theorem renderEach_rename : ∀ filters : List Filter,
    renderEach (columns.rename ρ) (renameAll ρ filters) =
      renamedError ρ (renderEach columns filters)
  | [] => rfl
  | filter :: rest => by
      rw [renameAll, renderEach, renderEach]
      simp only [renamedError_bind, render_rename filter, renderEach_rename rest,
        isGroup_rename]
      rfl

end

end Filter

end FieldQuery
