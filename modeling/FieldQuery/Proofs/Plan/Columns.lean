import FieldQuery.Filter
import Mathlib.Data.List.Infix
import Mathlib.Data.List.Nodup

/-!
# Column maps that grow

Entries are added behind the others, one for each token, and of a known entry only a few things
ever change: what is selected for it, whether it is wanted, its lazy join and its copies.  So what a
token is found to stand for once, it stands for ever after.

Main definitions:

- `Entry.fixed`: an entry without the things that change.
- `ColumnMap.Distinct`: no token has two entries.
- `ColumnMap.Extends`: a column map that has grown.

Main statements: `ColumnMap.Extends.find?` and `ColumnMap.Extends.queryable`.
-/

namespace FieldQuery

/-- An entry without the things that change while a plan is built. -/
def Entry.fixed (entry : Entry) : Entry :=
  { entry with selectTarget := none, lazyJoin := none, wanted := false, copies := [] }

theorem Entry.fixed_addCopy (entry : Entry) (path : List PathStep) :
    (entry.addCopy path).fixed = entry.fixed := by
  unfold addCopy
  split <;> rfl

/-- An entry without the paths that linked columns have left in it. -/
def Entry.withoutCopies (entry : Entry) : Entry :=
  { entry with copies := [] }

theorem Entry.withoutCopies_addCopy (entry : Entry) (path : List PathStep) :
    (entry.addCopy path).withoutCopies = entry.withoutCopies := by
  unfold addCopy
  split <;> rfl

theorem Entry.fixed_of_withoutCopies {entry later : Entry}
    (h : later.withoutCopies = entry.withoutCopies) : later.fixed = entry.fixed := by
  have hfixed : later.withoutCopies.fixed = entry.withoutCopies.fixed := congrArg fixed h
  exact hfixed

namespace ColumnMap

/-- What stays of each entry. -/
def fixed (columns : ColumnMap) : List Entry :=
  columns.entries.map Entry.fixed

/-- No token has two entries. -/
def Distinct (columns : ColumnMap) : Prop :=
  (columns.entries.map (·.token)).Nodup

/-- Entries may have been added behind the known ones, for tokens that had none. -/
structure Extends (columns next : ColumnMap) : Prop where
  fixed : columns.fixed <+: next.fixed
  distinct : columns.Distinct → next.Distinct

variable {columns next last : ColumnMap} {entry : Entry} {token : Token}

theorem Extends.refl (columns : ColumnMap) : columns.Extends columns :=
  ⟨List.prefix_refl _, id⟩

theorem Extends.trans (h : columns.Extends next) (h' : next.Extends last) :
    columns.Extends last :=
  ⟨h.fixed.trans h'.fixed, h'.distinct ∘ h.distinct⟩

theorem tokens_fixed (columns : ColumnMap) :
    columns.fixed.map (·.token) = columns.entries.map (·.token) := by
  simp [fixed, Function.comp_def, Entry.fixed]

theorem extends_of_fixed (h : next.fixed = columns.fixed) : columns.Extends next where
  fixed := by simp [h]
  distinct := by
    intro hdistinct
    unfold Distinct at hdistinct ⊢
    rw [← tokens_fixed, h, tokens_fixed]
    exact hdistinct

/-! ## Growing -/

theorem push_known (h : columns.contains entry.token = true) : columns.push entry = columns := by
  simp [push, h]

theorem push_new (h : columns.contains entry.token = false) :
    columns.push entry = ⟨columns.entries ++ [entry]⟩ := by
  simp [push, h]

theorem extends_push (columns : ColumnMap) (entry : Entry) :
    columns.Extends (columns.push entry) := by
  cases h : columns.contains entry.token with
  | true =>
      rw [push_known h]
      exact .refl columns
  | false =>
      rw [push_new h]
      refine ⟨by simp [fixed], fun hdistinct => ?_⟩
      have hnew : ∀ known ∈ columns.entries, known.token ≠ entry.token := by
        simpa [contains] using h
      simp only [Distinct, List.map_append, List.nodup_append]
      refine ⟨hdistinct, List.nodup_singleton _, ?_⟩
      simpa using hnew

theorem extends_pushAll (entries : List Entry) (columns : ColumnMap) :
    columns.Extends (entries.foldl push columns) := by
  induction entries generalizing columns with
  | nil => exact .refl columns
  | cons first rest ih => exact (extends_push columns first).trans (ih (columns.push first))

/-- Changes that keep what is fixed of an entry. -/
theorem fixed_modify (columns : ColumnMap) (token : Token) {change : Entry → Entry}
    (hkeeps : ∀ entry, (change entry).fixed = entry.fixed) :
    (columns.modify token change).fixed = columns.fixed := by
  have hentry : ∀ entry : Entry,
      (if entry.token = token then change entry else entry).fixed = entry.fixed := by
    intro entry
    split
    · exact hkeeps entry
    · rfl
  simp [fixed, modify, hentry]

theorem extends_modify (columns : ColumnMap) (token : Token) {change : Entry → Entry}
    (hkeeps : ∀ entry, (change entry).fixed = entry.fixed) :
    columns.Extends (columns.modify token change) :=
  extends_of_fixed (fixed_modify columns token hkeeps)

/-! ## Finding -/

theorem contains_eq (columns : ColumnMap) (token : Token) :
    columns.contains token = columns.fixed.any (·.token == token) := by
  simp [contains, fixed, List.any_map, Function.comp_def, Entry.fixed]

theorem contains_iff :
    columns.contains token = true ↔ ∃ entry ∈ columns.entries, entry.token = token := by
  simp [contains]

theorem contains_of_find? (h : columns.find? token = some entry) :
    columns.contains token = true :=
  contains_iff.2 ⟨entry, List.mem_of_find?_eq_some h, by simpa using List.find?_some h⟩

theorem exists_find? (h : columns.contains token = true) :
    ∃ entry, columns.find? token = some entry := by
  rcases contains_iff.1 h with ⟨entry, hmem, htoken⟩
  have hsome : (columns.entries.find? (·.token == token)).isSome := by
    rw [List.find?_isSome]
    exact ⟨entry, hmem, by simpa using htoken⟩
  exact Option.isSome_iff_exists.1 hsome

theorem find?_fixed (columns : ColumnMap) (token : Token) :
    columns.fixed.find? (·.token == token) = (columns.find? token).map Entry.fixed := by
  simp [fixed, find?, List.find?_map, Function.comp_def, Entry.fixed]

/-- What is found in a list is found in a longer one. -/
theorem find?_of_prefix {α : Type} {p : α → Bool} {front whole : List α} {found : α}
    (h : front <+: whole) (hfound : front.find? p = some found) : whole.find? p = some found := by
  rcases h with ⟨back, rfl⟩
  simp [List.find?_append, hfound]

theorem Extends.contains (h : columns.Extends next) (hmem : columns.contains token = true) :
    next.contains token = true := by
  rw [contains_eq] at hmem ⊢
  rcases h.fixed with ⟨added, hadded⟩
  rw [← hadded, List.any_append, hmem, Bool.true_or]

theorem Extends.unknown (h : columns.Extends next) (hnew : next.contains token = false) :
    columns.contains token = false := by
  cases hknown : columns.contains token with
  | false => rfl
  | true => rw [h.contains hknown] at hnew; cases hnew

/-- A token keeps its entry, but for the things that change. -/
theorem Extends.find? (h : columns.Extends next) (hfound : columns.find? token = some entry) :
    ∃ later, next.find? token = some later ∧ later.fixed = entry.fixed := by
  have hfront : columns.fixed.find? (·.token == token) = some entry.fixed := by
    simp [find?_fixed, hfound]
  have hback := find?_of_prefix h.fixed hfront
  rw [find?_fixed, Option.map_eq_some_iff] at hback
  exact hback

theorem queryable_eq_ok : columns.queryable token = .ok entry ↔
    columns.find? token = some entry ∧ entry.column.transient = false := by
  unfold queryable locate
  cases hfound : columns.find? token with
  | none => simp
  | some found =>
      cases htransient : found.column.transient with
      | true =>
          simp only [htransient, if_true, reduceCtorEq, false_iff]
          rintro ⟨heq, hstored⟩
          cases heq
          rw [htransient] at hstored
          cases hstored
      | false =>
          simp only [htransient, Bool.false_eq_true, if_false, Except.ok.injEq, Option.some.injEq]
          constructor
          · rintro rfl
            exact ⟨rfl, htransient⟩
          · exact And.left

/-- So a stored column goes on being found, behind the same name. -/
theorem Extends.queryable (h : columns.Extends next)
    (hfound : columns.queryable token = .ok entry) :
    ∃ later, next.queryable token = .ok later ∧ later.fixed = entry.fixed := by
  rcases queryable_eq_ok.1 hfound with ⟨hentry, hstored⟩
  rcases h.find? hentry with ⟨later, hlater, hfixed⟩
  have hcolumn : later.column = entry.column := (congrArg Entry.column hfixed :)
  exact ⟨later, queryable_eq_ok.2 ⟨hlater, by rw [hcolumn, hstored]⟩, hfixed⟩

theorem contains_push (columns : ColumnMap) (entry : Entry) :
    (columns.push entry).contains entry.token = true := by
  cases hknown : columns.contains entry.token with
  | true => rw [push_known hknown, hknown]
  | false =>
      rw [push_new hknown]
      simp [ColumnMap.contains]

theorem contains_pushAll {entries : List Entry} (h : entry ∈ entries) (columns : ColumnMap) :
    (entries.foldl push columns).contains entry.token = true := by
  induction entries generalizing columns with
  | nil => cases h
  | cons first rest ih =>
      rcases List.mem_cons.1 h with rfl | h
      · exact (extends_pushAll rest _).contains (contains_push columns entry)
      · exact ih h (columns.push first)

theorem find?_push_of_some (h : columns.find? token = some entry) {other : Entry} :
    (columns.push other).find? token = some entry := by
  cases hknown : columns.contains other.token with
  | true => rw [push_known hknown, h]
  | false =>
      have hfront : columns.entries.find? (·.token == token) = some entry := h
      rw [push_new hknown]
      simp [ColumnMap.find?, List.find?_append, hfront]

theorem find?_pushAll_of_some (entries : List Entry) (h : columns.find? token = some entry) :
    (entries.foldl push columns).find? token = some entry := by
  induction entries generalizing columns with
  | nil => exact h
  | cons first rest ih => exact ih (find?_push_of_some h)

/-- What is pushed for a new token is what the token stands for, if nothing else is pushed for
it. -/
theorem find?_pushAll {entries : List Entry} (hmem : entry ∈ entries)
    (hdistinct : (entries.map (·.token)).Nodup) (hnew : columns.contains entry.token = false) :
    (entries.foldl push columns).find? entry.token = some entry := by
  induction entries generalizing columns with
  | nil => cases hmem
  | cons first rest ih =>
      rcases List.nodup_cons.1 hdistinct with ⟨hfirst, hrest⟩
      rcases List.mem_cons.1 hmem with rfl | hmem
      · have habsent : columns.entries.find? (·.token == entry.token) = none := by
          simpa [ColumnMap.contains] using hnew
        have hpushed : (columns.push entry).find? entry.token = some entry := by
          rw [push_new hnew]
          simp [ColumnMap.find?, habsent]
        exact find?_pushAll_of_some rest hpushed
      · have hother : first.token ≠ entry.token := by
          intro heq
          exact hfirst (List.mem_map.2 ⟨entry, hmem, heq.symm⟩)
        refine ih hmem hrest ?_
        cases hknown : columns.contains first.token with
        | true => rw [push_known hknown, hnew]
        | false =>
            rw [push_new hknown]
            simpa [ColumnMap.contains, hother] using hnew

/-- What is behind pushes was there, or was pushed for a token that had no entry. -/
theorem mem_pushAll_cases {entries : List Entry}
    (h : entry ∈ (entries.foldl push columns).entries) :
    entry ∈ columns.entries ∨ entry ∈ entries ∧ columns.contains entry.token = false := by
  induction entries generalizing columns with
  | nil => exact .inl h
  | cons first rest ih =>
      rcases ih h with hfirst | ⟨hrest, hnew⟩
      · cases hknown : columns.contains first.token with
        | true =>
            rw [push_known hknown] at hfirst
            exact .inl hfirst
        | false =>
            rw [push_new hknown] at hfirst
            rcases List.mem_append.1 hfirst with hold | hpushed
            · exact .inl hold
            · rw [List.mem_singleton.1 hpushed]
              exact .inr ⟨List.mem_cons_self, hknown⟩
      · exact .inr ⟨List.mem_cons_of_mem first hrest, (extends_push columns first).unknown hnew⟩

theorem mem_pushAll {entries : List Entry} (h : entry ∈ (entries.foldl push columns).entries) :
    entry ∈ columns.entries ∨ entry ∈ entries :=
  (mem_pushAll_cases h).imp_right And.left

/-! ## One entry for each token -/

theorem Distinct.find? (h : columns.Distinct) (hmem : entry ∈ columns.entries) :
    columns.find? entry.token = some entry := by
  cases hfound : columns.find? entry.token with
  | none =>
      have habsent : ∀ known ∈ columns.entries, known.token ≠ entry.token := by
        simpa [ColumnMap.find?] using hfound
      exact absurd rfl (habsent entry hmem)
  | some found =>
      have hknown : found ∈ columns.entries := List.mem_of_find?_eq_some hfound
      have htoken : found.token = entry.token := by simpa using List.find?_some hfound
      rw [List.inj_on_of_nodup_map h hknown hmem htoken]

theorem Distinct.relation? (h : columns.Distinct) (hfound : columns.relation? token = some entry) :
    columns.find? token = some entry ∧ entry.column.relation.isSome := by
  have hmem : entry ∈ columns.entries := List.mem_of_find?_eq_some hfound
  have hmatch : entry.token = token ∧ entry.column.relation.isSome = true := by
    simpa using List.find?_some hfound
  refine ⟨?_, hmatch.2⟩
  rw [← hmatch.1]
  exact h.find? hmem

/-- What has a known token is a known entry, but for the things that change. -/
theorem Extends.known (h : columns.Extends next) (hdistinct : columns.Distinct)
    {later : Entry} (hlater : later ∈ next.entries)
    (hknown : columns.contains later.token = true) :
    ∃ entry ∈ columns.entries, entry.token = later.token ∧ later.fixed = entry.fixed := by
  rcases contains_iff.1 hknown with ⟨entry, hentry, htoken⟩
  have hfound : columns.find? later.token = some entry := by
    rw [← htoken]
    exact hdistinct.find? hentry
  rcases h.find? hfound with ⟨found, hnext, hfixed⟩
  have hsame : found = later := by simpa [(h.distinct hdistinct).find? hlater] using hnext.symm
  exact ⟨entry, hentry, htoken, hsame ▸ hfixed⟩

end ColumnMap

end FieldQuery
