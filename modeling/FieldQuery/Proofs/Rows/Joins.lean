import Mathlib.Data.List.Forall2
import FieldQuery.ColumnMap

/-!
# Joins and products of rows

Sources are combined row by row in two ways.  A chain of joins takes them one after the other, each
with its own condition, and a left outer join keeps a combination for which it finds no row.  A
product takes every row with every other one.  The combinations of the joins in which no row is
missing are those of the product for which all conditions hold, provided that a condition does not
look at what is joined behind it.

Main definitions:

- `Combination`, `Join`: rows side by side, and a join as it is carried out.
- `joinAll`, `product`: the two ways of combining sources.
- `InOrder`: the conditions look at no source that is joined behind them.

Main statements: `mem_joinAll_iff_product`, `complete_of_inner`.
-/

namespace FieldQuery.Rows

variable {ρ : Type}

/-- Rows of some sources side by side; a row is missing where an outer join did not find one. -/
abbrev Combination (ρ : Type) := List (Option ρ)

/-- A join with the rows of its source and the condition under which they are joined. -/
structure Join (ρ : Type) where
  kind : JoinKind
  rows : List ρ
  on : Combination ρ → Bool

/-- A combination with each of the rows that go with it. -/
def Join.found (join : Join ρ) (left : Combination ρ) : List (Combination ρ) :=
  (join.rows.map fun row => left ++ [some row]).filter join.on

/-- What a join makes of a combination; an outer join keeps it if no row goes with it. -/
def Join.extend (join : Join ρ) (left : Combination ρ) : List (Combination ρ) :=
  match join.kind, join.found left with
  | .leftOuter, [] => [left ++ [none]]
  | _, found => found

/-- Joins one after the other. -/
def joinAll (joins : List (Join ρ)) (combinations : List (Combination ρ)) :
    List (Combination ρ) :=
  joins.foldl (fun combinations join => combinations.flatMap join.extend) combinations

/-- Every combination with every row of each source. -/
def product (sources : List (List ρ)) (combinations : List (Combination ρ)) :
    List (Combination ρ) :=
  sources.foldl (fun combinations rows =>
    combinations.flatMap fun left => rows.map fun row => left ++ [some row]) combinations

/-- The rows that combinations begin with. -/
def primaryRows (combinations : List (Combination ρ)) : List ρ :=
  combinations.filterMap fun combination => combination.head?.join

/-- Behind a number of sources, each condition looks at the sources up to its own join at most. -/
def InOrder (width : Nat) (joins : List (Join ρ)) : Prop :=
  ∀ i join, joins[i]? = some join → ∀ left later : Combination ρ, left.length = width + i + 1 →
    join.on (left ++ later) = join.on left

section Combining

variable {join : Join ρ} {joins : List (Join ρ)} {sources : List (List ρ)}
  {combinations : List (Combination ρ)} {left combination : Combination ρ}

theorem InOrder.head {width : Nat} (h : InOrder width (join :: joins)) (later : Combination ρ)
    (hleft : left.length = width + 1) : join.on (left ++ later) = join.on left :=
  h 0 join rfl left later hleft

theorem InOrder.tail {width : Nat} (h : InOrder width (join :: joins)) :
    InOrder (width + 1) joins := by
  intro i other hother left later hleft
  exact h (i + 1) other hother left later (by omega)

theorem mem_primaryRows {row : ρ} :
    row ∈ primaryRows combinations ↔
      ∃ combination ∈ combinations, combination.head? = some (some row) := by
  simp [primaryRows, Option.join_eq_some_iff]

/-- The combinations of a product are the rows of its sources side by side. -/
theorem mem_product : combination ∈ product sources combinations ↔
    ∃ left ∈ combinations, ∃ rows : List ρ,
      List.Forall₂ (fun row source => row ∈ source) rows sources ∧
        combination = left ++ rows.map some := by
  induction sources generalizing combinations with
  | nil => simp [product]
  | cons source rest ih =>
      have hstep : product (source :: rest) combinations = product rest
          (combinations.flatMap fun left => source.map fun row => left ++ [some row]) := rfl
      rw [hstep, ih]
      constructor
      · rintro ⟨_, hmem, rows, hrows, rfl⟩
        obtain ⟨left, hleft, hmem⟩ := List.mem_flatMap.1 hmem
        obtain ⟨row, hrow, rfl⟩ := List.mem_map.1 hmem
        exact ⟨left, hleft, row :: rows, .cons hrow hrows, by simp⟩
      · rintro ⟨left, hleft, _, hrows, rfl⟩
        cases hrows with
        | @cons row _ rows _ hrow hrows =>
            refine ⟨left ++ [some row], ?_, rows, hrows, by simp⟩
            exact List.mem_flatMap.2 ⟨left, hleft, List.mem_map.2 ⟨row, hrow, rfl⟩⟩

theorem mem_found : combination ∈ join.found left ↔
    ∃ row ∈ join.rows, combination = left ++ [some row] ∧ join.on combination = true := by
  simp only [Join.found, List.mem_filter, List.mem_map]
  constructor
  · rintro ⟨⟨row, hrow, rfl⟩, hon⟩
    exact ⟨row, hrow, rfl, hon⟩
  · rintro ⟨row, hrow, rfl, hon⟩
    exact ⟨⟨row, hrow, rfl⟩, hon⟩

theorem mem_extend : combination ∈ join.extend left ↔ combination ∈ join.found left ∨
    join.kind = .leftOuter ∧ join.found left = [] ∧ combination = left ++ [none] := by
  unfold Join.extend
  cases join.kind with
  | inner => simp
  | leftOuter => cases join.found left <;> simp

theorem length_of_mem_extend (h : combination ∈ join.extend left) :
    combination.length = left.length + 1 := by
  rcases mem_extend.1 h with hfound | ⟨-, -, rfl⟩
  · obtain ⟨row, -, rfl, -⟩ := mem_found.1 hfound
    simp
  · simp

/-- Where no row is missing, the join has found one. -/
theorem mem_extend_complete : combination ∈ join.extend left ∧ none ∉ combination ↔
    none ∉ left ∧ combination ∈ join.found left := by
  rw [mem_extend]
  constructor
  · rintro ⟨hfound | ⟨-, -, rfl⟩, hcomplete⟩
    · obtain ⟨row, -, rfl, -⟩ := mem_found.1 hfound
      exact ⟨fun hmem => hcomplete (List.mem_append_left _ hmem), hfound⟩
    · exact absurd (List.mem_append_right left List.mem_cons_self) hcomplete
  · rintro ⟨hleft, hfound⟩
    obtain ⟨row, -, rfl, -⟩ := mem_found.1 hfound
    exact ⟨.inl hfound, by simpa using hleft⟩

/-- The combinations of joins in which no row is missing are the rows of the sources side by side
for which all conditions hold. -/
theorem mem_joinAll_complete {width : Nat} (hjoins : InOrder width joins)
    (hwidth : ∀ left ∈ combinations, left.length = width) :
    combination ∈ joinAll joins combinations ∧ none ∉ combination ↔
      ∃ left ∈ combinations, none ∉ left ∧ ∃ rows : List ρ,
        List.Forall₂ (fun row join => row ∈ join.rows) rows joins ∧
          combination = left ++ rows.map some ∧ ∀ join ∈ joins, join.on combination = true := by
  induction joins generalizing width combinations with
  | nil => simp [joinAll]
  | cons join rest ih =>
      have hlonger : ∀ left ∈ combinations.flatMap join.extend, left.length = width + 1 := by
        intro extended hmem
        obtain ⟨left, hleft, hmem⟩ := List.mem_flatMap.1 hmem
        rw [length_of_mem_extend hmem, hwidth left hleft]
      have hstep : joinAll (join :: rest) combinations =
          joinAll rest (combinations.flatMap join.extend) := rfl
      rw [hstep, ih hjoins.tail hlonger]
      constructor
      · rintro ⟨extended, hmem, hcomplete, rows, hrows, rfl, hall⟩
        obtain ⟨left, hleft, hextended⟩ := List.mem_flatMap.1 hmem
        obtain ⟨hleftComplete, hfound⟩ := mem_extend_complete.1 ⟨hextended, hcomplete⟩
        obtain ⟨row, hrow, rfl, hrowOn⟩ := mem_found.1 hfound
        refine ⟨left, hleft, hleftComplete, row :: rows, .cons hrow hrows, by simp, ?_⟩
        intro other hother
        rcases List.mem_cons.1 hother with rfl | hother
        · -- what is joined later does not change the condition
          rw [hjoins.head _ (hlonger _ hmem)]
          exact hrowOn
        · exact hall other hother
      · rintro ⟨left, hleft, hcomplete, _, hrows, rfl, hall⟩
        cases hrows with
        | @cons row _ rows _ hrow hrows =>
            have hlength : (left ++ [some row]).length = width + 1 := by simp [hwidth left hleft]
            have hsplit : left ++ (row :: rows).map some =
                left ++ [some row] ++ rows.map some := by simp
            have hrowOn : join.on (left ++ [some row]) = true := by
              rw [← hjoins.head (rows.map some) hlength, ← hsplit]
              exact hall join List.mem_cons_self
            have hfound : left ++ [some row] ∈ join.found left :=
              mem_found.2 ⟨row, hrow, rfl, hrowOn⟩
            obtain ⟨hextended, hextendedComplete⟩ := mem_extend_complete.2 ⟨hcomplete, hfound⟩
            exact ⟨left ++ [some row], List.mem_flatMap.2 ⟨left, hleft, hextended⟩,
              hextendedComplete, rows, hrows, hsplit,
              fun other hother => hall other (List.mem_cons_of_mem join hother)⟩

/-- The complete combinations of joins are those of the product for which all conditions hold. -/
theorem mem_joinAll_iff_product {width : Nat} (hjoins : InOrder width joins)
    (hwidth : ∀ left ∈ combinations, left.length = width)
    (hcomplete : ∀ left ∈ combinations, none ∉ left) :
    combination ∈ joinAll joins combinations ∧ none ∉ combination ↔
      combination ∈ product (joins.map (·.rows)) combinations ∧
        ∀ join ∈ joins, join.on combination = true := by
  rw [mem_joinAll_complete hjoins hwidth, mem_product]
  constructor
  · rintro ⟨left, hleft, -, rows, hrows, heq, hall⟩
    exact ⟨⟨left, hleft, rows, List.forall₂_map_right_iff.2 hrows, heq⟩, hall⟩
  · rintro ⟨⟨left, hleft, rows, hrows, heq⟩, hall⟩
    exact ⟨left, hleft, hcomplete left hleft, rows, List.forall₂_map_right_iff.1 hrows, heq, hall⟩

/-- Inner joins leave no row out. -/
theorem complete_of_inner (hinner : ∀ join ∈ joins, join.kind = .inner)
    (hcomplete : ∀ left ∈ combinations, none ∉ left) :
    ∀ combination ∈ joinAll joins combinations, none ∉ combination := by
  induction joins generalizing combinations with
  | nil => exact hcomplete
  | cons join rest ih =>
      refine ih (fun other hother => hinner other (List.mem_cons_of_mem join hother)) ?_
      intro extended hmem
      obtain ⟨left, hleft, hmem⟩ := List.mem_flatMap.1 hmem
      rcases mem_extend.1 hmem with hfound | ⟨houter, -, -⟩
      · exact (mem_extend_complete.2 ⟨hcomplete left hleft, hfound⟩).2
      · rw [hinner join List.mem_cons_self] at houter
        cases houter

end Combining

end FieldQuery.Rows
