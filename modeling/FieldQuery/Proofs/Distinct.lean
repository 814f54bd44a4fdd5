import Mathlib.Data.List.Induction
import Mathlib.Data.List.Nodup
import Mathlib.Data.String.Basic

/-!
# Each value once

Of a list with repetitions the first of each value is kept; what is kept can then be sorted.

Main statements: `nodup_eraseDups` and `eraseDups_repeated` for lists in their order,
`pairwise_lt_sorted` for texts that are sorted, and `find?_of_nodup_keys` for pairs with keys.
-/

namespace FieldQuery

section Values

variable {γ : Type} [BEq γ] [LawfulBEq γ]

theorem eraseDups_concat (values : List γ) (value : γ) :
    (values ++ [value]).eraseDups =
      if values.contains value then values.eraseDups else values.eraseDups ++ [value] := by
  rw [List.eraseDups_append]
  by_cases h : value ∈ values
  · simp [List.removeAll, h]
  · simp [List.removeAll, h, List.eraseDups_cons]

theorem nodup_eraseDups (values : List γ) : values.eraseDups.Nodup := by
  induction values using List.reverseRecOn with
  | nil => exact List.nodup_nil
  | append_singleton values value ih =>
      rw [eraseDups_concat]
      split
      case isTrue => exact ih
      case isFalse h =>
        refine List.nodup_append.2 ⟨ih, List.nodup_singleton value, ?_⟩
        rintro known hknown _ (_ | ⟨_, ⟨⟩⟩) rfl
        exact h (List.contains_iff_mem.2 (List.mem_eraseDups.1 hknown))

theorem eraseDups_repeated {value : γ} {values : List γ} (h : value ∈ values) (later : List γ) :
    (values ++ value :: later).eraseDups = (values ++ later).eraseDups := by
  simp [List.eraseDups_append, List.removeAll, h]

theorem nodup_sorted (before : γ → γ → Bool) (values : List γ) :
    (values.eraseDups.mergeSort before).Nodup :=
  ((List.mergeSort_perm _ _).nodup_iff).2 (nodup_eraseDups values)

end Values

/-- Texts that are sorted are strictly so, as each is there once. -/
theorem pairwise_lt_sorted (texts : List String) :
    (texts.eraseDups.mergeSort fun a b => decide (a ≤ b)).Pairwise (· < ·) := by
  have hsorted : (texts.eraseDups.mergeSort fun a b => decide (a ≤ b)).Pairwise (· ≤ ·) := by
    have htrans : ∀ a b c : String, decide (a ≤ b) = true → decide (b ≤ c) = true →
        decide (a ≤ c) = true := by
      intro a b c hab hbc
      exact decide_eq_true ((of_decide_eq_true hab).trans (of_decide_eq_true hbc))
    have htotal : ∀ a b : String, (decide (a ≤ b) || decide (b ≤ a)) = true := by
      intro a b
      simpa using le_total a b
    simpa using List.pairwise_mergeSort htrans htotal texts.eraseDups
  refine (hsorted.and (nodup_sorted _ texts)).imp ?_
  rintro a b ⟨hle, hne⟩
  exact lt_of_le_of_ne hle hne

/-- Where the keys of pairs are told apart, each pair is found by its own. -/
theorem find?_of_nodup_keys {β : Type} {pairs : List (String × β)}
    (h : (pairs.map (·.1)).Nodup) {pair : String × β} (hmem : pair ∈ pairs) :
    pairs.find? (·.1 == pair.1) = some pair := by
  cases hfound : pairs.find? (·.1 == pair.1) with
  | none =>
      have habsent : ∀ other ∈ pairs, other.1 ≠ pair.1 := by simpa using hfound
      exact absurd rfl (habsent _ hmem)
  | some found =>
      have hknown : found ∈ pairs := List.mem_of_find?_eq_some hfound
      have hkey : found.1 = pair.1 := by simpa using List.find?_some hfound
      rw [List.inj_on_of_nodup_map h hknown hmem hkey]

end FieldQuery
