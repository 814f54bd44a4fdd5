import FieldQuery.Cache.Registry
import Mathlib.Data.List.Basic

/-!
# The registry as a relation

What the operations of a registry do to the relation "a key is registered for a table".  Registering
adds pairs to it, forgetting takes out all pairs of some keys.

Main statements:

- `Registry.mem_keys_register`, `Registry.mem_keys_forget`: the relation behind each operation.
- `Registry.mem_keysFor`: the keys that a write to some tables is about.
-/

namespace FieldQuery.Cache.Registry

/-- Every table is listed once, so that the keys of a table stand in one place. -/
def Distinct (registry : Registry) : Prop :=
  (registry.tables.map (·.1)).Nodup

theorem distinct_empty : Distinct {} :=
  List.nodup_nil

theorem keys_cons (known : String) (keys : List String) (rest : List (String × List String))
    (table : String) :
    Registry.keys ⟨(known, keys) :: rest⟩ table =
      if known = table then keys else Registry.keys ⟨rest⟩ table := by
  by_cases h : known = table
  · simp [Registry.keys, h]
  · simp [Registry.keys, h]

/-- A table that is not listed has no keys. -/
theorem keys_eq_nil {tables : List (String × List String)} {table : String}
    (h : table ∉ tables.map (·.1)) : Registry.keys ⟨tables⟩ table = [] := by
  have hnone : tables.find? (·.1 == table) = none := by
    refine List.find?_eq_none.2 fun entry hmem heq => h ?_
    exact List.mem_map.2 ⟨entry, hmem, by simpa using heq⟩
  simp [Registry.keys, hnone]

/-! ## Registering -/

theorem mem_keys_insert (key table : String) (other name : String) :
    ∀ tables : List (String × List String),
      name ∈ Registry.keys ⟨insert key table tables⟩ other ↔
        name ∈ Registry.keys ⟨tables⟩ other ∨ name = key ∧ other = table
  | [] => by
      by_cases h : table = other
      · simp [insert, Registry.keys, h]
      · simp [insert, Registry.keys, h, Ne.symm h]
  | (known, keys) :: rest => by
      have ih := mem_keys_insert key table other name rest
      by_cases hknown : known = table
      · by_cases hother : known = other
        · by_cases hmem : key ∈ keys
          · have : name = key → name ∈ keys := fun h => h ▸ hmem
            simp only [insert, hknown, beq_self_eq_true, if_true, keys_cons, hknown ▸ hother]
            simpa [hmem] using this
          · simp [insert, hknown, keys_cons, hknown ▸ hother, hmem]
        · have hne : other ≠ table := fun h => hother (hknown.trans h.symm)
          simp [insert, hknown, keys_cons, hne, Ne.symm hne]
      · by_cases hother : known = other
        · have hne : other ≠ table := fun h => hknown (hother.trans h)
          simp [insert, keys_cons, hother, hne]
        · simp [insert, hknown, keys_cons, hother, ih]

theorem mem_tables_insert (key table name : String) :
    ∀ tables : List (String × List String),
      name ∈ (insert key table tables).map (·.1) ↔ name ∈ tables.map (·.1) ∨ name = table
  | [] => by simp [insert]
  | (known, keys) :: rest => by
      have ih := mem_tables_insert key table name rest
      by_cases h : known = table
      · simp only [insert, h, beq_self_eq_true, if_true, List.map_cons, List.mem_cons]
        tauto
      · simp only [insert, h, beq_iff_eq, if_false, List.map_cons, List.mem_cons, ih]
        tauto

theorem nodup_insert (key table : String) {tables : List (String × List String)}
    (h : (tables.map (·.1)).Nodup) : ((insert key table tables).map (·.1)).Nodup := by
  induction tables with
  | nil => simp [insert]
  | cons listed rest ih =>
      rcases listed with ⟨known, keys⟩
      have hparts := List.nodup_cons.1 h
      by_cases hknown : known = table
      · simpa [insert, hknown] using h
      · have hnot : known ∉ (insert key table rest).map (·.1) := by
          rw [mem_tables_insert]
          exact fun hmem => hmem.elim hparts.1 hknown
        have hrest := ih hparts.2
        simp only [insert, hknown, beq_iff_eq, if_false, List.map_cons]
        exact List.nodup_cons.2 ⟨hnot, hrest⟩

theorem register_cons (table : String) (tables : List String) (key : String)
    (registry : Registry) :
    registry.register (table :: tables) key =
      Registry.register tables key ⟨insert key table registry.tables⟩ := rfl

/-- Registering a key adds its pairs with the tables, and nothing else. -/
theorem mem_keys_register (key other name : String) (tables : List String) (registry : Registry) :
    name ∈ (registry.register tables key).keys other ↔
      name ∈ registry.keys other ∨ name = key ∧ other ∈ tables := by
  induction tables generalizing registry with
  | nil => simp [register]
  | cons table tables ih =>
      rw [register_cons, ih, mem_keys_insert]
      simp only [List.mem_cons]
      tauto

theorem Distinct.register (key : String) (tables : List String) {registry : Registry}
    (h : registry.Distinct) : (registry.register tables key).Distinct := by
  induction tables generalizing registry with
  | nil => exact h
  | cons table tables ih =>
      rw [register_cons]
      exact ih (nodup_insert key table h)

/-! ## Forgetting -/

/-- A table's keys that are left, and the table only where there are any. -/
theorem forget_cons (keys : List String) (known : String) (listed : List String)
    (rest : List (String × List String)) :
    forget keys ⟨(known, listed) :: rest⟩ =
      if (listed.filter (!keys.contains ·)).isEmpty then forget keys ⟨rest⟩
      else ⟨(known, listed.filter (!keys.contains ·)) :: (forget keys ⟨rest⟩).tables⟩ := by
  by_cases h : (listed.filter (!keys.contains ·)).isEmpty
  · simp only [forget, List.map_cons, List.filter_cons, h, Bool.not_true, Bool.false_eq_true,
      if_false, if_true]
  · simp only [forget, List.map_cons, List.filter_cons, h, Bool.not_false, if_true,
      Bool.false_eq_true, if_false]

theorem keys_forget (keys : List String) (table : String) {tables : List (String × List String)}
    (h : (tables.map (·.1)).Nodup) :
    (Registry.forget keys ⟨tables⟩).keys table =
      (Registry.keys ⟨tables⟩ table).filter (!keys.contains ·) := by
  induction tables with
  | nil => simp [forget, Registry.keys]
  | cons entry rest ih =>
      rcases entry with ⟨known, listed⟩
      have hparts := List.nodup_cons.1 h
      replace ih := ih hparts.2
      rw [forget_cons, keys_cons]
      by_cases hempty : (listed.filter (!keys.contains ·)).isEmpty
      · rw [if_pos hempty, ih]
        by_cases hknown : known = table
        · -- the table goes, and the rest does not list it again
          have hnil : Registry.keys ⟨rest⟩ table = [] := keys_eq_nil (hknown ▸ hparts.1)
          rw [hnil, if_pos hknown, List.isEmpty_iff.1 hempty, List.filter_nil]
        · rw [if_neg hknown]
      · rw [if_neg hempty, keys_cons]
        by_cases hknown : known = table
        · rw [if_pos hknown, if_pos hknown]
        · rw [if_neg hknown, if_neg hknown]
          exact ih

/-- Forgetting keys takes out all of their pairs, and nothing else. -/
theorem mem_keys_forget {registry : Registry} (h : registry.Distinct) (keys : List String)
    (table name : String) :
    name ∈ (registry.forget keys).keys table ↔ name ∈ registry.keys table ∧ name ∉ keys := by
  have hkeys := keys_forget keys table h
  rw [show registry.forget keys = Registry.forget keys ⟨registry.tables⟩ from rfl, hkeys]
  simp

theorem Distinct.forget {registry : Registry} (h : registry.Distinct) (keys : List String) :
    (registry.forget keys).Distinct := by
  have hsame : (registry.tables.map fun entry =>
      (entry.1, entry.2.filter (!keys.contains ·))).map (·.1) = registry.tables.map (·.1) := by
    simp
  have hsub := (List.filter_sublist
    (l := registry.tables.map fun entry => (entry.1, entry.2.filter (!keys.contains ·)))
    (p := fun entry => !entry.2.isEmpty)).map (·.1)
  rw [hsame] at hsub
  exact List.Nodup.sublist hsub h

/-! ## Looking up -/

/-- The keys of several tables are those registered for one of them. -/
theorem mem_keysFor {registry : Registry} {tables : List String} {name : String} :
    name ∈ registry.keysFor tables ↔ ∃ table ∈ tables, name ∈ registry.keys table := by
  simp [keysFor]

end FieldQuery.Cache.Registry
