import FieldQuery.Assembly
import FieldQuery.Proofs.Distinct
import FieldQuery.Proofs.Json.Equality

/-!
# Rows of one key

Gathering models from rows is grouping the rows by their keys and building a model of each group.
With a key each group has all the rows of its key, in their order, and the groups stand in the order
of their first rows; without one every row is a group of its own.

Main definitions:

- `RowGroup`, `groups`: the groups of a list of rows, which may be anything that has keys.
- `modelOf`: the model that is built of rows of one key.

Main statements: `grouped_groups`, `groups_map` and `perm_groups`, what the groups are; `gather_eq_groups`,
`gather_keyed` and `gather_keyless`, what the models are.
-/

namespace FieldQuery

variable {α β : Type}

/-- Rows of one key, in their order; rows without a key stand alone. -/
structure RowGroup (α : Type) where
  key : Option (List Json)
  first : α
  later : List α := []

namespace RowGroup

def rows (group : RowGroup α) : List α :=
  group.first :: group.later

def add (group : RowGroup α) (row : α) : RowGroup α :=
  { group with later := group.later ++ [row] }

def map (f : α → β) (group : RowGroup α) : RowGroup β :=
  { key := group.key, first := f group.first, later := group.later.map f }

theorem rows_ne_nil (group : RowGroup α) : group.rows ≠ [] :=
  List.cons_ne_nil _ _

@[simp] theorem key_add (group : RowGroup α) (row : α) : (group.add row).key = group.key := rfl

@[simp] theorem rows_add (group : RowGroup α) (row : α) :
    (group.add row).rows = group.rows ++ [row] := rfl

end RowGroup

/-- Takes a row to the group of its key, or to a group of its own. -/
def collect (key : Option (List Json)) (row : α) : List (RowGroup α) → List (RowGroup α)
  | [] => [⟨key, row, []⟩]
  | group :: rest =>
    if key.isSome && group.key == key then group.add row :: rest
    else group :: collect key row rest

/-- Rows in groups, in the order of the groups' first rows. -/
def groups (key : α → Option (List Json)) (rows : List α) : List (RowGroup α) :=
  rows.foldl (fun collected row => collect (key row) row collected) []

section Collecting

variable {key : Option (List Json)} {row : α} {collected : List (RowGroup α)}

theorem groups_concat (key : α → Option (List Json)) (rows : List α) (row : α) :
    groups key (rows ++ [row]) = collect (key row) row (groups key rows) := by
  simp [groups]

theorem collect_keyless (row : α) (collected : List (RowGroup α)) :
    collect none row collected = collected ++ [⟨none, row, []⟩] := by
  induction collected with
  | nil => rfl
  | cons group rest ih => simp [collect, ih]

theorem collect_new (h : ∀ group ∈ collected, group.key ≠ key) :
    collect key row collected = collected ++ [⟨key, row, []⟩] := by
  induction collected with
  | nil => rfl
  | cons group rest ih =>
      have hgroup : group.key ≠ key := h group List.mem_cons_self
      have hrest := ih fun other hmem => h other (List.mem_cons_of_mem group hmem)
      simp [collect, hgroup, hrest]

theorem collect_known {front back : List (RowGroup α)} {group : RowGroup α} {values : List Json}
    (hfront : ∀ other ∈ front, other.key ≠ some values) (hkey : group.key = some values) :
    collect (some values) row (front ++ group :: back) = front ++ group.add row :: back := by
  induction front with
  | nil => simp [collect, hkey]
  | cons other rest ih =>
      have hother : other.key ≠ some values := hfront other List.mem_cons_self
      have hrest := ih fun group hmem => hfront group (List.mem_cons_of_mem other hmem)
      simp [collect, hother, hrest]

theorem map_collect (f : α → β) (key : Option (List Json)) (row : α)
    (collected : List (RowGroup α)) :
    (collect key row collected).map (·.map f) = collect key (f row) (collected.map (·.map f)) := by
  induction collected with
  | nil => rfl
  | cons group rest ih =>
      by_cases hkey : (key.isSome && group.key == key) = true
      · simp [collect, RowGroup.map, RowGroup.add, hkey]
      · simpa [collect, RowGroup.map, hkey] using ih

end Collecting

/-- Grouping does not look at more of a row than its key. -/
theorem groups_map (f : α → β) (key : β → Option (List Json)) (rows : List α) :
    groups key (rows.map f) = (groups (key ∘ f) rows).map (·.map f) := by
  induction rows using List.reverseRecOn with
  | nil => rfl
  | append_singleton rows row ih =>
      rw [List.map_append, List.map_singleton, groups_concat, groups_concat, map_collect, ih]
      rfl

theorem groups_keyless (rows : List α) :
    groups (fun _ => none) rows = rows.map fun row => ⟨none, row, []⟩ := by
  induction rows using List.reverseRecOn with
  | nil => rfl
  | append_singleton rows row ih => rw [groups_concat, ih, collect_keyless, List.map_append]; rfl

theorem perm_collect (key : Option (List Json)) (row : α) (collected : List (RowGroup α)) :
    ((collect key row collected).flatMap (·.rows)).Perm (collected.flatMap (·.rows) ++ [row]) := by
  induction collected with
  | nil => exact .refl _
  | cons group rest ih =>
      by_cases hkey : (key.isSome && group.key == key) = true
      · have hbehind : ([row] ++ rest.flatMap (·.rows)).Perm (rest.flatMap (·.rows) ++ [row]) :=
          List.perm_append_comm
        simpa [collect, hkey] using hbehind.append_left group.rows
      · simpa [collect, hkey] using ih.append_left group.rows

/-- Each row is in a group, and in no other. -/
theorem perm_groups (key : α → Option (List Json)) (rows : List α) :
    ((groups key rows).flatMap (·.rows)).Perm rows := by
  induction rows using List.reverseRecOn with
  | nil => exact .refl _
  | append_singleton rows row ih =>
      rw [groups_concat]
      exact (perm_collect _ row _).trans (ih.append_right [row])

/-! ## Keys -/

/-- Groups that have, key by key, all rows of the key. -/
structure Grouped (key : α → List Json) (rows : List α) (collected : List (RowGroup α)) : Prop where
  keys : collected.map (·.key) = (rows.map key).eraseDups.map some
  rows : ∀ group ∈ collected, ∀ values, group.key = some values →
    group.rows = rows.filter (key · == values)

section Grouped

variable {key : α → List Json} {rows : List α} {collected : List (RowGroup α)}

theorem Grouped.nodup (h : Grouped key rows collected) : (collected.map (·.key)).Nodup := by
  rw [h.keys]
  exact List.Nodup.map (fun _ _ heq => Option.some.inj heq) (nodup_eraseDups _)

theorem Grouped.mem_keys (h : Grouped key rows collected) {values : List Json} :
    (∃ group ∈ collected, group.key = some values) ↔ values ∈ rows.map key := by
  have hkey : (∃ group ∈ collected, group.key = some values) ↔
      some values ∈ collected.map (·.key) := by simp
  rw [hkey, h.keys]
  simp

theorem Grouped.exists_key (h : Grouped key rows collected) {group : RowGroup α}
    (hmem : group ∈ collected) : ∃ values, group.key = some values := by
  have hkey : group.key ∈ (rows.map key).eraseDups.map some := h.keys ▸ List.mem_map_of_mem hmem
  obtain ⟨values, -, hvalues⟩ := List.mem_map.1 hkey
  exact ⟨values, hvalues.symm⟩

theorem filter_concat_self (row : α) :
    (rows ++ [row]).filter (key · == key row) = rows.filter (key · == key row) ++ [row] := by
  simp

/-- The groups of other keys have all their rows already. -/
theorem Grouped.rows_concat (h : Grouped key rows collected) {group : RowGroup α} {row : α}
    {values : List Json} (hmem : group ∈ collected) (hne : group.key ≠ some (key row))
    (hkey : group.key = some values) : group.rows = (rows ++ [row]).filter (key · == values) := by
  have hrow : key row ≠ values := by
    rintro rfl
    exact hne hkey
  calc
    group.rows = rows.filter (key · == values) := h.rows group hmem values hkey
    _ = (rows ++ [row]).filter (key · == values) := by simp [hrow]

theorem Grouped.collect_known (h : Grouped key rows collected) {row : α}
    (hknown : key row ∈ rows.map key) :
    Grouped key (rows ++ [row]) (collect (some (key row)) row collected) := by
  obtain ⟨group, hmem, hkey⟩ := h.mem_keys.2 hknown
  obtain ⟨front, back, rfl⟩ := List.append_of_mem hmem
  -- no other group has this key
  have hnodup := h.nodup
  rw [List.map_append, List.map_cons, List.nodup_append, List.nodup_cons] at hnodup
  have hfront : ∀ other ∈ front, other.key ≠ some (key row) := by
    intro other hother
    have hne := hnodup.2.2 other.key (List.mem_map_of_mem hother) group.key List.mem_cons_self
    rwa [hkey] at hne
  have hback : ∀ other ∈ back, other.key ≠ some (key row) := by
    intro other hother heq
    exact hnodup.2.1.1 (List.mem_map.2 ⟨other, hother, heq.trans hkey.symm⟩)
  rw [FieldQuery.collect_known hfront hkey]
  constructor
  case keys =>
    have hsame : (rows.map key ++ [key row]).eraseDups = (rows.map key).eraseDups := by
      rw [eraseDups_concat, if_pos (List.contains_iff_mem.2 hknown)]
    simpa [hsame] using h.keys
  case rows =>
    intro other hother values hvalues
    simp only [List.mem_append, List.mem_cons] at hother
    rcases hother with hin | rfl | hin
    · exact h.rows_concat (List.mem_append_left _ hin) (hfront other hin) hvalues
    · obtain rfl : key row = values := Option.some.inj (hkey.symm.trans hvalues)
      rw [RowGroup.rows_add, filter_concat_self, h.rows group hmem (key row) hkey]
    · exact h.rows_concat (List.mem_append_right _ (List.mem_cons_of_mem _ hin))
        (hback other hin) hvalues

theorem Grouped.collect_new (h : Grouped key rows collected) {row : α}
    (hnew : key row ∉ rows.map key) :
    Grouped key (rows ++ [row]) (collect (some (key row)) row collected) := by
  have hothers : ∀ group ∈ collected, group.key ≠ some (key row) :=
    fun group hmem hkey => hnew (h.mem_keys.1 ⟨group, hmem, hkey⟩)
  rw [FieldQuery.collect_new hothers]
  constructor
  case keys =>
    have hmore : (rows.map key ++ [key row]).eraseDups = (rows.map key).eraseDups ++ [key row] := by
      rw [eraseDups_concat, if_neg fun hin => hnew (List.contains_iff_mem.1 hin)]
    simp only [List.map_append, List.map_singleton, hmore, h.keys]
  case rows =>
    intro other hother values hvalues
    rcases List.mem_append.1 hother with hin | hin
    · exact h.rows_concat hin (hothers other hin) hvalues
    · obtain rfl := List.mem_singleton.1 hin
      obtain rfl : key row = values := Option.some.inj hvalues
      have hnone : rows.filter (key · == key row) = [] := by
        refine List.filter_eq_nil_iff.2 fun other hmem heq => hnew ?_
        exact List.mem_map.2 ⟨other, hmem, beq_iff_eq.1 heq⟩
      rw [filter_concat_self, hnone]
      rfl

theorem grouped_groups (key : α → List Json) (rows : List α) :
    Grouped key rows (groups (fun row => some (key row)) rows) := by
  induction rows using List.reverseRecOn with
  | nil => exact ⟨rfl, fun _ h => nomatch h⟩
  | append_singleton rows row ih =>
      rw [groups_concat]
      by_cases hknown : key row ∈ rows.map key
      · exact ih.collect_known hknown
      · exact ih.collect_new hknown

end Grouped

/-! ## Models -/

section Models

variable (entries : List Entry) (fresh : Json)

/-- The model of rows of one key: the first one's, with the related models of the later ones. -/
def modelOf : List Record → Json
  | [] => fresh
  | first :: later => (later.map (assemble entries fresh)).foldl (mergeRow (listPaths entries))
      (assemble entries fresh first)

theorem modelOf_append {records : List Record} (hne : records ≠ []) (later : List Record) :
    modelOf entries fresh (records ++ later) =
      (later.map (assemble entries fresh)).foldl (mergeRow (listPaths entries))
        (modelOf entries fresh records) := by
  cases records with
  | nil => exact absurd rfl hne
  | cons first rest => simp [modelOf]

theorem modelOf_concat {records : List Record} (hne : records ≠ []) (last : Record) :
    modelOf entries fresh (records ++ [last]) =
      mergeRow (listPaths entries) (modelOf entries fresh records)
        (assemble entries fresh last) :=
  modelOf_append entries fresh hne [last]

theorem addRow_groups (key : Option (List Json)) (record : Record)
    (collected : List (RowGroup Record)) :
    addRow (listPaths entries) key (assemble entries fresh record)
        (collected.map fun group => (group.key, modelOf entries fresh group.rows)) =
      (collect key record collected).map
        fun group => (group.key, modelOf entries fresh group.rows) := by
  induction collected with
  | nil => rfl
  | cons group rest ih =>
      by_cases hkey : (key.isSome && group.key == key) = true
      · simp [addRow, collect, hkey, modelOf_concat, group.rows_ne_nil]
      · simpa [addRow, collect, hkey] using ih

/-- The models of a list of rows are those of its groups. -/
theorem gather_eq_groups (records : List Record) :
    gather entries fresh records =
      (groups (rowKey? (keyAliases entries)) records).map
        fun group => modelOf entries fresh group.rows := by
  have hstate : records.foldl (fun gathered record =>
      addRow (listPaths entries) (rowKey? (keyAliases entries) record)
        (assemble entries fresh record) gathered) [] =
      (groups (rowKey? (keyAliases entries)) records).map
        fun group => (group.key, modelOf entries fresh group.rows) := by
    induction records using List.reverseRecOn with
    | nil => rfl
    | append_singleton records record ih =>
        rw [List.foldl_append, ih, groups_concat]
        exact addRow_groups entries fresh _ record _
  simp [gather, hstate]

/-- A row's values under the aliases of a key; a missing one is null. -/
def rowKey (aliases : List String) (record : Record) : List Json :=
  aliases.map fun label => (record.get? label).getD .null

theorem rowKey?_of_ne {aliases : List String} (h : aliases ≠ []) :
    rowKey? aliases = fun record => some (rowKey aliases record) := by
  funext record
  simp [rowKey?, rowKey, h]

/-- Without a key every row is a model of its own. -/
theorem gather_keyless (h : keyAliases entries = []) (records : List Record) :
    gather entries fresh records = records.map (assemble entries fresh) := by
  have hkey : rowKey? (keyAliases entries) = fun _ => none := by
    rw [h]
    rfl
  rw [gather_eq_groups, hkey, groups_keyless, List.map_map]
  rfl

/-- With a key there is one model for each tuple of its values, of all rows that have them. -/
theorem gather_keyed (h : keyAliases entries ≠ []) (records : List Record) :
    gather entries fresh records =
      (records.map (rowKey (keyAliases entries))).eraseDups.map fun values =>
        modelOf entries fresh (records.filter (rowKey (keyAliases entries) · == values)) := by
  have hgrouped := grouped_groups (rowKey (keyAliases entries)) records
  have hmodel : ∀ group ∈ groups (fun row => some (rowKey (keyAliases entries) row)) records,
      modelOf entries fresh group.rows = modelOf entries fresh
        (records.filter (rowKey (keyAliases entries) · == group.key.getD [])) := by
    intro group hmem
    obtain ⟨values, hvalues⟩ := hgrouped.exists_key hmem
    rw [hgrouped.rows group hmem values hvalues, hvalues, Option.getD_some]
  calc
    gather entries fresh records
        = (groups (fun row => some (rowKey (keyAliases entries) row)) records).map
            fun group => modelOf entries fresh group.rows := by
          rw [gather_eq_groups, rowKey?_of_ne h]
    _ = ((groups (fun row => some (rowKey (keyAliases entries) row)) records).map (·.key)).map
          fun key => modelOf entries fresh
            (records.filter (rowKey (keyAliases entries) · == key.getD [])) := by
          rw [List.map_map]
          exact List.map_congr_left hmodel
    _ = _ := by
          rw [hgrouped.keys, List.map_map]
          rfl

end Models

end FieldQuery
