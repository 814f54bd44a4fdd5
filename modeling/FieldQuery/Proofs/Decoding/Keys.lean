import FieldQuery.Proofs.Decoding.Groups
import FieldQuery.Proofs.Plan.Entries

/-!
# Whose rows become one model

Rows become one model if they agree on every primary key of the root that is selected.  That is
the whole primary key only if all of its columns are selected: a plan that selects a part of a
composite key makes one model of the rows of different records.

Main definitions:

- `Plan.origins`: for each model the positions of the records that it is made of.
- `Plan.Collapses`: the records at two positions become one model.
- `Entry.StandsFor`, `Plan.SameKey`: a column of the root is selected, and rows agree on the root's
  whole primary key.

Main statement: `Plan.collapses_iff`.
-/

namespace FieldQuery

/-- An entry is that of a column of the primary target itself. -/
structure Entry.StandsFor (entry : Entry) (column : Column) (token : Token) : Prop where
  token : entry.token = token
  column : entry.column = column
  parent : entry.parent = none

namespace Plan

/-- The records that each model is made of, by their positions. -/
def origins (plan : Plan) (records : List Record) : List (List Nat) :=
  (groups (fun row => rowKey? (keyAliases plan.columns.selected) row.1) records.zipIdx).map
    fun group => group.rows.map (·.2)

/-- The records at two positions become one model. -/
def Collapses (plan : Plan) (records : List Record) (i j : Nat) : Prop :=
  ∃ positions ∈ plan.origins records, i ∈ positions ∧ j ∈ positions

/-- Every primary key of a target is selected. -/
def SelectsKey (plan : Plan) (root : ModelTarget) : Prop :=
  ∀ column token, (column, token) ∈ root.table.columns.zip root.tokens → column.primaryKey = true →
    ∃ entry ∈ plan.columns.selected, entry.StandsFor column token

/-- Every primary key of a target is selected, and two records agree on all of them. -/
def SameKey (plan : Plan) (root : ModelTarget) (a b : Record) : Prop :=
  ∀ column token, (column, token) ∈ root.table.columns.zip root.tokens → column.primaryKey = true →
    ∃ entry ∈ plan.columns.selected, entry.StandsFor column token ∧
      (a.get? entry.label).getD .null = (b.get? entry.label).getD .null

section Collapsing

variable (plan : Plan) {records : List Record}

theorem perm_origins (records : List Record) :
    (plan.origins records).flatten.Perm (List.range records.length) := by
  have hpositions : (plan.origins records).flatten =
      ((groups (fun row => rowKey? (keyAliases plan.columns.selected) row.1)
        records.zipIdx).flatMap (·.rows)).map (·.2) := by
    simp only [origins, List.flatMap_def, List.map_flatten, List.map_map]
    rfl
  have hrange : records.zipIdx.map (·.2) = List.range records.length := by
    rw [List.zipIdx_map_snd, List.range_eq_range']
  rw [hpositions, ← hrange]
  exact (perm_groups _ _).map _

/-- The models are made of the records at their positions. -/
theorem gather_eq_origins (records : List Record) :
    gather plan.columns.selected plan.model.default records =
      (plan.origins records).map fun positions =>
        modelOf plan.columns.selected plan.model.default
          (positions.filterMap (records[·]?)) := by
  have hrecords : records = records.zipIdx.map (·.1) := (List.zipIdx_map_fst 0 records).symm
  have hfound : ∀ group ∈ groups (fun row => rowKey? (keyAliases plan.columns.selected) row.1)
      records.zipIdx, (group.rows.map (·.2)).filterMap (records[·]?) = group.rows.map (·.1) := by
    intro group hgroup
    have hrow : ∀ row ∈ group.rows, records[row.2]? = some row.1 := by
      intro row hrow
      have hmem : row ∈ records.zipIdx :=
        (perm_groups _ _).subset (List.mem_flatMap.2 ⟨group, hgroup, hrow⟩)
      exact List.mk_mem_zipIdx_iff_getElem?.1 hmem
    rw [List.filterMap_map]
    exact List.filterMap_eq_map_iff_forall_eq_some.2 hrow
  calc
    gather plan.columns.selected plan.model.default records
        = (groups (rowKey? (keyAliases plan.columns.selected)) (records.zipIdx.map (·.1))).map
            fun group => modelOf plan.columns.selected plan.model.default group.rows := by
          rw [gather_eq_groups, ← hrecords]
    _ = (groups (fun row => rowKey? (keyAliases plan.columns.selected) row.1) records.zipIdx).map
          fun group => modelOf plan.columns.selected plan.model.default
            (group.rows.map (·.1)) := by
          rw [groups_map, List.map_map]
          rfl
    _ = _ := by
          rw [origins, List.map_map]
          exact (List.map_congr_left fun group hgroup => congrArg _ (hfound group hgroup)).symm

variable {plan} {i j : Nat} {a b : Record}

theorem not_collapses_keyless (h : keyAliases plan.columns.selected = []) (hij : i ≠ j) :
    ¬ plan.Collapses records i j := by
  rintro ⟨positions, hmem, hi, hj⟩
  have hkey : (fun row : Record × Nat => rowKey? (keyAliases plan.columns.selected) row.1) =
      fun _ => none := by
    rw [h]
    rfl
  rw [origins, hkey, groups_keyless, List.map_map] at hmem
  obtain ⟨row, -, rfl⟩ := List.mem_map.1 hmem
  exact hij ((List.mem_singleton.1 hi).trans (List.mem_singleton.1 hj).symm)

/-- A group has the positions of all records of its key. -/
theorem mem_positions {key : Record → List Json} {collected : List (RowGroup (Record × Nat))}
    (h : Grouped (fun row => key row.1) records.zipIdx collected) {group : RowGroup (Record × Nat)}
    {values : List Json} (hgroup : group ∈ collected) (hvalues : group.key = some values)
    (ha : records[i]? = some a) : i ∈ group.rows.map (·.2) ↔ key a = values := by
  rw [h.rows group hgroup values hvalues]
  simp only [List.mem_map, List.mem_filter, beq_iff_eq]
  constructor
  · rintro ⟨⟨other, place⟩, ⟨hmem, hother⟩, rfl⟩
    have hsame : records[place]? = some other := List.mk_mem_zipIdx_iff_getElem?.1 hmem
    obtain rfl : a = other := Option.some.inj (ha.symm.trans hsame)
    exact hother
  · intro hkey
    exact ⟨(a, i), ⟨List.mk_mem_zipIdx_iff_getElem?.2 ha, hkey⟩, rfl⟩

theorem collapses_keyed (h : keyAliases plan.columns.selected ≠ [])
    (ha : records[i]? = some a) (hb : records[j]? = some b) :
    plan.Collapses records i j ↔
      rowKey (keyAliases plan.columns.selected) a = rowKey (keyAliases plan.columns.selected) b := by
  have hgrouped := grouped_groups
    (fun row : Record × Nat => rowKey (keyAliases plan.columns.selected) row.1) records.zipIdx
  have horigins : plan.origins records =
      (groups (fun row => some (rowKey (keyAliases plan.columns.selected) row.1))
        records.zipIdx).map fun group => group.rows.map (·.2) := by
    rw [origins, rowKey?_of_ne h]
  constructor
  · rintro ⟨positions, hmem, hi, hj⟩
    rw [horigins] at hmem
    obtain ⟨group, hgroup, rfl⟩ := List.mem_map.1 hmem
    obtain ⟨values, hvalues⟩ := hgrouped.exists_key hgroup
    calc
      rowKey (keyAliases plan.columns.selected) a = values :=
        (mem_positions hgrouped hgroup hvalues ha).1 hi
      _ = rowKey (keyAliases plan.columns.selected) b :=
        ((mem_positions hgrouped hgroup hvalues hb).1 hj).symm
  · intro hsame
    have hmem : (a, i) ∈ records.zipIdx := List.mk_mem_zipIdx_iff_getElem?.2 ha
    obtain ⟨group, hgroup, hvalues⟩ := hgrouped.mem_keys.2 (List.mem_map_of_mem hmem)
    refine ⟨group.rows.map (·.2), ?_, ?_, ?_⟩
    · rw [horigins]
      exact List.mem_map_of_mem hgroup
    · exact (mem_positions hgrouped hgroup hvalues ha).2 rfl
    · exact (mem_positions hgrouped hgroup hvalues hb).2 hsame.symm

/-- Records of two positions become one model if and only if a primary key of the root is selected
and they agree on all that are. -/
theorem collapses_iff_rowKey (hij : i ≠ j) (ha : records[i]? = some a) (hb : records[j]? = some b) :
    plan.Collapses records i j ↔ keyAliases plan.columns.selected ≠ [] ∧
      rowKey (keyAliases plan.columns.selected) a = rowKey (keyAliases plan.columns.selected) b := by
  by_cases h : keyAliases plan.columns.selected = []
  · simp [h, not_collapses_keyless h hij]
  · simp [h, collapses_keyed h ha hb]

theorem rowKey_eq_iff {aliases : List String} :
    rowKey aliases a = rowKey aliases b ↔
      ∀ label ∈ aliases, (a.get? label).getD .null = (b.get? label).getD .null := by
  simp [rowKey]

theorem SelectsKey.sameKey {root : ModelTarget} (h : plan.SelectsKey root)
    (hsame : rowKey (keyAliases plan.columns.selected) a =
      rowKey (keyAliases plan.columns.selected) b) : plan.SameKey root a b := by
  intro column token hmem hprimary
  obtain ⟨entry, hentry, hstands⟩ := h column token hmem hprimary
  have hlabel : entry.label ∈ keyAliases plan.columns.selected := by
    simp only [keyAliases, List.mem_map, List.mem_filter]
    exact ⟨entry, ⟨hentry, by simp [hstands.parent, hstands.column, hprimary]⟩, rfl⟩
  exact ⟨entry, hentry, hstands, rowKey_eq_iff.1 hsame entry.label hlabel⟩

theorem SameKey.selectsKey {root : ModelTarget} (h : plan.SameKey root a b) :
    plan.SelectsKey root := by
  intro column token hmem hprimary
  obtain ⟨entry, hentry, hstands, -⟩ := h column token hmem hprimary
  exact ⟨entry, hentry, hstands⟩

end Collapsing

/-- The models of a list of records are made of one or more records each, and each record is in one
of them.  Two records are in the same model if and only if some primary key of the root is selected
and the records agree on all the selected ones.  So a plan keeps the records of different keys apart
if and only if it selects the whole primary key or nothing of it. -/
theorem collapses_iff (plan : Plan) (root : ModelTarget) :
    (∀ records, (plan.origins records).flatten.Perm (List.range records.length) ∧
      gather plan.columns.selected plan.model.default records =
        (plan.origins records).map fun positions =>
          modelOf plan.columns.selected plan.model.default
            (positions.filterMap (records[·]?))) ∧
      (∀ records i j a b, i ≠ j → records[i]? = some a → records[j]? = some b →
        (plan.Collapses records i j ↔ keyAliases plan.columns.selected ≠ [] ∧
          ∀ label ∈ keyAliases plan.columns.selected,
            (a.get? label).getD .null = (b.get? label).getD .null)) ∧
      ((∀ records i j a b, i ≠ j → records[i]? = some a → records[j]? = some b →
        plan.Collapses records i j → plan.SameKey root a b) ↔
          keyAliases plan.columns.selected = [] ∨ plan.SelectsKey root) := by
  refine ⟨fun records => ⟨plan.perm_origins records, plan.gather_eq_origins records⟩, ?_, ?_⟩
  · intro records i j a b hij ha hb
    rw [collapses_iff_rowKey hij ha hb, rowKey_eq_iff]
  · constructor
    · intro hlaw
      by_cases h : keyAliases plan.columns.selected = []
      · exact .inl h
      · -- rows without any column agree on whatever is selected
        have htwice : plan.Collapses [⟨[]⟩, ⟨[]⟩] 0 1 :=
          (collapses_iff_rowKey Nat.zero_ne_one rfl rfl).2 ⟨h, rfl⟩
        exact .inr (hlaw _ 0 1 _ _ Nat.zero_ne_one rfl rfl htwice).selectsKey
    · intro hselected records i j a b hij ha hb hcollapses
      obtain ⟨hkeys, hsame⟩ := (collapses_iff_rowKey hij ha hb).1 hcollapses
      rcases hselected with hnone | hall
      · exact absurd hnone hkeys
      · exact hall.sameKey hsame

end Plan

namespace Memberships

def team : Column :=
  { name := "team_id", field := "team_id", primaryKey := true }

def player : Column :=
  { name := "player_id", field := "player_id", primaryKey := true }

def role : Column :=
  { name := "role", field := "role" }

def catalog : Catalog :=
  ⟨[{ name := "memberships", columns := [team, player, role] }]⟩

def root : ModelTarget :=
  (({} : Forest).plant catalog 0).1.target catalog

def start : Query :=
  .start .postgres catalog false [] (.model root)

/-- Teams and roles, without the players. -/
def narrowed : Query :=
  ⟨.selecting, start.plan.apply (.fields [⟨2⟩, ⟨4⟩])⟩

def captain : Record :=
  ⟨[("team_id", .ofInt 1), ("role", .str "captain")]⟩

def keeper : Record :=
  ⟨[("team_id", .ofInt 1), ("role", .str "keeper")]⟩

theorem selectsKey_start : start.plan.SelectsKey root := by
  intro column token hmem hprimary
  have hzip : root.table.columns.zip root.tokens =
      [(team, ⟨2⟩), (player, ⟨3⟩), (role, ⟨4⟩)] := rfl
  simp only [hzip, List.mem_cons, Prod.mk.injEq, List.not_mem_nil, or_false] at hmem
  rcases hmem with ⟨rfl, rfl⟩ | ⟨rfl, rfl⟩ | ⟨rfl, rfl⟩
  · exact ⟨_, List.mem_cons_self, rfl, rfl, rfl⟩
  · exact ⟨_, List.mem_cons_of_mem _ List.mem_cons_self, rfl, rfl, rfl⟩
  · cases hprimary

/-- With the players' keys selected, memberships are kept apart.  Without them, two players of one
team become one model, and one of their roles is gone. -/
theorem collapses_iff_narrowed :
    (∀ records i j a b, i ≠ j → records[i]? = some a → records[j]? = some b →
        start.plan.Collapses records i j → start.plan.SameKey root a b) ∧
      start.call? (.fields [⟨2⟩, ⟨4⟩]) = some narrowed ∧ narrowed.plan.errors = [] ∧
      narrowed.plan.Collapses [captain, keeper] 0 1 ∧
      ¬ narrowed.plan.SameKey root captain keeper := by
  have hunselected : ∀ entry ∈ narrowed.plan.columns.selected, entry.token ≠ ⟨3⟩ := by decide
  have hkeys : keyAliases narrowed.plan.columns.selected = ["team_id"] := rfl
  refine ⟨(start.plan.collapses_iff root).2.2.2 (.inr selectsKey_start), rfl, rfl, ?_, ?_⟩
  · refine ((narrowed.plan.collapses_iff root).2.1 [captain, keeper] 0 1 captain keeper
      Nat.zero_ne_one rfl rfl).2 ⟨hkeys ▸ List.cons_ne_nil _ _, ?_⟩
    intro label hlabel
    obtain rfl : label = "team_id" := by simpa [hkeys] using hlabel
    rfl
  · intro hsame
    have hplayer : (player, (⟨3⟩ : Token)) ∈ root.table.columns.zip root.tokens := by decide
    obtain ⟨entry, hentry, hstands⟩ := hsame.selectsKey player ⟨3⟩ hplayer rfl
    exact hunselected entry hentry hstands.token

end Memberships

end FieldQuery
