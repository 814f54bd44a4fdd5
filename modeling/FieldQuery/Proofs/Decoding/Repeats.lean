import FieldQuery.Proofs.Decoding.Groups
import FieldQuery.Proofs.Decoding.Merging
import FieldQuery.Proofs.Plan.Links

/-!
# Repeated rows

With a selected key a row that comes a second time changes nothing: the model of its key absorbs
it, since the row has been merged into that model, or has started it, and what was merged later took
nothing away.

Main statements: `absorbsRow_modelOf`, `gather_repeated`, `Plan.decode_repeated`.
-/

namespace FieldQuery

section Repeats

variable (entries : List Entry) (fresh : Json) {record : Record} {records : List Record}

/-- A model absorbs each of its rows. -/
theorem absorbsRow_modelOf (h : record ∈ records) :
    AbsorbsRow (listPaths entries) (assemble entries fresh record)
      (modelOf entries fresh records) := by
  have hpaths : ∀ p ∈ listPaths entries, p ≠ [] := fun _ hp => ne_nil_of_mem_listPaths hp
  induction records using List.reverseRecOn with
  | nil => cases h
  | append_singleton records last ih =>
      by_cases hne : records = []
      · -- the row that starts the model
        obtain rfl : record = last := by simpa [hne] using h
        rw [hne]
        exact absorbsRow_assemble entries fresh record
      · rw [modelOf_append entries fresh hne]
        rcases List.mem_append.1 h with hearlier | hlast
        · exact (ih hearlier).mergeRow hpaths _
        · obtain rfl := List.mem_singleton.1 hlast
          exact absorbsRow_mergeRow hpaths _ _

theorem modelOf_repeated (h : record ∈ records) (later : List Record) :
    modelOf entries fresh (records ++ record :: later) =
      modelOf entries fresh (records ++ later) := by
  have hne : records ≠ [] := List.ne_nil_of_mem h
  have habsorbed : mergeRow (listPaths entries) (modelOf entries fresh records)
      (assemble entries fresh record) = modelOf entries fresh records :=
    (absorbsRow_modelOf entries fresh h).mergeRow_eq
  rw [modelOf_append entries fresh hne, modelOf_append entries fresh hne, List.map_cons,
    List.foldl_cons, habsorbed]

/-- A row that is repeated later is not seen. -/
theorem gather_repeated (hkeys : keyAliases entries ≠ []) (h : record ∈ records)
    (later : List Record) :
    gather entries fresh (records ++ record :: later) = gather entries fresh (records ++ later) := by
  have hkey : rowKey (keyAliases entries) record ∈ records.map (rowKey (keyAliases entries)) :=
    List.mem_map_of_mem h
  rw [gather_keyed entries fresh hkeys, gather_keyed entries fresh hkeys, List.map_append,
    List.map_cons, eraseDups_repeated hkey, ← List.map_append]
  refine List.map_congr_left fun values _ => ?_
  by_cases hvalues : rowKey (keyAliases entries) record = values
  · -- the rows of the repeated key, where the row itself is among the earlier ones
    have hmem : record ∈ records.filter (rowKey (keyAliases entries) · == values) :=
      List.mem_filter.2 ⟨h, beq_iff_eq.2 hvalues⟩
    simpa [hvalues] using modelOf_repeated entries fresh hmem
      (later.filter (rowKey (keyAliases entries) · == values))
  · simp [hvalues]

theorem gather_repeats (hkeys : keyAliases entries ≠ []) {again : List Record}
    (h : ∀ record ∈ again, record ∈ records) :
    gather entries fresh (records ++ again) = gather entries fresh records := by
  induction again with
  | nil => rw [List.append_nil]
  | cons record rest ih =>
      rw [gather_repeated entries fresh hkeys (h record List.mem_cons_self)]
      exact ih fun other hmem => h other (List.mem_cons_of_mem record hmem)

end Repeats

/-- Where a primary key of the root is selected, a row that comes again changes nothing of what the
rows are decoded to, models or error; so rows that all come twice are decoded as if they came
once. -/
theorem Plan.decode_repeated (plan : Plan)
    (hkey : ∃ entry ∈ plan.columns.selected, entry.parent = none ∧ entry.column.primaryKey = true) :
    (∀ front between back : List Record, ∀ record,
      plan.decode (front ++ record :: between ++ record :: back) =
        plan.decode (front ++ record :: between ++ back)) ∧
      ∀ records, plan.decode (records ++ records) = plan.decode records := by
  have hkeys : keyAliases plan.columns.selected ≠ [] := by
    obtain ⟨entry, hmem, hroot, hprimary⟩ := hkey
    refine List.ne_nil_of_mem (a := entry.label) ?_
    simp only [keyAliases, List.mem_map, List.mem_filter]
    exact ⟨entry, ⟨hmem, by simp [hroot, hprimary]⟩, rfl⟩
  constructor
  · intro front between back record
    have hmem : record ∈ front ++ record :: between := by simp
    simp only [Plan.decode, gather_repeated _ _ hkeys hmem]
  · intro records
    simp only [Plan.decode, gather_repeats _ _ hkeys fun record hmem => hmem]

namespace Squads

def kim : Record :=
  ⟨[("id", .ofInt 1), ("players_id", .ofInt 7)]⟩

def alex : Record :=
  ⟨[("id", .ofInt 1), ("players_id", .ofInt 8)]⟩

/-- The team with its players is one model, whether a player's row comes once or twice. -/
theorem decode_repeated_listed :
    listed.plan.decode [kim, alex, kim] = listed.plan.decode [kim, alex] := by
  have hkey : ∃ entry ∈ listed.plan.columns.selected,
      entry.parent = none ∧ entry.column.primaryKey = true :=
    ⟨_, List.mem_cons_self, rfl, rfl⟩
  exact (listed.plan.decode_repeated hkey).1 [] [alex] [] kim

end Squads

end FieldQuery
