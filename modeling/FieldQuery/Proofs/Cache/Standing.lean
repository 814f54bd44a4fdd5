import FieldQuery.Proofs.Cache.Loss
import FieldQuery.Proofs.Distinct

/-!
# What stands in the registry

A key stands against a table when it was registered for it and has not been dropped since, through
whichever table.  The registry holds just that, whatever else happened to the cache meanwhile:
looking up gives the standing keys of the tables, and dropping takes out those and no others.  The
removal is queued where a command can be queued at all.

Main definitions:

- `Standing`: what stands behind registrations and drops.
- `QueryCache.Kept`: caches with what was registered and dropped.

Main statement: `QueryCache.Kept.registry_exact`.
-/

namespace FieldQuery.Cache

/-! ## What stands -/

/-- What becomes of the registry. -/
inductive Note
  | registered (tables : List String) (key : String)
  | dropped (tables : List String)
  deriving DecidableEq, Repr

/-- A key was registered for a table and not dropped since; the last of the notes comes first. -/
def Standing : List Note → String → String → Prop
  | [], _, _ => False
  | .registered tables name :: earlier, table, key =>
    Standing earlier table key ∨ key = name ∧ table ∈ tables
  | .dropped tables :: earlier, table, key =>
    Standing earlier table key ∧ ¬∃ dropped ∈ tables, Standing earlier dropped key

namespace Registry

variable {registry : Registry} {notes : List Note}

/-- Every table that is kept has a key. -/
def Populated (registry : Registry) : Prop :=
  ∀ entry ∈ registry.tables, entry.2 ≠ []

theorem populated_insert (key table : String) {tables : List (String × List String)}
    (h : Populated ⟨tables⟩) : Populated ⟨insert key table tables⟩ := by
  induction tables with
  | nil => simp [Populated, insert]
  | cons entry rest ih =>
      rcases entry with ⟨known, keys⟩
      have hkeys : keys ≠ [] := h _ List.mem_cons_self
      have hrest : Populated ⟨rest⟩ := fun entry hentry => h entry (List.mem_cons_of_mem _ hentry)
      unfold insert
      -- the key is added to its table, or the table is looked for among the others
      split
      · intro entry hentry
        rcases List.mem_cons.1 hentry with rfl | hentry
        · show (if keys.contains key then keys else keys ++ [key]) ≠ []
          split
          · exact hkeys
          · simp
        · exact hrest entry hentry
      · intro entry hentry
        rcases List.mem_cons.1 hentry with rfl | hentry
        · exact hkeys
        · exact ih hrest entry hentry

theorem Populated.register (h : registry.Populated) (tables : List String) (key : String) :
    (registry.register tables key).Populated := by
  induction tables generalizing registry with
  | nil => exact h
  | cons table tables ih =>
      rw [register_cons]
      exact ih (populated_insert key table h)

/-- Tables that lose their last key go. -/
theorem populated_forget (keys : List String) (registry : Registry) :
    (registry.forget keys).Populated := by
  intro entry hentry
  simpa using (List.mem_filter.1 hentry).2

theorem Populated.isEmpty_iff (h : registry.Populated) :
    registry.isEmpty = true ↔ ∀ table key, key ∉ registry.keys table := by
  rcases registry with ⟨tables⟩
  cases tables with
  | nil => simp [isEmpty, Registry.keys]
  | cons entry rest =>
      rcases entry with ⟨known, keys⟩
      -- the first table has a key, and nothing in front of it hides it
      rcases List.exists_mem_of_ne_nil keys (h _ List.mem_cons_self) with ⟨key, hkey⟩
      have hknown : key ∈ Registry.keys ⟨(known, keys) :: rest⟩ known := by
        rwa [keys_cons, if_pos rfl]
      constructor
      · intro hempty
        cases hempty
      · intro hnone
        exact (hnone known key hknown).elim

/-- A registry holds what stands. -/
structure Shows (registry : Registry) (notes : List Note) : Prop where
  distinct : registry.Distinct
  populated : registry.Populated
  mem_keys : ∀ table key, key ∈ registry.keys table ↔ Standing notes table key

namespace Shows

theorem empty : Shows {} [] where
  distinct := distinct_empty
  populated := fun _ hentry => by cases hentry
  mem_keys := fun _ _ => by simp [Registry.keys, Standing]

theorem register (h : registry.Shows notes) (tables : List String) (key : String) :
    (registry.register tables key).Shows (.registered tables key :: notes) where
  distinct := h.distinct.register key tables
  populated := h.populated.register tables key
  mem_keys := fun table name => by rw [mem_keys_register, h.mem_keys, Standing]

theorem mem_keysFor (h : registry.Shows notes) (tables : List String) (key : String) :
    key ∈ registry.keysFor tables ↔ ∃ table ∈ tables, Standing notes table key := by
  simp only [Registry.mem_keysFor, h.mem_keys]

theorem drop (h : registry.Shows notes) (tables : List String) :
    (registry.forget (registry.keysFor tables)).Shows (.dropped tables :: notes) where
  distinct := h.distinct.forget _
  populated := populated_forget _ registry
  mem_keys := fun table key => by
    rw [mem_keys_forget h.distinct, h.mem_keys, h.mem_keysFor, Standing]

/-- Where no key stands against the tables, dropping them changes nothing. -/
theorem drop_none (h : registry.Shows notes) {tables : List String}
    (hnone : registry.keysFor tables = []) : registry.Shows (.dropped tables :: notes) where
  distinct := h.distinct
  populated := h.populated
  mem_keys := fun table key => by
    have hkey : ¬∃ dropped ∈ tables, Standing notes dropped key := by
      rw [← h.mem_keysFor, hnone]
      exact List.not_mem_nil
    rw [h.mem_keys, Standing]
    exact (and_iff_left hkey).symm

theorem isEmpty_iff (h : registry.Shows notes) :
    registry.isEmpty = true ↔ ∀ table key, ¬Standing notes table key := by
  simp only [h.populated.isEmpty_iff, h.mem_keys]

end Shows

end Registry

/-! ## Asking for a removal -/

namespace QueryCache

section Asking

variable {β : Type}

theorem registry_dropEntries (runtime : Bool) (tables : List String) (cache : QueryCache β) :
    (cache.dropEntries runtime tables).1.registry =
      if cache.registry.keysFor tables = [] then cache.registry
      else cache.registry.forget (cache.registry.keysFor tables) := by
  rw [dropEntries_eq]
  split
  · rfl
  · exact (enqueue_cases runtime _ { cache with registry := _ }).2.1

/-- Only a removal is asked for, of just these keys, and only where there are any. -/
theorem dropEntries_asks (runtime : Bool) (tables : List String) (cache : QueryCache β) :
    let keys := cache.registry.keysFor tables
    let dropped := cache.dropEntries runtime tables
    dropped.1.backend = cache.backend ∧
      dropped.1.queue =
        (if keys = [] then cache.queue
        else if cache.takes runtime then cache.queue ++ [.remove keys] else []) ∧
      dropped.2 =
        (if keys = [] then []
        else .invalidating tables keys.length ::
          if cache.takes runtime then [] else [.commandDropped]) := by
  intro keys dropped
  have hdropped : dropped = _ := dropEntries_eq runtime tables cache
  rw [hdropped]
  by_cases hkeys : keys = []
  · rw [if_pos hkeys, if_pos hkeys, if_pos hkeys]
    exact ⟨rfl, rfl, rfl⟩
  · rw [if_neg hkeys, if_neg hkeys, if_neg hkeys, enqueue_eq]
    by_cases htakes : cache.takes runtime = true
    · have hsame : ({ cache with registry := cache.registry.forget keys }).takes runtime = true :=
        htakes
      rw [if_pos htakes, if_pos htakes, if_pos hsame]
      exact ⟨rfl, rfl, rfl⟩
    · have hsame : ¬({ cache with registry := cache.registry.forget keys }).takes runtime = true :=
        htakes
      rw [if_neg htakes, if_neg htakes, if_neg hsame]
      exact ⟨rfl, rfl, rfl⟩

end Asking

/-! ## Any calls -/

/-- Caches that were fresh at first, and what was registered and dropped since.  Whatever else
happens to them leaves the registry alone. -/
inductive Kept {β : Type} [Backend β] : QueryCache β → List Note → Prop
  | fresh (backend : β) : Kept { backend } []
  /-- The registry is given a key without rows. -/
  | register {cache : QueryCache β} {notes : List Note} (tables : List String) (key : String)
      (h : Kept cache notes) :
      Kept { cache with registry := cache.registry.register tables key }
        (.registered tables key :: notes)
  | set {cache : QueryCache β} {notes : List Note} (runtime : Bool) (tables : List String)
      (key : String) (records : List Record) (h : Kept cache notes) :
      Kept (cache.set runtime tables key records).1 (.registered tables key :: notes)
  | drop {cache : QueryCache β} {notes : List Note} (runtime : Bool) (tables : List String)
      (h : Kept cache notes) :
      Kept (cache.dropEntries runtime tables).1 (.dropped tables :: notes)
  | get {cache : QueryCache β} {notes : List Note} (key : String) (h : Kept cache notes) :
      Kept (cache.get key).2.1 notes
  | step {cache : QueryCache β} {notes : List Note} (h : Kept cache notes) :
      Kept cache.step.1 notes
  | settle {cache : QueryCache β} {notes : List Note} (h : Kept cache notes) :
      Kept cache.settle.1 notes
  | restart {cache : QueryCache β} {notes : List Note} (h : Kept cache notes) :
      Kept cache.restart notes
  /-- The backend changes by itself. -/
  | change {cache : QueryCache β} {notes : List Note} (backend : β) (h : Kept cache notes) :
      Kept { cache with backend := backend } notes

section Kept

variable {β : Type} [Backend β] {cache : QueryCache β} {notes : List Note}

theorem Kept.shows (h : Kept cache notes) : cache.registry.Shows notes := by
  -- only registrations and drops reach the registry
  induction h with
  | fresh backend => exact .empty
  | register tables key _ ih => exact ih.register tables key
  | set runtime tables key records _ ih =>
      rw [registry_set]
      exact ih.register tables key
  | drop runtime tables _ ih =>
      -- the registry forgets the keys whether or not the removal is queued
      rw [registry_dropEntries]
      split
      · rename_i hnone
        exact ih.drop_none hnone
      · exact ih.drop tables
  | get key _ ih =>
      rw [get_cache]
      exact ih
  | step _ ih =>
      rw [registry_step]
      exact ih
  | settle _ ih =>
      rw [registry_settle]
      exact ih
  | restart _ ih =>
      rw [(restart_eq _).2.1]
      exact ih
  | change backend _ ih => exact ih

/-- The registry holds exactly what stands.  Looking up gives the keys that stand against one of the
tables, sorted and each once.  Dropping takes exactly these out of every table, leaves the other
keys of every table as they are, and asks for the removal of just these keys, if there are any; the
removal is queued unless there is neither a worker nor a runtime.  No table is kept without a key,
so the registry is empty when nothing stands. -/
theorem Kept.registry_exact (h : Kept cache notes) :
    (∀ table key, key ∈ cache.registry.keys table ↔ Standing notes table key) ∧
      (∀ entry ∈ cache.registry.tables, entry.2 ≠ []) ∧
      (cache.registry.isEmpty = true ↔ ∀ table key, ¬Standing notes table key) ∧
      ∀ runtime tables,
        let keys := cache.registry.keysFor tables
        let dropped := cache.dropEntries runtime tables
        keys.Pairwise (· < ·) ∧
          (∀ key, key ∈ keys ↔ ∃ table ∈ tables, Standing notes table key) ∧
          (∀ table, dropped.1.registry.keys table =
            (cache.registry.keys table).filter fun key => !keys.contains key) ∧
          dropped.1.backend = cache.backend ∧
          dropped.1.queue =
            (if keys = [] then cache.queue
            else if cache.takes runtime then cache.queue ++ [.remove keys] else []) ∧
          dropped.2 =
            (if keys = [] then []
            else .invalidating tables keys.length ::
              if cache.takes runtime then [] else [.commandDropped]) := by
  have hshows := h.shows
  refine ⟨hshows.mem_keys, hshows.populated, hshows.isEmpty_iff, ?_⟩
  intro runtime tables keys dropped
  refine ⟨pairwise_lt_sorted _, hshows.mem_keysFor tables, ?_,
    dropEntries_asks runtime tables cache⟩
  intro table
  show (cache.dropEntries runtime tables).1.registry.keys table = _
  rw [registry_dropEntries]
  split
  · rename_i hnone
    have hkeys : keys = [] := hnone
    simp [hkeys]
  · exact Registry.keys_forget keys table hshows.distinct

end Kept

/-- Of two keys that share a table, dropping the other table of one takes out only that one. -/
def shared : QueryCache MemoryCache :=
  let first : QueryCache MemoryCache := { backend := .empty 8 }
  let second := (first.set true ["teams", "players"] "roster" []).1
  (((second.set true ["players"] "scores" []).1.dropEntries true ["teams"]).1)

theorem registry_exact_shared :
    Kept shared [.dropped ["teams"], .registered ["players"] "scores",
        .registered ["teams", "players"] "roster"] ∧
      (∀ key, key ∈ shared.registry.keysFor ["players"] ↔ key = "scores") ∧
      shared.registry.keysFor ["teams"] = [] ∧
      shared.registry.isEmpty = false := by
  have hkept : Kept shared [.dropped ["teams"], .registered ["players"] "scores",
      .registered ["teams", "players"] "roster"] :=
    .drop true _ (.set true _ _ _ (.set true _ _ _ (.fresh _)))
  rcases hkept.registry_exact with ⟨-, -, hempty, hcalls⟩
  have hplayers : ∀ key, key ∈ shared.registry.keysFor ["players"] ↔ key = "scores" := by
    intro key
    have hboth : key ∈ shared.registry.keysFor ["players"] ↔
        (key = "roster" ∨ key = "scores") ∧ key ≠ "roster" := by
      simpa [Standing] using (hcalls true ["players"]).2.1 key
    rw [hboth]
    constructor
    · exact fun hkey => hkey.1.resolve_left hkey.2
    · rintro rfl
      exact ⟨.inr rfl, by decide⟩
  have hteams : shared.registry.keysFor ["teams"] = [] := by
    refine List.eq_nil_iff_forall_not_mem.2 fun key hkey => ?_
    simpa [Standing] using ((hcalls true ["teams"]).2.1 key).1 hkey
  refine ⟨hkept, hplayers, hteams, ?_⟩
  rw [Bool.eq_false_iff, Ne, hempty]
  intro hnone
  exact hnone "players" "scores" (by simp [Standing])

/-- Where the worker has died and there is no runtime, a removal is not queued.  The registry has
forgotten the key all the same, and its text stays. -/
theorem removal_dropped :
    let fresh : QueryCache MemoryCache := { backend := .empty 8 }
    let cache := (fresh.set true ["t"] "k" []).1.settle.1.restart
    let dropped := cache.dropEntries false ["t"]
    cache.registry.keysFor ["t"] = ["k"] ∧
      dropped.1.queue = [] ∧
      dropped.2 = [.invalidating ["t"] 1, .commandDropped] ∧
      dropped.1.registry.isEmpty = true ∧
      dropped.1.settle.1.backend.contains "k" = true := by
  refine ⟨?_, ?_, ?_, ?_, ?_⟩ <;> decide +kernel

end QueryCache

end FieldQuery.Cache
