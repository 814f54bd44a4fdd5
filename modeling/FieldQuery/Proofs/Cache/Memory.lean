import FieldQuery.Cache.Memory
import Mathlib.Data.List.Basic

/-!
# What a cache in memory holds

The texts that a cache in memory holds behind each operation.  Storing may evict other texts, and
even the one just stored where there is no room at all; nothing else is lost, and no text comes to
stand under a key under which it was not stored.

Main statements:

- `MemoryCache.peek?_get`: reading changes no text.
- `MemoryCache.peek?_set`: behind storing a text, what is left under each key.
- `MemoryCache.peek?_delete`: deleting takes out the named keys and nothing else.
-/

namespace FieldQuery.Cache.MemoryCache

/-- The text under a key in a list of pairs. -/
def lookUp (key : String) (entries : List (String × String)) : Option String :=
  (entries.find? (·.1 == key)).map (·.2)

theorem peek?_eq (cache : MemoryCache) (key : String) :
    cache.peek? key = lookUp key cache.entries := rfl

theorem lookUp_cons (key known text : String) (rest : List (String × String)) :
    lookUp key ((known, text) :: rest) = if known = key then some text else lookUp key rest := by
  by_cases h : known = key
  · simp [lookUp, h]
  · simp [lookUp, h]

theorem lookUp_append (key : String) (front back : List (String × String)) :
    lookUp key (front ++ back) = (lookUp key front).or (lookUp key back) := by
  cases h : front.find? (·.1 == key) with
  | none => simp [lookUp, h]
  | some entry => simp [lookUp, h]

theorem lookUp_filter (key removed : String) :
    ∀ entries : List (String × String),
      lookUp key (entries.filter (·.1 != removed)) =
        if key = removed then none else lookUp key entries
  | [] => by simp [lookUp]
  | (known, text) :: rest => by
      have ih := lookUp_filter key removed rest
      by_cases hknown : known = removed
      · have hdrop : ((known, text) :: rest).filter (·.1 != removed) =
            rest.filter (·.1 != removed) := by simp [hknown]
        rw [hdrop, ih, lookUp_cons]
        by_cases hkey : key = removed
        · rw [if_pos hkey, if_pos hkey]
        · rw [if_neg hkey, if_neg hkey, if_neg (fun h : known = key => hkey (h ▸ hknown))]
      · have hkeep : ((known, text) :: rest).filter (·.1 != removed) =
            (known, text) :: rest.filter (·.1 != removed) := by simp [hknown]
        rw [hkeep, lookUp_cons, lookUp_cons, ih]
        by_cases hkey : key = removed
        · rw [if_neg (fun h => hknown (h.trans hkey)), if_pos hkey, if_pos hkey]
        · rw [if_neg hkey, if_neg hkey]

/-- Giving a key another text changes nothing under the others. -/
theorem lookUp_map (key stored text : String) :
    ∀ entries : List (String × String),
      lookUp key (entries.map fun (known, old) => (known, if known == stored then text else old)) =
        if key = stored then (lookUp key entries).map fun _ => text else lookUp key entries
  | [] => by simp [lookUp]
  | (known, old) :: rest => by
      have ih := lookUp_map key stored text rest
      rw [List.map_cons, lookUp_cons, lookUp_cons, ih]
      by_cases hknown : known = key
      · by_cases hkey : key = stored
        · simp [hknown, hkey]
        · simp [hknown, hkey]
      · rw [if_neg hknown, if_neg hknown]

theorem contains_iff (cache : MemoryCache) (key : String) :
    cache.contains key = true ↔ (cache.peek? key).isSome := by
  simp [contains, peek?]

/-! ## Reading -/

theorem entries_touch (cache : MemoryCache) (key : String) :
    (cache.touch key).entries = cache.entries := by
  unfold touch
  split
  · rfl
  · rfl

theorem capacity_touch (cache : MemoryCache) (key : String) :
    (cache.touch key).capacity = cache.capacity := by
  unfold touch
  split
  · rfl
  · rfl

theorem get_fst (cache : MemoryCache) (key : String) : (cache.get key).1 = cache.peek? key := by
  unfold get
  split
  · rename_i text h
    exact h.symm
  · rename_i h
    exact h.symm

theorem capacity_get (cache : MemoryCache) (key : String) :
    (cache.get key).2.capacity = cache.capacity := by
  unfold get
  split
  · exact capacity_touch cache key
  · rfl

/-- Reading counts as a use, which only the queue knows of. -/
theorem peek?_get (cache : MemoryCache) (key other : String) :
    (cache.get key).2.peek? other = cache.peek? other := by
  unfold get
  split
  · rw [peek?_eq, entries_touch, ← peek?_eq]
  · rfl

/-! ## Deleting -/

theorem peek?_remove (cache : MemoryCache) (key other : String) :
    (cache.remove key).peek? other = if other = key then none else cache.peek? other := by
  unfold remove
  by_cases hkey : cache.contains key = true
  · rw [if_pos hkey]
    exact lookUp_filter other key cache.entries
  · rw [if_neg hkey]
    by_cases hother : other = key
    · have hnone : cache.peek? key = none := by
        simpa [contains_iff] using hkey
      rw [if_pos hother, hother, hnone]
    · rw [if_neg hother]

theorem peek?_delete (other : String) (keys : List String) (cache : MemoryCache) :
    (cache.delete keys).peek? other = if other ∈ keys then none else cache.peek? other := by
  induction keys generalizing cache with
  | nil => simp [delete]
  | cons key keys ih =>
      have hrest : (cache.delete (key :: keys)) = (cache.remove key).delete keys := rfl
      rw [hrest, ih, peek?_remove]
      by_cases hkey : other = key
      · simp [hkey]
      · simp [hkey]

/-! ## Storing -/

/-- Eviction only takes texts away. -/
theorem lookUp_evict {capacity : Nat} {key text : String} {order : List String}
    {entries : List (String × String)}
    (h : lookUp key (evict capacity entries order).1 = some text) :
    lookUp key entries = some text := by
  induction order generalizing entries with
  | nil => simpa [evict] using h
  | cons oldest order ih =>
      unfold evict at h
      split at h
      · have hrest := ih h
        rw [lookUp_filter] at hrest
        by_cases hkey : key = oldest
        · simp [hkey] at hrest
        · simpa [hkey] using hrest
      · exact h

/-- A cache without room holds nothing. -/
def Fits (cache : MemoryCache) : Prop :=
  cache.capacity = 0 → cache.entries = []

theorem fits_empty (capacity : Nat) : (empty capacity).Fits :=
  fun _ => rfl

theorem Fits.get {cache : MemoryCache} (h : cache.Fits) (key : String) :
    (cache.get key).2.Fits := by
  unfold MemoryCache.get
  split
  · intro hzero
    rw [entries_touch]
    exact h (by rwa [capacity_touch] at hzero)
  · exact h

theorem Fits.remove {cache : MemoryCache} (h : cache.Fits) (key : String) :
    (cache.remove key).Fits := by
  unfold MemoryCache.remove
  split
  · intro hzero
    simp [h hzero]
  · exact h

theorem Fits.delete (keys : List String) {cache : MemoryCache} (h : cache.Fits) :
    (cache.delete keys).Fits := by
  induction keys generalizing cache with
  | nil => exact h
  | cons key keys ih => exact ih (h.remove key)

/-- The pairs and the queue behind a new text, before any is evicted. -/
def stored (key text : String) (cache : MemoryCache) : MemoryCache :=
  if cache.contains key then
    touch
      { cache with
        entries := cache.entries.map fun (known, old) =>
          (known, if known == key then text else old) }
      key
  else { cache with entries := cache.entries ++ [(key, text)], order := cache.order ++ [key] }

theorem capacity_stored (key text : String) (cache : MemoryCache) :
    (stored key text cache).capacity = cache.capacity := by
  unfold stored
  split
  · rw [capacity_touch]
  · rfl

theorem set_eq (key text : String) {cache : MemoryCache} (h : cache.capacity ≠ 0) :
    let kept := evict cache.capacity (stored key text cache).entries (stored key text cache).order
    cache.set key text = (⟨cache.capacity, kept.1, kept.2.1⟩, kept.2.2) := by
  rw [← capacity_stored key text cache]
  unfold set
  rw [if_neg h]
  rfl

theorem entries_set (key text : String) {cache : MemoryCache} (h : cache.capacity ≠ 0) :
    (cache.set key text).1.entries =
      (evict (stored key text cache).capacity (stored key text cache).entries
        (stored key text cache).order).1 := by
  rw [set_eq key text h, capacity_stored]

theorem capacity_set (key text : String) (cache : MemoryCache) :
    (cache.set key text).1.capacity = cache.capacity := by
  unfold set
  split
  · rfl
  · exact capacity_stored key text cache

theorem Fits.set {cache : MemoryCache} (h : cache.Fits) (key text : String) :
    (cache.set key text).1.Fits := by
  intro hzero
  rw [capacity_set] at hzero
  have hsame : cache.set key text = (cache, []) := by
    unfold MemoryCache.set
    rw [if_pos hzero]
  rw [hsame]
  exact h hzero

theorem peek?_stored (key text other : String) (cache : MemoryCache) :
    (stored key text cache).peek? other =
      if other = key then some text else cache.peek? other := by
  unfold stored
  by_cases hkey : cache.contains key = true
  · rw [if_pos hkey, peek?_eq, entries_touch, lookUp_map]
    by_cases hother : other = key
    · obtain ⟨old, hold⟩ := Option.isSome_iff_exists.1 ((contains_iff cache key).1 hkey)
      have hfound : lookUp key cache.entries = some old := hold
      rw [if_pos hother, if_pos hother, hother, hfound, Option.map_some]
    · rw [if_neg hother, if_neg hother, peek?_eq]
  · have hnone : lookUp key cache.entries = none := by
      simpa [contains_iff, peek?_eq] using hkey
    rw [if_neg hkey, peek?_eq, lookUp_append, lookUp_cons]
    by_cases hother : other = key
    · rw [if_pos hother, hother, hnone, if_pos rfl, Option.none_or]
    · rw [if_neg hother, if_neg (Ne.symm hother), peek?_eq]
      simp [lookUp]

/-- Behind a new text, each key has its text of before, the new one has its own, or it has none. -/
theorem peek?_set {cache : MemoryCache} (h : cache.Fits) (key text other found : String)
    (hfound : (cache.set key text).1.peek? other = some found) :
    (if other = key then some text else cache.peek? other) = some found := by
  by_cases hzero : cache.capacity = 0
  · have hsame : cache.set key text = (cache, []) := by
      unfold set
      rw [if_pos hzero]
    rw [hsame, peek?_eq, h hzero] at hfound
    simp [lookUp] at hfound
  · rw [peek?_eq, entries_set key text hzero] at hfound
    rw [← peek?_stored key text other cache]
    exact lookUp_evict hfound

end FieldQuery.Cache.MemoryCache
