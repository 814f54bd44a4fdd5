import FieldQuery.Proofs.Cache.Loss

/-!
# What is evicted

The queue of a cache in memory lists the stored keys, each once.  Eviction starts at its front, and
a key that was just stored stands at its end, so where there is room for one text at all, the new
one stays.

Main definitions:

- `MemoryCache.Used`: the caches that the operations lead to.
- `MemoryCache.Lists`, `MemoryCache.Tidy`: a queue lists the stored keys, each once.

Main statements:

- `MemoryCache.Used.tidy`: that holds of every cache in use.
- `MemoryCache.peek?_set_self`: behind storing a text it is there.
- `QueryCache.peek?_settle_set`: behind the worker it is there as well, whatever waited before it.
-/

namespace FieldQuery.Cache

namespace MemoryCache

/-- A queue lists the keys of pairs, each once. -/
structure Lists (order : List String) (entries : List (String × String)) : Prop where
  nodup : order.Nodup
  perm : order.Perm (entries.map (·.1))

namespace Lists

variable {order : List String} {entries : List (String × String)}

/-- As many texts as keys. -/
theorem length (h : Lists order entries) : order.length = entries.length := by
  rw [h.perm.length_eq, List.length_map]

/-- A key is moved to the end of the queue. -/
theorem touch (h : Lists order entries) {key : String} (hkey : key ∈ order) :
    Lists (order.erase key ++ [key]) entries := by
  have hmoved : (order.erase key ++ [key]).Perm order :=
    (List.perm_append_singleton key _).trans (List.perm_cons_erase hkey).symm
  exact ⟨hmoved.nodup_iff.2 h.nodup, hmoved.trans h.perm⟩

/-- A key is taken off the queue and out of the pairs. -/
theorem remove (h : Lists order entries) (key : String) :
    Lists (order.filter (· != key)) (entries.filter (·.1 != key)) where
  nodup := h.nodup.filter _
  perm := by
    have hkeys : (entries.filter (·.1 != key)).map (·.1) =
        (entries.map (·.1)).filter (· != key) := by
      rw [List.filter_map]
      rfl
    rw [hkeys]
    exact h.perm.filter _

/-- The front of the queue is taken out. -/
theorem removeFirst {oldest : String} (h : Lists (oldest :: order) entries) :
    Lists order (entries.filter (·.1 != oldest)) := by
  have hrest : (oldest :: order).filter (· != oldest) = order := by
    rw [← h.nodup.erase_eq_filter, List.erase_cons_head]
  exact hrest ▸ h.remove oldest

/-- A pair with a new key is put behind the others, and its key at the end of the queue. -/
theorem append (h : Lists order entries) {key : String} (hnew : key ∉ order) (text : String) :
    Lists (order ++ [key]) (entries ++ [(key, text)]) where
  nodup := (List.perm_append_singleton key order).nodup_iff.2 (List.nodup_cons.2 ⟨hnew, h.nodup⟩)
  perm := by
    rw [List.map_append]
    exact h.perm.append_right [key]

theorem evict (capacity : Nat) (h : Lists order entries) :
    Lists (evict capacity entries order).2.1 (evict capacity entries order).1 := by
  induction order generalizing entries with
  | nil => exact h
  | cons oldest order ih =>
      unfold MemoryCache.evict
      split
      · exact ih h.removeFirst
      · exact h

/-- What stands at the end of the queue is not evicted where there is room for one text. -/
theorem lookUp_evict_last {capacity : Nat} (hroom : 1 ≤ capacity) {key : String}
    (h : Lists (order ++ [key]) entries) :
    lookUp key (MemoryCache.evict capacity entries (order ++ [key])).1 = lookUp key entries := by
  -- the induction is on the keys in front, which go first
  induction order generalizing entries with
  | nil =>
      have hsize : ¬capacity < entries.length := by
        rw [← h.length]
        exact Nat.not_lt.2 hroom
      show lookUp key (MemoryCache.evict capacity entries [key]).1 = _
      rw [MemoryCache.evict, if_neg hsize]
  | cons oldest order ih =>
      rw [List.cons_append, MemoryCache.evict]
      split
      · have hother : key ≠ oldest := by
          rintro rfl
          exact (List.nodup_cons.1 h.nodup).1 (List.mem_append_right order List.mem_cons_self)
        show lookUp key (MemoryCache.evict capacity _ (order ++ [key])).1 = _
        rw [ih h.removeFirst, lookUp_filter, if_neg hother]
      · rfl

end Lists

/-! ## Caches in use -/

/-- The queue lists the stored keys, each once. -/
def Tidy (cache : MemoryCache) : Prop :=
  Lists cache.order cache.entries

/-- Caches that were empty at first and have been used. -/
inductive Used : MemoryCache → Prop
  | empty (capacity : Nat) : Used (empty capacity)
  | get {cache : MemoryCache} (key : String) (h : Used cache) : Used (cache.get key).2
  | set {cache : MemoryCache} (key text : String) (h : Used cache) : Used (cache.set key text).1
  | delete {cache : MemoryCache} (keys : List String) (h : Used cache) : Used (cache.delete keys)

namespace Tidy

variable {cache : MemoryCache}

theorem touch (h : cache.Tidy) (key : String) : (cache.touch key).Tidy := by
  unfold MemoryCache.touch
  split
  · next hkey => exact Lists.touch h (by simpa using hkey)
  · exact h

theorem get (h : cache.Tidy) (key : String) : (cache.get key).2.Tidy := by
  unfold MemoryCache.get
  split
  · exact h.touch key
  · exact h

theorem remove (h : cache.Tidy) (key : String) : (cache.remove key).Tidy := by
  unfold MemoryCache.remove
  split
  · have hremoved := Lists.remove h key
    rw [← h.nodup.erase_eq_filter] at hremoved
    exact hremoved
  · exact h

theorem delete (keys : List String) (h : cache.Tidy) : (cache.delete keys).Tidy := by
  induction keys generalizing cache with
  | nil => exact h
  | cons key keys ih => exact ih (h.remove key)

theorem stored (h : cache.Tidy) (key text : String) :
    (MemoryCache.stored key text cache).Tidy := by
  unfold MemoryCache.stored
  split
  · have hkeys : Lists cache.order (cache.entries.map fun entry =>
        (entry.1, if entry.1 == key then text else entry.2)) := by
      refine ⟨h.nodup, ?_⟩
      rw [List.map_map]
      exact h.perm
    exact @Tidy.touch { cache with entries := cache.entries.map _ } hkeys key
  · next hkey =>
      refine Lists.append h (fun hmem => hkey ?_) text
      rcases List.mem_map.1 (h.perm.subset hmem) with ⟨entry, hentry, rfl⟩
      exact List.any_eq_true.2 ⟨entry, hentry, beq_self_eq_true _⟩

theorem set (h : cache.Tidy) (key text : String) : (cache.set key text).1.Tidy := by
  unfold MemoryCache.set
  split
  · exact h
  · exact Lists.evict _ (h.stored key text)

end Tidy

theorem Used.tidy {cache : MemoryCache} (h : cache.Used) : cache.Tidy := by
  induction h with
  | empty capacity => exact ⟨List.nodup_nil, List.Perm.nil⟩
  | get key _ ih => exact ih.get key
  | set key text _ ih => exact ih.set key text
  | delete keys _ ih => exact ih.delete keys

/-! ## The text that was stored last -/

theorem capacity_remove (cache : MemoryCache) (key : String) :
    (cache.remove key).capacity = cache.capacity := by
  unfold remove
  split
  · rfl
  · rfl

theorem capacity_delete (keys : List String) (cache : MemoryCache) :
    (cache.delete keys).capacity = cache.capacity := by
  induction keys generalizing cache with
  | nil => rfl
  | cons key keys ih => exact (ih (cache.remove key)).trans (capacity_remove cache key)

/-- The key of a new text stands at the end of the queue. -/
theorem exists_order_stored {cache : MemoryCache} (h : cache.Tidy) (key text : String) :
    ∃ order, (stored key text cache).order = order ++ [key] := by
  unfold stored
  split
  · next hkey =>
      rcases List.any_eq_true.1 hkey with ⟨entry, hentry, hsame⟩
      have hmem : key ∈ cache.order := by
        rw [h.perm.mem_iff, ← eq_of_beq hsame]
        exact List.mem_map_of_mem hentry
      exact ⟨cache.order.erase key, by simp [touch, hmem]⟩
  · exact ⟨cache.order, rfl⟩

/-- A text that was just stored is there, if there is room for one. -/
theorem peek?_set_self {cache : MemoryCache} (h : cache.Tidy) (hroom : 1 ≤ cache.capacity)
    (key text : String) : (cache.set key text).1.peek? key = some text := by
  have hzero : cache.capacity ≠ 0 := Nat.ne_of_gt hroom
  rcases exists_order_stored h key text with ⟨order, horder⟩
  have htidy := h.stored key text
  unfold Tidy at htidy
  rw [horder] at htidy
  rw [peek?_eq, entries_set key text hzero, horder, capacity_stored, htidy.lookUp_evict_last hroom,
    ← peek?_eq, peek?_stored, if_pos rfl]

end MemoryCache

/-! ## Behind the worker -/

namespace QueryCache

theorem carryOutAll_append (front back : List Command) (memory : MemoryCache) :
    (carryOutAll (front ++ back) memory).1 =
      (carryOutAll back (carryOutAll front memory).1).1 := by
  induction front generalizing memory with
  | nil => rfl
  | cons command front ih => exact ih _

theorem tidy_carryOutAll (commands : List Command) {memory : MemoryCache} (h : memory.Tidy) :
    (carryOutAll commands memory).1.Tidy := by
  induction commands generalizing memory with
  | nil => exact h
  | cons command commands ih =>
      cases command with
      | store key payload => exact ih (h.set key payload)
      | remove keys => exact ih (h.delete keys)

theorem capacity_carryOutAll (commands : List Command) (memory : MemoryCache) :
    (carryOutAll commands memory).1.capacity = memory.capacity := by
  induction commands generalizing memory with
  | nil => rfl
  | cons command commands ih =>
      refine (ih _).trans ?_
      cases command with
      | store key payload => exact MemoryCache.capacity_set key payload memory
      | remove keys => exact MemoryCache.capacity_delete keys memory

/-- Behind the worker the text that was set last is there. -/
theorem peek?_settle_set {cache : QueryCache MemoryCache} (h : cache.backend.Tidy)
    (hroom : 1 ≤ cache.backend.capacity) (tables : List String) (key : String)
    (records : List Record) :
    (cache.set true tables key records).1.settle.1.backend.peek? key =
      some (Record.listToJson records).text := by
  have htidy := tidy_carryOutAll cache.queue h
  have hcapacity := capacity_carryOutAll cache.queue cache.backend
  rw [(settle_carries _).2.2, set_live]
  show (carryOutAll (cache.queue ++ [_]) cache.backend).1.peek? key = _
  rw [carryOutAll_append]
  exact MemoryCache.peek?_set_self htidy (hcapacity ▸ hroom) key _

end QueryCache

end FieldQuery.Cache
