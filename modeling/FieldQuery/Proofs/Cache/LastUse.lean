import FieldQuery.Cache.Observed
import FieldQuery.Proofs.Cache.Recency

/-!
# A cache in memory as a list by last use

The simplest cache that forgets what was not used for long is a single list: a use moves a pair to
its end, and what does not fit any more is dropped from its front.  A cache in memory keeps pairs
and queue apart and changes them one after the other, but no sequence of calls can tell it from that
list.

Main definitions:

- `RecencyList`: the list with its operations.
- `BackendCall.replies`, `BackendCall.leave`: what calls in turn answer, and what they leave.
- `RecencyList.Shown`, `RecencyList.Refines`: pairs and queue that stand for a list.

Main statements: `RecencyList.Refines.carryOut` and `MemoryCache.list_by_last_use`.
-/

namespace FieldQuery.Cache

/-! ## Calls in turn -/

namespace BackendCall

variable {β : Type} [Backend β]

/-- Carries out a call; only a read gives a text. -/
def carryOut (store : β) : BackendCall → Outcome β (Option String)
  | .get key => Backend.get key store
  | .set key payload =>
    let outcome := Backend.set key payload store
    ⟨outcome.result.map fun _ => none, outcome.store, outcome.events⟩
  | .delete keys =>
    let outcome := Backend.delete keys store
    ⟨outcome.result.map fun _ => none, outcome.store, outcome.events⟩

/-- What calls in turn answer and report. -/
def replies (store : β) : List BackendCall → List (Except QueryError (Option String) × List Event)
  | [] => []
  | call :: calls =>
    let outcome := call.carryOut store
    (outcome.result, outcome.events) :: replies outcome.store calls

/-- What calls in turn leave. -/
def leave (store : β) (calls : List BackendCall) : β :=
  calls.foldl (fun store call => (call.carryOut store).store) store

end BackendCall

/-! ## The list -/

/-- Texts under keys, the one that was used last at the end. -/
structure RecencyList where
  capacity : Nat
  pairs : List (String × String) := []
  deriving DecidableEq, Repr

namespace RecencyList

/-- The pairs with other keys. -/
def others (key : String) (pairs : List (String × String)) : List (String × String) :=
  pairs.filter (·.1 != key)

/-- The text under a key, which is moved to the end with it. -/
def get (key : String) (list : RecencyList) : Option String × RecencyList :=
  match MemoryCache.lookUp key list.pairs with
  | some text => (some text, { list with pairs := others key list.pairs ++ [(key, text)] })
  | none => (none, list)

/-- Puts a text under a key at the end, and drops pairs from the front until the others fit in. -/
def set (key text : String) (list : RecencyList) : RecencyList × List Event :=
  let front := others key list.pairs
  let surplus := front.length + 1 - list.capacity
  ({ list with pairs := (front ++ [(key, text)]).drop surplus },
    (front.take surplus).map fun (dropped, _) => .evicted dropped)

def delete (keys : List String) (list : RecencyList) : RecencyList :=
  { list with pairs := list.pairs.filter fun (key, _) => !keys.contains key }

instance : Backend RecencyList where
  get key list :=
    let (text, list) := list.get key
    ⟨.ok text, list, []⟩
  set key text list :=
    let (list, events) := list.set key text
    ⟨.ok (), list, events⟩
  delete keys list := ⟨.ok (), list.delete keys, []⟩

/-! ## Pairs with distinct keys -/

section Pairs

variable {pairs : List (String × String)} {key text : String}

theorem others_of_not_mem (h : key ∉ pairs.map (·.1)) : others key pairs = pairs := by
  refine List.filter_eq_self.2 fun pair hpair => ?_
  have hne : pair.1 ≠ key := by
    rintro rfl
    exact h (List.mem_map_of_mem hpair)
  simpa using hne

theorem map_others (key : String) (pairs : List (String × String)) :
    (others key pairs).map (·.1) = (pairs.map (·.1)).filter (· != key) := by
  rw [others, List.filter_map]
  rfl

theorem nodup_use (h : (pairs.map (·.1)).Nodup) (key text : String) :
    ((others key pairs ++ [(key, text)]).map (·.1)).Nodup := by
  rw [List.map_append, map_others]
  have hnew : key ∉ (pairs.map (·.1)).filter (· != key) := by simp
  exact (List.perm_append_singleton key _).nodup_iff.2 (List.nodup_cons.2 ⟨hnew, h.filter _⟩)

/-- A use changes the order only. -/
theorem perm_use (hnodup : (pairs.map (·.1)).Nodup) (hmem : (key, text) ∈ pairs) :
    pairs.Perm (others key pairs ++ [(key, text)]) := by
  rcases List.append_of_mem hmem with ⟨front, back, rfl⟩
  -- no other pair has the key, so the others are all that stand around this one
  have hkeys : (key :: (front ++ back).map (·.1)).Nodup := by
    have hperm := (@List.perm_middle _ (key, text) front back).map (·.1)
    exact hperm.nodup hnodup
  have hothers : others key (front ++ (key, text) :: back) = front ++ back := by
    rw [← others_of_not_mem (List.nodup_cons.1 hkeys).1]
    simp [others]
  rw [hothers]
  exact List.perm_middle.trans (List.perm_append_singleton _ _).symm

theorem lookUp_eq_some (h : (pairs.map (·.1)).Nodup) :
    MemoryCache.lookUp key pairs = some text ↔ (key, text) ∈ pairs := by
  induction pairs with
  | nil => simp [MemoryCache.lookUp]
  | cons pair pairs ih =>
      rcases pair with ⟨known, old⟩
      rcases List.nodup_cons.1 h with ⟨hnew, hrest⟩
      rw [MemoryCache.lookUp_cons]
      split
      · rename_i hkey
        subst hkey
        have habsent : (known, text) ∉ pairs := fun hmem =>
          hnew (List.mem_map.2 ⟨(known, text), hmem, rfl⟩)
        simp [habsent, eq_comm]
      · rename_i hkey
        rw [ih hrest]
        simp [Ne.symm hkey]

/-- Where keys are distinct the order does not matter for what is found. -/
theorem lookUp_perm {entries : List (String × String)} (hnodup : (pairs.map (·.1)).Nodup)
    (hperm : entries.Perm pairs) (key : String) :
    MemoryCache.lookUp key entries = MemoryCache.lookUp key pairs := by
  have hentries : (entries.map (·.1)).Nodup := (hperm.map Prod.fst).nodup_iff.2 hnodup
  refine Option.ext fun text => ?_
  -- a text is found just if its pair is among them
  rw [lookUp_eq_some hentries, lookUp_eq_some hnodup, hperm.mem_iff]

end Pairs

/-! ## What stands for a list -/

/-- The queue has the keys in the order of the list, and the pairs are its pairs in any order. -/
structure Shown (order : List String) (entries pairs : List (String × String)) : Prop where
  order_eq : order = pairs.map (·.1)
  perm : entries.Perm pairs
  nodup : (pairs.map (·.1)).Nodup

namespace Shown

variable {order : List String} {entries pairs : List (String × String)}

theorem lists (h : Shown order entries pairs) : MemoryCache.Lists order entries where
  nodup := h.order_eq ▸ h.nodup
  perm := h.order_eq ▸ (h.perm.map Prod.fst).symm

theorem contains_iff {cache : MemoryCache} (h : Shown cache.order cache.entries pairs)
    (key : String) : cache.contains key = true ↔ key ∈ pairs.map (·.1) := by
  rw [← (h.perm.map Prod.fst).mem_iff]
  simp [MemoryCache.contains]

theorem use (h : Shown order entries pairs) {key text : String} (hmem : (key, text) ∈ pairs) :
    Shown (order.erase key ++ [key]) entries (others key pairs ++ [(key, text)]) where
  order_eq := by
    rw [h.lists.nodup.erase_eq_filter, h.order_eq, List.map_append, map_others]
    rfl
  perm := h.perm.trans (perm_use h.nodup hmem)
  nodup := nodup_use h.nodup key text

theorem touch {cache : MemoryCache} (h : Shown cache.order cache.entries pairs)
    {key text : String} (hmem : (key, text) ∈ pairs) :
    Shown (cache.touch key).order (cache.touch key).entries
      (others key pairs ++ [(key, text)]) := by
  have hkey : cache.order.contains key = true := by
    rw [h.order_eq]
    simpa using ⟨text, hmem⟩
  unfold MemoryCache.touch
  rw [if_pos hkey]
  exact h.use hmem

theorem remove {cache : MemoryCache} (h : Shown cache.order cache.entries pairs) (key : String) :
    Shown (cache.remove key).order (cache.remove key).entries (others key pairs) := by
  unfold MemoryCache.remove
  split
  · refine ⟨?_, h.perm.filter _, ?_⟩
    · show cache.order.erase key = _
      rw [h.lists.nodup.erase_eq_filter, h.order_eq, map_others]
    · rw [map_others]
      exact h.nodup.filter _
  · rename_i hkey
    rw [others_of_not_mem (fun hmem => hkey ((h.contains_iff key).2 hmem))]
    exact h

theorem delete {cache : MemoryCache} (h : Shown cache.order cache.entries pairs)
    (keys : List String) :
    Shown (cache.delete keys).order (cache.delete keys).entries
      (pairs.filter fun (key, _) => !keys.contains key) := by
  -- a key that comes again, or was never there, takes nothing out
  induction keys generalizing cache pairs with
  | nil =>
      show Shown cache.order cache.entries _
      simpa using h
  | cons key keys ih =>
      have hrest : (others key pairs).filter (fun (other, _) => !keys.contains other) =
          pairs.filter fun (other, _) => !(key :: keys).contains other := by
        rw [others, List.filter_filter]
        refine List.filter_congr fun pair _ => ?_
        by_cases hkey : pair.1 = key
        · simp [hkey]
        · simp [hkey]
      exact hrest ▸ ih (h.remove key)

/-- A new text stands at the end, whether its key was known or not. -/
theorem stored {cache : MemoryCache} (h : Shown cache.order cache.entries pairs)
    (key text : String) :
    Shown (MemoryCache.stored key text cache).order (MemoryCache.stored key text cache).entries
      (others key pairs ++ [(key, text)]) := by
  unfold MemoryCache.stored
  split
  · -- a known key keeps its place among the pairs and goes to the end of the queue
    rename_i hkey
    let change : String × String → String × String := fun (known, old) =>
      (known, if known == key then text else old)
    have hkeys : (pairs.map change).map (·.1) = pairs.map (·.1) := by
      rw [List.map_map]
      rfl
    have hchanged : Shown cache.order (cache.entries.map change) (pairs.map change) :=
      ⟨h.order_eq.trans hkeys.symm, h.perm.map change, hkeys ▸ h.nodup⟩
    have hmem : (key, text) ∈ pairs.map change := by
      rcases List.mem_map.1 ((h.contains_iff key).1 hkey) with ⟨⟨_, old⟩, hpair, rfl⟩
      exact List.mem_map.2 ⟨_, hpair, by simp [change]⟩
    -- the other pairs keep their texts
    have hothers : others key (pairs.map change) = others key pairs := by
      rw [others, others, List.filter_map]
      refine (List.map_congr_left fun pair hpair => ?_).trans (List.map_id _)
      have hne : pair.1 ≠ key := by simpa using (List.mem_filter.1 hpair).2
      simp [change, hne]
    rw [← hothers]
    exact @touch _ { cache with entries := cache.entries.map change } hchanged key text hmem
  · -- a new one goes to the end of both
    rename_i hkey
    have hnew : key ∉ pairs.map (·.1) := fun hmem => hkey ((h.contains_iff key).2 hmem)
    refine ⟨?_, ?_, nodup_use h.nodup key text⟩
    · rw [others_of_not_mem hnew, List.map_append, h.order_eq]
      rfl
    · rw [others_of_not_mem hnew]
      exact h.perm.append_right _

/-- What is evicted is what is dropped from the front. -/
theorem evict (capacity : Nat) (h : Shown order entries pairs) :
    Shown (MemoryCache.evict capacity entries order).2.1
        (MemoryCache.evict capacity entries order).1 (pairs.drop (pairs.length - capacity)) ∧
      (MemoryCache.evict capacity entries order).2.2 =
        (pairs.take (pairs.length - capacity)).map fun (dropped, _) => .evicted dropped := by
  -- the induction is on the list, whose keys the queue has; the surplus shrinks with it
  induction pairs generalizing order entries with
  | nil =>
      rw [h.order_eq]
      simpa [MemoryCache.evict] using ⟨rfl, h.perm, List.nodup_nil⟩
  | cons pair pairs ih =>
      rcases pair with ⟨oldest, text⟩
      have hlength : entries.length = pairs.length + 1 := h.perm.length_eq
      rcases List.nodup_cons.1 h.nodup with ⟨hnew, hrest⟩
      have hfirst : Shown (pairs.map (·.1)) (others oldest entries) pairs := by
        refine ⟨rfl, ?_, hrest⟩
        have hperm := h.perm.filter (·.1 != oldest)
        have hpairs : ((oldest, text) :: pairs).filter (·.1 != oldest) = pairs := by
          simpa [others] using others_of_not_mem hnew
        exact hpairs ▸ hperm
      rw [h.order_eq, List.map_cons, MemoryCache.evict]
      split
      · have hsurplus : ((oldest, text) :: pairs).length - capacity =
            pairs.length - capacity + 1 := by
          rw [List.length_cons]
          omega
        rcases ih hfirst with ⟨hshown, hevents⟩
        rw [hsurplus]
        refine ⟨hshown, ?_⟩
        rw [List.take_succ_cons, List.map_cons]
        exact congrArg _ hevents
      · have hsurplus : ((oldest, text) :: pairs).length - capacity = 0 := by
          rw [List.length_cons]
          omega
        rw [hsurplus]
        exact ⟨⟨rfl, h.perm, h.nodup⟩, rfl⟩

end Shown

/-! ## Call by call -/

/-- A cache in memory stands for a list, which fits in. -/
structure Refines (cache : MemoryCache) (list : RecencyList) : Prop where
  capacity : cache.capacity = list.capacity
  shown : Shown cache.order cache.entries list.pairs
  fits : list.pairs.length ≤ list.capacity

namespace Refines

variable {cache : MemoryCache} {list : RecencyList}

theorem empty (capacity : Nat) : Refines (.empty capacity) { capacity } :=
  ⟨rfl, ⟨rfl, List.Perm.nil, List.nodup_nil⟩, Nat.zero_le _⟩

theorem size_eq (h : Refines cache list) : cache.size = list.pairs.length :=
  h.shown.perm.length_eq

theorem pairs_eq_nil (h : Refines cache list) (hzero : cache.capacity = 0) : list.pairs = [] := by
  have hfits := h.fits
  rw [← h.capacity, hzero] at hfits
  exact List.length_eq_zero_iff.1 (Nat.le_zero.1 hfits)

/-- Where there is no room, nothing is held. -/
theorem eq_empty (h : Refines cache list) (hzero : cache.capacity = 0) : cache = .empty 0 := by
  have hnone := h.pairs_eq_nil hzero
  have hentries : cache.entries = [] := List.Perm.eq_nil (hnone ▸ h.shown.perm)
  have horder : cache.order = [] := by rw [h.shown.order_eq, hnone, List.map_nil]
  rcases cache with ⟨capacity, entries, order⟩
  simp_all [MemoryCache.empty]

theorem get (h : Refines cache list) (key : String) :
    (cache.get key).1 = (list.get key).1 ∧ Refines (cache.get key).2 (list.get key).2 := by
  have hfound : cache.peek? key = MemoryCache.lookUp key list.pairs :=
    lookUp_perm h.shown.nodup h.shown.perm key
  unfold MemoryCache.get RecencyList.get
  rw [hfound]
  cases htext : MemoryCache.lookUp key list.pairs with
  | none => exact ⟨rfl, h⟩
  | some text =>
      have hmem : (key, text) ∈ list.pairs := (lookUp_eq_some h.shown.nodup).1 htext
      refine ⟨rfl, ?_, h.shown.touch hmem, ?_⟩
      · exact (MemoryCache.capacity_touch cache key).trans h.capacity
      · exact (perm_use h.shown.nodup hmem).length_eq ▸ h.fits

theorem set (h : Refines cache list) (key text : String) :
    Refines (cache.set key text).1 (list.set key text).1 ∧
      (cache.set key text).2 = (list.set key text).2 := by
  by_cases hzero : cache.capacity = 0
  · -- nothing is held, and the new pair is dropped at once
    have hsame : cache.set key text = (cache, []) := by
      unfold MemoryCache.set
      rw [if_pos hzero]
    have hdropped : list.set key text = (list, []) := by
      rcases list with ⟨capacity, pairs⟩
      simp [RecencyList.set, others, show pairs = [] from h.pairs_eq_nil hzero,
        show capacity = 0 from h.capacity.symm.trans hzero]
    rw [hsame, hdropped]
    exact ⟨h, rfl⟩
  · -- the new pair is put at the end first, and what does not fit goes afterwards
    rcases (h.shown.stored key text).evict cache.capacity with ⟨hshown, hevents⟩
    rw [List.length_append, List.length_singleton, h.capacity] at hshown hevents
    rw [MemoryCache.set_eq key text hzero, h.capacity]
    refine ⟨⟨rfl, hshown, ?_⟩, hevents.trans ?_⟩
    · show (List.drop _ _).length ≤ list.capacity
      rw [List.length_drop, List.length_append, List.length_singleton]
      omega
    · -- the new pair is not among those that are dropped
      have hroom : list.capacity ≠ 0 := h.capacity ▸ hzero
      show _ = (List.take _ _).map _
      rw [List.take_append_of_le_length (by omega)]

theorem delete (h : Refines cache list) (keys : List String) :
    Refines (cache.delete keys) (list.delete keys) where
  capacity := (MemoryCache.capacity_delete keys cache).trans h.capacity
  shown := h.shown.delete keys
  fits := Nat.le_trans (List.length_filter_le _ _) h.fits

/-- No call tells the cache from the list. -/
theorem carryOut (h : Refines cache list) (call : BackendCall) :
    Refines (call.carryOut cache).store (call.carryOut list).store ∧
      (call.carryOut cache).result = (call.carryOut list).result ∧
      (call.carryOut cache).events = (call.carryOut list).events := by
  cases call with
  | get key =>
      rcases h.get key with ⟨htext, hstore⟩
      exact ⟨hstore, congrArg Except.ok htext, rfl⟩
  | set key payload =>
      rcases h.set key payload with ⟨hstore, hevents⟩
      exact ⟨hstore, rfl, hevents⟩
  | delete keys => exact ⟨h.delete keys, rfl, rfl⟩

/-- No calls in turn do either. -/
theorem calls (h : Refines cache list) (calls : List BackendCall) :
    Refines (BackendCall.leave cache calls) (BackendCall.leave list calls) ∧
      BackendCall.replies cache calls = BackendCall.replies list calls := by
  induction calls generalizing cache list with
  | nil => exact ⟨h, rfl⟩
  | cons call calls ih =>
      rcases h.carryOut call with ⟨hstore, hresult, hevents⟩
      rcases ih hstore with ⟨hlast, hreplies⟩
      refine ⟨hlast, ?_⟩
      rw [BackendCall.replies, BackendCall.replies, hresult, hevents, hreplies]

end Refines

end RecencyList

/-! ## Any calls -/

theorem MemoryCache.capacity_leave (cache : MemoryCache) (calls : List BackendCall) :
    (BackendCall.leave cache calls).capacity = cache.capacity := by
  induction calls generalizing cache with
  | nil => rfl
  | cons call calls ih =>
      refine (ih (call.carryOut cache).store).trans ?_
      cases call with
      | get key => exact capacity_get cache key
      | set key payload => exact capacity_set key payload cache
      | delete keys => exact capacity_delete keys cache

/-- Whatever is called in turn, and for however many texts there is room, a cache in memory answers
and reports what the list by last use does, and holds the same pairs behind it.  Its queue has the
keys that are held, each once and in the order of the list, and there are no more of them than fit
in; where there is no room the cache stays empty. -/
theorem MemoryCache.list_by_last_use (capacity : Nat) (calls : List BackendCall) :
    let cache := BackendCall.leave (MemoryCache.empty capacity) calls
    let list := BackendCall.leave { capacity : RecencyList } calls
    BackendCall.replies (MemoryCache.empty capacity) calls =
        BackendCall.replies { capacity : RecencyList } calls ∧
      cache.size = list.pairs.length ∧
      (∀ key, cache.contains key = true ↔ key ∈ list.pairs.map (·.1)) ∧
      cache.entries.Perm list.pairs ∧
      cache.order = list.pairs.map (·.1) ∧
      cache.order.Nodup ∧
      cache.order.Perm (cache.entries.map (·.1)) ∧
      cache.size ≤ capacity ∧
      BackendCall.leave (MemoryCache.empty 0) calls = .empty 0 := by
  intro cache list
  rcases (RecencyList.Refines.empty capacity).calls calls with ⟨hstore, hreplies⟩
  have hcapacity : list.capacity = capacity :=
    hstore.capacity.symm.trans (capacity_leave (.empty capacity) calls)
  have hsize : cache.size ≤ capacity := by
    calc
      cache.size = list.pairs.length := hstore.size_eq
      _ ≤ list.capacity := hstore.fits
      _ = capacity := hcapacity
  have hnothing : BackendCall.leave (MemoryCache.empty 0) calls = .empty 0 :=
    ((RecencyList.Refines.empty 0).calls calls).1.eq_empty (capacity_leave (.empty 0) calls)
  exact ⟨hreplies, hstore.size_eq, hstore.shown.contains_iff, hstore.shown.perm,
    hstore.shown.order_eq, hstore.shown.lists.nodup, hstore.shown.lists.perm, hsize, hnothing⟩

example : BackendCall.leave { capacity := 2 : RecencyList }
    [.set "a" "1", .set "b" "2", .get "a", .set "c" "3"] = ⟨2, [("a", "1"), ("c", "3")]⟩ := by
  decide

end FieldQuery.Cache
