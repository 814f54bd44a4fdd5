import FieldQuery.Cache.Backend

/-!
# A cache in memory

A bounded number of texts under keys.  A queue holds the keys in the order of their last use; when
there are too many, the one at its front goes.

Main definitions:

- `MemoryCache`: the stored pairs and the queue.
- `MemoryCache.get`, `MemoryCache.set`, `MemoryCache.delete`: the operations.
-/

namespace FieldQuery.Cache

/-- Texts under keys, and the keys in the order of their last use. -/
structure MemoryCache where
  capacity : Nat
  entries : List (String × String) := []
  order : List String := []
  deriving DecidableEq, Repr

namespace MemoryCache

def defaultCapacity : Nat := 1024

def empty (capacity : Nat) : MemoryCache := { capacity }

def size (cache : MemoryCache) : Nat := cache.entries.length

def isEmpty (cache : MemoryCache) : Bool := cache.entries.isEmpty

/-- The text under a key, without using it. -/
def peek? (cache : MemoryCache) (key : String) : Option String :=
  (cache.entries.find? (·.1 == key)).map (·.2)

def contains (cache : MemoryCache) (key : String) : Bool :=
  cache.entries.any (·.1 == key)

/-- Moves a key of the queue to its end. -/
def touch (cache : MemoryCache) (key : String) : MemoryCache :=
  if cache.order.contains key then { cache with order := cache.order.erase key ++ [key] } else cache

/-- The text under a key, which counts as a use. -/
def get (key : String) (cache : MemoryCache) : Option String × MemoryCache :=
  match cache.peek? key with
  | some text => (some text, cache.touch key)
  | none => (none, cache)

/-- Removes a key, if it is there. -/
def remove (cache : MemoryCache) (key : String) : MemoryCache :=
  if cache.contains key then
    { cache with
      entries := cache.entries.filter (·.1 != key), order := cache.order.erase key }
  else cache

def delete (keys : List String) (cache : MemoryCache) : MemoryCache :=
  keys.foldl remove cache

/-- Removes keys from the front of the queue until no more texts are left than fit in. -/
def evict (capacity : Nat) (entries : List (String × String)) :
    List String → List (String × String) × List String × List Event
  | [] => (entries, [], [])
  | oldest :: order =>
    if capacity < entries.length then
      let (entries, order, events) := evict capacity (entries.filter (·.1 != oldest)) order
      (entries, order, .evicted oldest :: events)
    else (entries, oldest :: order, [])

/-- Puts a text under a key, which counts as a use, and removes what does not fit any more. -/
def set (key text : String) (cache : MemoryCache) : MemoryCache × List Event :=
  if cache.capacity = 0 then (cache, [])
  else
    let stored : MemoryCache :=
      -- a known key keeps its place among the pairs; only the queue knows of the use
      if cache.contains key then
        touch
          { cache with
            entries := cache.entries.map fun (known, old) =>
              (known, if known == key then text else old) }
          key
      else
        { cache with entries := cache.entries ++ [(key, text)], order := cache.order ++ [key] }
    let (entries, order, events) := evict stored.capacity stored.entries stored.order
    ({ stored with entries := entries, order := order }, events)

/-- A cache in memory never fails. -/
instance : Backend MemoryCache where
  get key cache :=
    let (text, cache) := cache.get key
    ⟨.ok text, cache, []⟩
  set key text cache :=
    let (cache, events) := cache.set key text
    ⟨.ok (), cache, events⟩
  delete keys cache := ⟨.ok (), cache.delete keys, []⟩

end MemoryCache

end FieldQuery.Cache
