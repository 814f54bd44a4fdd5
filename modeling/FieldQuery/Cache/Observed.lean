import FieldQuery.Cache.Memory

/-!
# Observed caches

A cache in memory that notes every operation and can be switched off; while it is off each
operation fails.

Main definitions:

- `BackendCall`: a noted operation.
- `ObservedCache`: the cache, its switch and the operations so far.
-/

namespace FieldQuery.Cache

/-- An operation on a backend. -/
inductive BackendCall
  | get (key : String)
  | set (key payload : String)
  | delete (keys : List String)
  deriving DecidableEq, Repr

/-- The keys that an operation names. -/
def BackendCall.keys : BackendCall → List String
  | .get key => [key]
  | .set key _ => [key]
  | .delete keys => keys

structure ObservedCache where
  memory : MemoryCache
  /-- Whether the cache is switched off. -/
  down : Bool := false
  calls : List BackendCall := []
  deriving DecidableEq, Repr

namespace ObservedCache

/-- Why an operation fails while the cache is off. -/
def outage : QueryError := .other "backend down"

/-- Notes an operation and carries it out, unless the cache is off. -/
def carryOut {α : Type} (call : BackendCall) (operation : MemoryCache → Outcome MemoryCache α)
    (cache : ObservedCache) : Outcome ObservedCache α :=
  let noted := { cache with calls := cache.calls ++ [call] }
  if cache.down then { result := .error outage, store := noted }
  else
    let outcome := operation cache.memory
    ⟨outcome.result, { noted with memory := outcome.store }, outcome.events⟩

instance : Backend ObservedCache where
  get key := carryOut (.get key) (Backend.get key)
  set key payload := carryOut (.set key payload) (Backend.set key payload)
  delete keys := carryOut (.delete keys) (Backend.delete keys)

end ObservedCache

end FieldQuery.Cache
