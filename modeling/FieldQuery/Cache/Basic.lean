import FieldQuery.Cache.Memory
import FieldQuery.Cache.Registry
import FieldQuery.Hash.Blake3
import FieldQuery.Record

/-!
# The result cache

Rows of a read are stored under a key made of its SQL and its values, and the key is registered for
every table that the read touched; a write to a table removes the keys registered for it.  Storing
and removing is left to a worker, which carries out commands in the order in which they were
queued.  The worker lives in a runtime and dies with it, and what it had not carried out is lost.

Main definitions:

- `cacheKey`: the key of a read.
- `QueryCache`: backend, registry and worker.
- `QueryCache.get`, `set`, `dropEntries`: what clients do; `step`, `settle`: what the worker does.
- `QueryCache.restart`: the end of a runtime.
-/

namespace FieldQuery.Cache

/-- The text that a key is made of. -/
def keyText (sql : String) (arguments : List BindValue) : String :=
  sql ++ ": " ++ BindValue.renderings arguments

/-- The key of a read. -/
def cacheKey (sql : String) (arguments : List BindValue) : String :=
  Blake3.hex (keyText sql arguments)

/-- What is left to the worker. -/
inductive Command
  | store (key payload : String)
  | remove (keys : List String)
  deriving DecidableEq, Repr

/-- The worker and its queue. -/
inductive Worker
  /-- None has been started. -/
  | absent
  | live (queue : List Command)
  /-- Its runtime has ended. -/
  | dead
  deriving DecidableEq, Repr

/-- Backend, registry and worker. -/
structure QueryCache (β : Type) where
  backend : β
  registry : Registry := {}
  worker : Worker := .absent

namespace QueryCache

variable {β : Type}

/-- The commands that are still to be carried out. -/
def queue (cache : QueryCache β) : List Command :=
  match cache.worker with
  | .live commands => commands
  | _ => []

/-- Queues a command, starting a worker where none lives; that needs a runtime. -/
def enqueue (runtime : Bool) (command : Command) (cache : QueryCache β) :
    QueryCache β × List Event :=
  match cache.worker with
  -- a living worker takes commands from anywhere
  | .live commands => ({ cache with worker := .live (commands ++ [command]) }, [])
  | _ =>
    if runtime then ({ cache with worker := .live [command] }, [])
    else ({ cache with worker := .absent }, [.commandDropped])

/-- Registers a key for tables and queues its rows. -/
def set (runtime : Bool) (tables : List String) (key : String) (records : List Record)
    (cache : QueryCache β) : QueryCache β × List Event :=
  { cache with registry := cache.registry.register tables key }.enqueue runtime
    (.store key (Record.listToJson records).text)

/-- Removes every key registered for one of several tables. -/
def dropEntries (runtime : Bool) (tables : List String) (cache : QueryCache β) :
    QueryCache β × List Event :=
  match cache.registry.keysFor tables with
  | [] => (cache, [])
  | keys =>
    -- the registry forgets the keys at once, the backend when the worker gets there
    let (cache, events) :=
      { cache with registry := cache.registry.forget keys }.enqueue runtime (.remove keys)
    (cache, .invalidating tables keys.length :: events)

/-- The runtime ends, and a living worker dies with its queue. -/
def restart (cache : QueryCache β) : QueryCache β :=
  match cache.worker with
  | .live _ => { cache with worker := .dead }
  | _ => cache

variable [Backend β]

/-- The rows stored under a key.  A failing backend and a text that holds no rows count as
misses. -/
def get (key : String) (cache : QueryCache β) :
    Option (List Record) × QueryCache β × List Event :=
  let outcome := Backend.get key cache.backend
  let cache := { cache with backend := outcome.store }
  match outcome.result with
  | .error error => (none, cache, outcome.events ++ [.readFailed key error.message])
  | .ok none => (none, cache, outcome.events ++ [.cacheMiss key])
  | .ok (some payload) =>
    match Record.listOfText? payload with
    | some records => (some records, cache, outcome.events ++ [.cacheHit key])
    | none => (none, cache, outcome.events ++ [.unreadable key])

/-- Carries out a command. -/
def carryOut (command : Command) (backend : β) : β × List Event :=
  match command with
  | .store key payload =>
    let outcome := Backend.set key payload backend
    match outcome.result with
    | .ok () => (outcome.store, outcome.events)
    | .error error => (outcome.store, outcome.events ++ [.writeFailed key error.message])
  | .remove keys =>
    let outcome := Backend.delete keys backend
    match outcome.result with
    | .ok () => (outcome.store, outcome.events)
    | .error error => (outcome.store, outcome.events ++ [.invalidationFailed error.message])

/-- The worker carries out the first command of its queue. -/
def step (cache : QueryCache β) : QueryCache β × List Event :=
  match cache.worker with
  | .live (command :: commands) =>
    let (backend, events) := carryOut command cache.backend
    ({ cache with backend := backend, worker := .live commands }, events)
  | _ => (cache, [])

/-- Carries out commands in order. -/
def carryOutAll : List Command → β → β × List Event
  | [], backend => (backend, [])
  | command :: commands, backend =>
    let (backend, events) := carryOut command backend
    let (backend, later) := carryOutAll commands backend
    (backend, events ++ later)

/-- Waits until everything queued is carried out.  Where a worker has died, a new one is started. -/
def settle (cache : QueryCache β) : QueryCache β × List Event :=
  match cache.worker with
  | .absent => (cache, [])
  | .dead => ({ cache with worker := .live [] }, [])
  | .live commands =>
    let (backend, events) := carryOutAll commands cache.backend
    ({ cache with backend := backend, worker := .live [] }, events)

end QueryCache

end FieldQuery.Cache
