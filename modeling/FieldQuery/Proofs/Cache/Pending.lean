import FieldQuery.Cache.Basic
import FieldQuery.Proofs.Cache.Memory
import FieldQuery.Proofs.Cache.Registry

/-!
# What is due to a key

Setting and dropping change the registry at once and the backend only when the worker gets there,
so what counts for a key is what the backend will hold for it when the queue is carried out.  The
runtime lives throughout, and the backend is a cache in memory.

Main definitions:

- `QueryCache.takes`: whether a command reaches the queue.
- `QueryCache.due`: what the backend will hold for a key.
- `QueryCache.Backed`: whatever is due has an origin, and its key is registered for all tables that
  the origin names.

Main statements: `Backed.get`, `Backed.step`, `Backed.set` and `Backed.drop` say what each
operation does to the origins.
-/

namespace FieldQuery.Cache

/-- Whether a command takes a key out of the backend. -/
def Command.Removes (key : String) : Command → Prop
  | .store _ _ => False
  | .remove keys => key ∈ keys

/-- What a command makes of the text under a key, where nothing is evicted. -/
def Command.effect (key : String) (held : Option String) : Command → Option String
  | .store stored payload => if stored = key then some payload else held
  | .remove keys => if key ∈ keys then none else held

/-- What commands in order make of the text under a key. -/
def effects (key : String) (held : Option String) (commands : List Command) : Option String :=
  commands.foldl (Command.effect key) held

theorem effects_append (key : String) (held : Option String) (front back : List Command) :
    effects key held (front ++ back) = effects key (effects key held front) back :=
  List.foldl_append

theorem effects_cons (key : String) (held : Option String) (command : Command)
    (commands : List Command) :
    effects key held (command :: commands) = effects key (command.effect key held) commands := rfl

/-- A command leaves what is under a key alone, or what it makes of it does not depend on that. -/
theorem effect_cases (key : String) (command : Command) :
    (∀ held, command.effect key held = held) ∨
      ∃ outcome, ∀ held, command.effect key held = outcome := by
  cases command with
  | store stored payload =>
      by_cases hkey : stored = key
      · exact .inr ⟨some payload, fun held => if_pos hkey⟩
      · exact .inl fun held => if_neg hkey
  | remove keys =>
      by_cases hkey : key ∈ keys
      · exact .inr ⟨none, fun held => if_pos hkey⟩
      · exact .inl fun held => if_neg hkey

/-- What is due to a key that has no text is also due to it if it has one. -/
theorem effects_of_none {key payload : String} {commands : List Command} (held : Option String)
    (h : effects key none commands = some payload) : effects key held commands = some payload := by
  induction commands generalizing held with
  | nil => cases h
  | cons command commands ih =>
      rw [effects_cons] at h ⊢
      -- from the first command on that tells what is under the key, both runs agree
      rcases effect_cases key command with hsame | ⟨outcome, houtcome⟩
      · rw [hsame] at h ⊢
        exact ih held h
      · rw [houtcome] at h ⊢
        exact h

/-- Commands that do not remove a key leave it with a text, if it had one. -/
theorem isSome_effects {key : String} {commands : List Command} {held : Option String}
    (hheld : held.isSome) (hkeep : ∀ command ∈ commands, ¬command.Removes key) :
    (effects key held commands).isSome := by
  induction commands generalizing held with
  | nil => exact hheld
  | cons command commands ih =>
      have hrest := fun c hc => hkeep c (List.mem_cons_of_mem _ hc)
      have hhead := hkeep command List.mem_cons_self
      rw [effects_cons]
      refine ih ?_ hrest
      cases command with
      | store stored text =>
          by_cases hkey : stored = key
          · simp [Command.effect, hkey]
          · simpa [Command.effect, hkey] using hheld
      | remove keys =>
          have hnot : key ∉ keys := hhead
          simpa [Command.effect, hnot] using hheld

namespace QueryCache

section Queue

variable {β : Type}

/-- Whether a command reaches the queue: a worker lives, or there is a runtime to start one in. -/
def takes (runtime : Bool) (cache : QueryCache β) : Bool :=
  match cache.worker with
  | .live _ => true
  | _ => runtime

theorem enqueue_eq (runtime : Bool) (command : Command) (cache : QueryCache β) :
    cache.enqueue runtime command =
      if cache.takes runtime then
        ({ cache with worker := .live (cache.queue ++ [command]) }, [])
      else ({ cache with worker := .absent }, [.commandDropped]) := by
  unfold enqueue takes queue
  cases cache.worker with
  | live commands => rfl
  | absent => cases runtime <;> rfl
  | dead => cases runtime <;> rfl

/-- In a living runtime every command reaches the queue. -/
theorem enqueue_live (command : Command) (cache : QueryCache β) :
    (cache.enqueue true command).1 = { cache with worker := .live (cache.queue ++ [command]) } := by
  have htakes : cache.takes true = true := by
    unfold takes
    split <;> rfl
  rw [enqueue_eq, if_pos htakes]

theorem set_live (tables : List String) (key : String) (records : List Record)
    (cache : QueryCache β) :
    (cache.set true tables key records).1 =
      { cache with
        registry := cache.registry.register tables key
        worker := .live (cache.queue ++ [.store key (Record.listToJson records).text]) } :=
  enqueue_live _ _

theorem dropEntries_eq (runtime : Bool) (tables : List String) (cache : QueryCache β) :
    let keys := cache.registry.keysFor tables
    cache.dropEntries runtime tables =
      if keys = [] then (cache, [])
      else
        let asked := { cache with registry := cache.registry.forget keys }.enqueue runtime
          (.remove keys)
        (asked.1, .invalidating tables keys.length :: asked.2) := by
  intro keys
  unfold dropEntries
  split
  · rename_i hnone
    rw [if_pos hnone]
  · rename_i hsome
    rw [if_neg hsome]

theorem dropEntries_of_keys (tables : List String) {cache : QueryCache β}
    (h : cache.registry.keysFor tables ≠ []) :
    (cache.dropEntries true tables).1 =
      { cache with
        registry := cache.registry.forget (cache.registry.keysFor tables)
        worker := .live (cache.queue ++ [.remove (cache.registry.keysFor tables)]) } := by
  rw [dropEntries_eq, if_neg h]
  exact enqueue_live _ _

theorem dropEntries_of_no_key (tables : List String) {cache : QueryCache β}
    (h : cache.registry.keysFor tables = []) : (cache.dropEntries true tables).1 = cache := by
  rw [dropEntries_eq, if_pos h]

theorem backend_dropEntries (tables : List String) (cache : QueryCache β) :
    (cache.dropEntries true tables).1.backend = cache.backend := by
  by_cases h : cache.registry.keysFor tables = []
  · rw [dropEntries_of_no_key tables h]
  · rw [dropEntries_of_keys tables h]

/-- A dropped key is registered for no table any more, and the others stay registered. -/
theorem mem_keys_dropEntries (tables : List String) {cache : QueryCache β}
    (hdistinct : cache.registry.Distinct) (table key : String) :
    key ∈ (cache.dropEntries true tables).1.registry.keys table ↔
      key ∈ cache.registry.keys table ∧ key ∉ cache.registry.keysFor tables := by
  by_cases h : cache.registry.keysFor tables = []
  · rw [dropEntries_of_no_key tables h]
    simp [h]
  · rw [dropEntries_of_keys tables h]
    exact Registry.mem_keys_forget hdistinct _ table key

theorem distinct_dropEntries (tables : List String) {cache : QueryCache β}
    (hdistinct : cache.registry.Distinct) :
    (cache.dropEntries true tables).1.registry.Distinct := by
  by_cases h : cache.registry.keysFor tables = []
  · rwa [dropEntries_of_no_key tables h]
  · rw [dropEntries_of_keys tables h]
    exact hdistinct.forget _

/-- A cache reads the text that its backend finds, where it can be read. -/
theorem get_fst [Backend β] (key : String) (cache : QueryCache β) :
    (cache.get key).1 =
      (Backend.get key cache.backend).result.toOption.join.bind Record.listOfText? := by
  unfold get
  dsimp only
  cases (Backend.get key cache.backend).result with
  | error error => rfl
  | ok found =>
      cases found with
      | none => rfl
      | some payload =>
          dsimp only [Except.toOption, Option.join_some, Option.bind_some]
          cases Record.listOfText? payload with
          | none => rfl
          | some records => rfl

/-- Reading changes nothing but the backend. -/
theorem get_cache [Backend β] (read : String) (cache : QueryCache β) :
    (cache.get read).2.1 = { cache with backend := (Backend.get read cache.backend).store } := by
  unfold get
  dsimp only
  split
  · rfl
  · rfl
  · split
    · rfl
    · rfl

theorem worker_of_queue {cache : QueryCache β} {command : Command} {commands : List Command}
    (h : cache.queue = command :: commands) : cache.worker = .live (command :: commands) := by
  unfold queue at h
  split at h
  · rename_i heq
    rw [heq, h]
  · cases h

end Queue

/-! ## The worker -/

section Worker

variable {β : Type} [Backend β] {cache : QueryCache β}

theorem step_live {command : Command} {commands : List Command}
    (h : cache.worker = .live (command :: commands)) :
    cache.step.1 =
      { cache with
        backend := (carryOut command cache.backend).1
        worker := .live commands } := by
  unfold step
  rw [h]

theorem step_of_queue_nil (h : cache.queue = []) : cache.step.1 = cache := by
  unfold step
  split
  · rename_i command commands hworker
    simp [queue, hworker] at h
  · rfl

theorem queue_step : cache.step.1.queue = cache.queue.tail := by
  cases hqueue : cache.queue with
  | nil =>
      rw [step_of_queue_nil hqueue, hqueue]
      rfl
  | cons command commands =>
      rw [step_live (worker_of_queue hqueue)]
      rfl

theorem registry_step : cache.step.1.registry = cache.registry := by
  cases hqueue : cache.queue with
  | nil => rw [step_of_queue_nil hqueue]
  | cons command commands => rw [step_live (worker_of_queue hqueue)]

theorem registry_settle (cache : QueryCache β) :
    cache.settle.1.registry = cache.registry := by
  unfold settle
  split
  · rfl
  · rfl
  · rfl

theorem queue_settle (cache : QueryCache β) : cache.settle.1.queue = [] := by
  unfold settle
  split
  · rename_i hworker
    simp [queue, hworker]
  · rfl
  · rfl

end Worker

section Memory

variable {cache : QueryCache MemoryCache}

/-- What the backend will hold for a key when the queue is carried out, unless it is evicted. -/
def due (key : String) (cache : QueryCache MemoryCache) : Option String :=
  effects key (cache.backend.peek? key) cache.queue

/-- A key that is in the backend or waits to be stored, and that nothing queued behind removes. -/
def Outstanding (key : String) (cache : QueryCache MemoryCache) : Prop :=
  ((cache.backend.peek? key).isSome ∧ ∀ command ∈ cache.queue, ¬command.Removes key) ∨
    ∃ earlier payload later, cache.queue = earlier ++ .store key payload :: later ∧
      ∀ command ∈ later, ¬command.Removes key

theorem Outstanding.isSome_due {key : String} (h : cache.Outstanding key) :
    (cache.due key).isSome := by
  rcases h with ⟨hheld, hkeep⟩ | ⟨earlier, payload, later, hqueue, hkeep⟩
  · exact isSome_effects hheld hkeep
  · unfold due
    rw [hqueue, effects_append]
    have hstored : effects key (effects key (cache.backend.peek? key) earlier)
        (.store key payload :: later) = effects key (some payload) later := by
      simp [effects, Command.effect]
    rw [hstored]
    exact isSome_effects rfl hkeep

theorem due_set (tables : List String) (stored : String) (records : List Record) (key : String) :
    (cache.set true tables stored records).1.due key =
      if stored = key then some (Record.listToJson records).text else cache.due key := by
  unfold due
  rw [set_live]
  exact effects_append key _ cache.queue [_]

theorem due_dropEntries (tables : List String) (key : String) :
    (cache.dropEntries true tables).1.due key =
      if key ∈ cache.registry.keysFor tables then none else cache.due key := by
  by_cases h : cache.registry.keysFor tables = []
  · rw [dropEntries_of_no_key tables h]
    simp [h]
  · unfold due
    rw [dropEntries_of_keys tables h]
    exact effects_append key _ cache.queue [_]

/-! ## Reading -/

theorem get_memory (key : String) (cache : QueryCache MemoryCache) :
    (cache.get key).1 = (cache.backend.peek? key).bind Record.listOfText? := by
  rw [get_fst, ← MemoryCache.get_fst]
  rfl

theorem due_get (read key : String) : (cache.get read).2.1.due key = cache.due key := by
  have hqueue : (cache.get read).2.1.queue = cache.queue := by rw [get_cache]; rfl
  have hpeek : (cache.get read).2.1.backend.peek? key = cache.backend.peek? key := by
    rw [get_cache]
    exact MemoryCache.peek?_get cache.backend read key
  unfold due
  rw [hqueue, hpeek]

/-! ## The worker -/

theorem carryOut_remove (keys : List String) (memory : MemoryCache) :
    (carryOut (.remove keys) memory).1 = memory.delete keys := rfl

theorem fits_carryOut (command : Command) {memory : MemoryCache} (h : memory.Fits) :
    (carryOut command memory).1.Fits := by
  cases command with
  | store key payload => exact h.set key payload
  | remove keys => exact MemoryCache.Fits.delete keys h

/-- A command has its effect on a key, or the key's text is evicted. -/
theorem peek?_carryOut (command : Command) {memory : MemoryCache} (h : memory.Fits)
    {key found : String} (hfound : (carryOut command memory).1.peek? key = some found) :
    command.effect key (memory.peek? key) = some found := by
  cases command with
  | store stored payload =>
      have hset := MemoryCache.peek?_set h stored payload key found hfound
      simpa [Command.effect, eq_comm] using hset
  | remove keys =>
      rw [carryOut_remove, MemoryCache.peek?_delete] at hfound
      exact hfound

theorem fits_step (hfits : cache.backend.Fits) : cache.step.1.backend.Fits := by
  cases hqueue : cache.queue with
  | nil => rwa [step_of_queue_nil hqueue]
  | cons command commands =>
      rw [step_live (worker_of_queue hqueue)]
      exact fits_carryOut command hfits

/-- A step of the worker brings nothing about that was not due. -/
theorem due_step (hfits : cache.backend.Fits) {key payload : String}
    (h : cache.step.1.due key = some payload) : cache.due key = some payload := by
  cases hqueue : cache.queue with
  | nil => rwa [step_of_queue_nil hqueue] at h
  | cons command commands =>
      have hcons : cache.due key =
          effects key (command.effect key (cache.backend.peek? key)) commands := by
        rw [due, hqueue]
        rfl
      rw [step_live (worker_of_queue hqueue)] at h
      rw [hcons]
      cases hfound : (carryOut command cache.backend).1.peek? key with
      | none =>
          rw [due, hfound] at h
          exact effects_of_none _ h
      | some found =>
          rw [due, hfound] at h
          rwa [peek?_carryOut command hfits hfound]

/-- Where nothing waits in the queue, what is due is what the backend holds. -/
theorem due_of_queue_nil (h : cache.queue = []) (key : String) :
    cache.due key = cache.backend.peek? key := by
  rw [due, h]
  rfl

end Memory

/-- A cache that nothing has been stored in. -/
def fresh (capacity : Nat) : QueryCache MemoryCache :=
  { backend := .empty capacity }

/-! ## Origins -/

/-- What is due to a key has an origin, which names tables, and the key is registered for each of
them. -/
structure Backed (origin : (key payload : String) → (tables : List String) → Prop)
    (cache : QueryCache MemoryCache) : Prop where
  fits : cache.backend.Fits
  distinct : cache.registry.Distinct
  due : ∀ {key payload : String}, cache.due key = some payload →
    ∃ tables, origin key payload tables ∧ ∀ table ∈ tables, key ∈ cache.registry.keys table

namespace Backed

variable {origin next : String → String → List String → Prop} {cache : QueryCache MemoryCache}

/-- Nothing is due in a cache that nothing has been stored in. -/
theorem fresh (capacity : Nat) : Backed origin (QueryCache.fresh capacity) where
  fits := MemoryCache.fits_empty capacity
  distinct := Registry.distinct_empty
  due := by
    intro key payload h
    cases h

theorem mono (h : Backed origin cache)
    (hnext : ∀ {key payload tables}, origin key payload tables → next key payload tables) :
    Backed next cache where
  fits := h.fits
  distinct := h.distinct
  due := by
    intro key payload hdue
    rcases h.due hdue with ⟨tables, horigin, hkeys⟩
    exact ⟨tables, hnext horigin, hkeys⟩

theorem get (h : Backed origin cache) (read : String) : Backed origin (cache.get read).2.1 where
  fits := by
    rw [get_cache]
    exact h.fits.get read
  distinct := by
    rw [get_cache]
    exact h.distinct
  due := by
    intro key payload hdue
    rw [due_get] at hdue
    rw [get_cache]
    exact h.due hdue

theorem step (h : Backed origin cache) : Backed origin cache.step.1 where
  fits := fits_step h.fits
  distinct := by
    rw [registry_step]
    exact h.distinct
  due := by
    intro key payload hdue
    rw [registry_step]
    exact h.due (due_step h.fits hdue)

/-- Setting gives one key a new origin and leaves those of the others. -/
theorem set (h : Backed origin cache) {tables : List String} {stored : String}
    {records : List Record} (hstored : next stored (Record.listToJson records).text tables)
    (hothers : ∀ {key payload tables}, key ≠ stored → origin key payload tables →
      next key payload tables) :
    Backed next (cache.set true tables stored records).1 where
  fits := by
    rw [set_live]
    exact h.fits
  distinct := by
    rw [set_live]
    exact h.distinct.register stored tables
  due := by
    intro key payload hdue
    have hmem : ∀ table, key ∈ (cache.set true tables stored records).1.registry.keys table ↔
        key ∈ cache.registry.keys table ∨ key = stored ∧ table ∈ tables := by
      intro table
      rw [set_live]
      exact Registry.mem_keys_register stored table key tables cache.registry
    rw [due_set] at hdue
    by_cases hkey : stored = key
    · rw [if_pos hkey, Option.some.injEq] at hdue
      subst hkey
      subst hdue
      exact ⟨tables, hstored, fun table htable => (hmem table).2 (.inr ⟨rfl, htable⟩)⟩
    · rw [if_neg hkey] at hdue
      rcases h.due hdue with ⟨others, horigin, hkeys⟩
      exact ⟨others, hothers (Ne.symm hkey) horigin,
        fun table htable => (hmem table).2 (.inl (hkeys table htable))⟩

/-- What is still due behind a drop has an origin that names none of the dropped tables. -/
theorem drop (h : Backed origin cache) {dropped : List String}
    (hkept : ∀ {key payload tables}, (∀ table ∈ dropped, table ∉ tables) →
      origin key payload tables → next key payload tables) :
    Backed next (cache.dropEntries true dropped).1 where
  fits := by
    rw [backend_dropEntries]
    exact h.fits
  distinct := distinct_dropEntries dropped h.distinct
  due := by
    intro key payload hdue
    rw [due_dropEntries] at hdue
    by_cases hkey : key ∈ cache.registry.keysFor dropped
    · rw [if_pos hkey] at hdue
      cases hdue
    · rw [if_neg hkey] at hdue
      rcases h.due hdue with ⟨tables, horigin, hkeys⟩
      -- a table of the key would have brought it among the dropped keys
      have hnone : ∀ table ∈ dropped, table ∉ tables := fun table htable hmine =>
        hkey (Registry.mem_keysFor.2 ⟨table, htable, hkeys table hmine⟩)
      exact ⟨tables, hkept hnone horigin, fun table htable =>
        (mem_keys_dropEntries dropped h.distinct table key).2 ⟨hkeys table htable, hkey⟩⟩

end Backed

end QueryCache

end FieldQuery.Cache
