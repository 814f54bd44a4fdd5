import FieldQuery.Cache.Observed
import FieldQuery.Proofs.Cache.Pending

/-!
# A backend that fails at times

While its backend is off a cache reads nothing, stores nothing and removes nothing, but its registry
changes all the same.  A removal that fails is not tried again, so the text that it was about stays
behind and is registered for no table any more.

Main definitions:

- `QueryCache.switch`: the backend is switched off or on.
- `QueryCache.leftBehind`: the moments that the texts left behind by failed removals are from.
- `QueryCache.Accounted`: every text has an origin, of now or of the moment it was left behind from.

Main statements: `Accounted.get`, `Accounted.store`, `Accounted.drop` and `Accounted.settle` say
what each operation, followed by the worker, does to the origins of the texts.
-/

namespace FieldQuery.Cache

namespace Command

instance (key : String) (command : Command) : Decidable (command.Removes key) :=
  match command with
  | .store _ _ => .isFalse id
  | .remove keys => inferInstanceAs (Decidable (key ∈ keys))

/-- Whether a command stores or removes a key. -/
def Names (key : String) : Command → Prop
  | .store stored _ => stored = key
  | .remove keys => key ∈ keys

instance (key : String) (command : Command) : Decidable (command.Names key) :=
  match command with
  | .store stored _ => inferInstanceAs (Decidable (stored = key))
  | .remove keys => inferInstanceAs (Decidable (key ∈ keys))

/-- The moment that a text left behind is from, when the worker comes to a command.  A removal that
fails leaves a text of the moment `before` behind, unless it is an older one. -/
def moment {σ : Type} (key : String) (off : Bool) (before : σ) (known : Option σ)
    (command : Command) : Option σ :=
  if off then known.or (if command.Removes key then some before else none)
  else if command.Names key then none
  else known

end Command

namespace QueryCache

/-- The backend is switched off or on. -/
def switch (off : Bool) (cache : QueryCache ObservedCache) : QueryCache ObservedCache :=
  { cache with backend := { cache.backend with down := off } }

/-- The text that the backend has for a key, whether or not it is on. -/
def held? (key : String) (cache : QueryCache ObservedCache) : Option String :=
  cache.backend.memory.peek? key

/-- For every text that a failed removal left behind, the moment that it is from, once the worker is
done; where a removal fails now, that is `before`. -/
def leftBehind {σ : Type} (before : σ) (known : String → Option σ)
    (cache : QueryCache ObservedCache) (key : String) : Option σ :=
  match cache.settle.1.held? key with
  | none => none
  | some _ => cache.queue.foldl (Command.moment key cache.backend.down before) (known key)

/-! ## Reading -/

/-- A cache reads what its backend has, and nothing while that is off. -/
theorem get_observed (key : String) (cache : QueryCache ObservedCache) :
    (cache.get key).1 =
      if cache.backend.down then none else (cache.held? key).bind Record.listOfText? := by
  rw [get_fst]
  by_cases hdown : cache.backend.down = true
  · simp [Backend.get, ObservedCache.carryOut, hdown, Except.toOption]
  · simp [Backend.get, ObservedCache.carryOut, hdown, held?, MemoryCache.get_fst, Except.toOption]

theorem memory_get (key : String) (backend : ObservedCache) :
    (Backend.get key backend).store.memory =
      if backend.down then backend.memory else (backend.memory.get key).2 := by
  by_cases hdown : backend.down = true
  · simp [Backend.get, ObservedCache.carryOut, hdown]
  · simp [Backend.get, ObservedCache.carryOut, hdown]

theorem held?_get (read key : String) (cache : QueryCache ObservedCache) :
    (cache.get read).2.1.held? key = cache.held? key := by
  unfold held?
  rw [get_cache]
  dsimp only
  rw [memory_get]
  by_cases hdown : cache.backend.down = true
  · rw [if_pos hdown]
  · rw [if_neg hdown, MemoryCache.peek?_get]

theorem fits_get (read : String) {cache : QueryCache ObservedCache}
    (h : cache.backend.memory.Fits) : (cache.get read).2.1.backend.memory.Fits := by
  rw [get_cache]
  dsimp only
  rw [memory_get]
  by_cases hdown : cache.backend.down = true
  · rwa [if_pos hdown]
  · rw [if_neg hdown]
    exact h.get read

/-! ## The worker -/

/-- While the backend is off a command changes nothing in it. -/
theorem memory_carryOut (command : Command) (backend : ObservedCache) :
    (carryOut command backend).1.memory =
      if backend.down then backend.memory else (carryOut command backend.memory).1 := by
  by_cases hdown : backend.down = true
  · cases command with
    | store key payload => simp [carryOut, Backend.set, ObservedCache.carryOut, hdown]
    | remove keys => simp [carryOut, Backend.delete, ObservedCache.carryOut, hdown]
  · cases command with
    | store key payload => simp [carryOut, Backend.set, ObservedCache.carryOut, hdown]
    | remove keys => simp [carryOut, Backend.delete, ObservedCache.carryOut, hdown]

theorem backend_settle (cache : QueryCache ObservedCache) :
    cache.settle.1.backend = (carryOutAll cache.queue cache.backend).1 := by
  unfold settle queue
  split
  · rename_i hworker
    rw [hworker]
    rfl
  · rename_i hworker
    rw [hworker]
    rfl
  · rename_i commands hworker
    rw [hworker]

theorem memory_settle_nil {cache : QueryCache ObservedCache} (h : cache.queue = []) :
    cache.settle.1.backend.memory = cache.backend.memory := by
  rw [backend_settle, h]
  rfl

theorem memory_settle_singleton {cache : QueryCache ObservedCache} {command : Command}
    (h : cache.queue = [command]) :
    cache.settle.1.backend.memory =
      if cache.backend.down then cache.backend.memory
      else (carryOut command cache.backend.memory).1 := by
  rw [backend_settle, h, ← memory_carryOut]
  rfl

theorem leftBehind_of_held {σ : Type} {cache : QueryCache ObservedCache} {key payload : String}
    (h : cache.settle.1.held? key = some payload) (before : σ) (known : String → Option σ) :
    cache.leftBehind before known key =
      cache.queue.foldl (Command.moment key cache.backend.down before) (known key) := by
  unfold leftBehind
  rw [h]

/-- No text is left behind by commands that remove none, nor while the backend is on. -/
theorem leftBehind_eq_none {σ : Type} {cache : QueryCache ObservedCache} {key : String} {before : σ}
    {known : String → Option σ} (hknown : known key = none)
    (hsafe : cache.backend.down = false ∨ ∀ command ∈ cache.queue, ¬command.Removes key) :
    cache.leftBehind before known key = none := by
  have hfold : ∀ commands : List Command,
      (cache.backend.down = false ∨ ∀ command ∈ commands, ¬command.Removes key) →
        commands.foldl (Command.moment key cache.backend.down before) none = none := by
    intro commands
    induction commands with
    | nil => exact fun _ => rfl
    | cons command commands ih =>
        intro hsafe
        have hhead : Command.moment key cache.backend.down before none command = none := by
          rcases hsafe with hon | hkeep
          · simp [Command.moment, hon]
          · simp [Command.moment, hkeep command List.mem_cons_self]
        rw [List.foldl_cons, hhead]
        exact ih (hsafe.imp_right fun hkeep c hc => hkeep c (List.mem_cons_of_mem _ hc))
  unfold leftBehind
  rw [hknown]
  split
  · rfl
  · exact hfold cache.queue hsafe

/-! ## Accounts -/

/-- Every text in the backend has an origin at some moment, which names tables.  Texts that were not
left behind are as of now, and their keys are registered for all of the tables. -/
structure Accounted {σ : Type}
    (origin : (moment : σ) → (key payload : String) → (tables : List String) → Prop)
    (cache : QueryCache ObservedCache) (now : σ) (left : String → Option σ) : Prop where
  fits : cache.backend.memory.Fits
  distinct : cache.registry.Distinct
  idle : cache.queue = []
  source : ∀ {key payload : String}, cache.held? key = some payload →
    ∃ tables, origin ((left key).getD now) key payload tables ∧
      (left key = none → ∀ table ∈ tables, key ∈ cache.registry.keys table)

namespace Accounted

variable {σ : Type} {origin : σ → String → String → List String → Prop}
  {cache : QueryCache ObservedCache} {now next : σ} {left : String → Option σ}

theorem fresh (capacity : Nat) (down : Bool) (calls : List BackendCall) :
    Accounted origin { backend := ⟨.empty capacity, down, calls⟩ } now left where
  fits := MemoryCache.fits_empty capacity
  distinct := Registry.distinct_empty
  idle := rfl
  source := by
    intro key payload h
    cases h

theorem get (h : Accounted origin cache now left) (read : String) :
    Accounted origin (cache.get read).2.1 now left where
  fits := fits_get read h.fits
  distinct := by
    rw [get_cache]
    exact h.distinct
  idle := by
    rw [get_cache]
    exact h.idle
  source := by
    intro key payload hheld
    rw [held?_get] at hheld
    rw [get_cache]
    exact h.source hheld

theorem switch (h : Accounted origin cache now left) (off : Bool) :
    Accounted origin (cache.switch off) now left where
  fits := h.fits
  distinct := h.distinct
  idle := h.idle
  source := h.source

/-- Time passes, and what comes from the present comes from the next moment too. -/
theorem pass (h : Accounted origin cache now left)
    (hnext : ∀ {key payload tables}, origin now key payload tables →
      (∀ table ∈ tables, key ∈ cache.registry.keys table) → origin next key payload tables) :
    Accounted origin cache next left where
  fits := h.fits
  distinct := h.distinct
  idle := h.idle
  source := by
    intro key payload hheld
    rcases h.source hheld with ⟨tables, horigin, hkeys⟩
    refine ⟨tables, ?_, hkeys⟩
    cases hleft : left key with
    | none => exact hnext (by rwa [hleft] at horigin) (hkeys hleft)
    | some moment => rwa [hleft] at horigin

/-- The worker has nothing to do. -/
theorem settle (h : Accounted origin cache now left) (before : σ) :
    Accounted origin cache.settle.1 now (cache.leftBehind before left) where
  fits := by
    rw [memory_settle_nil h.idle]
    exact h.fits
  distinct := by
    rw [registry_settle]
    exact h.distinct
  idle := queue_settle cache
  source := by
    intro key payload hheld
    have hleft : cache.leftBehind before left key = left key := by
      rw [leftBehind_of_held hheld, h.idle]
      rfl
    rw [hleft, registry_settle]
    unfold held? at hheld
    rw [memory_settle_nil h.idle] at hheld
    exact h.source hheld

/-- The worker has a single command to carry out, behind a change of the registry. -/
theorem carry (h : Accounted origin cache now left) {registry : Registry}
    (hdistinct : registry.Distinct) (command : Command) (off : Bool) (before : σ)
    (hsource : ∀ {key payload : String},
      (if off then cache.held? key else command.effect key (cache.held? key)) = some payload →
        ∃ tables, origin ((command.moment key off before (left key)).getD next) key payload tables ∧
          (command.moment key off before (left key) = none →
            ∀ table ∈ tables, key ∈ registry.keys table)) :
    let front := { cache with registry := registry, worker := .live [command] }.switch off
    Accounted origin front.settle.1 next (front.leftBehind before left) := by
  intro front
  have hqueue : front.queue = [command] := rfl
  have hmemory : front.settle.1.backend.memory =
      if off then cache.backend.memory else (carryOut command cache.backend.memory).1 :=
    memory_settle_singleton hqueue
  refine ⟨?_, ?_, queue_settle front, ?_⟩
  · rw [hmemory]
    cases off with
    | true => exact h.fits
    | false => exact fits_carryOut command h.fits
  · rw [registry_settle]
    exact hdistinct
  · intro key payload hheld
    have hleft : front.leftBehind before left key = command.moment key off before (left key) :=
      leftBehind_of_held hheld before left
    rw [hleft, registry_settle]
    unfold held? at hheld
    rw [hmemory] at hheld
    refine hsource ?_
    cases off with
    | true => exact hheld
    | false => exact peek?_carryOut command h.fits hheld

/-- The rows of a key are stored, or the backend is off and its text stays as it is. -/
theorem store (h : Accounted origin cache now left) {tables : List String} {key : String}
    {records : List Record} (hstored : origin now key (Record.listToJson records).text tables)
    (off : Bool) (before : σ) :
    let front := (cache.set true tables key records).1.switch off
    Accounted origin front.settle.1 now (front.leftBehind before left) := by
  rw [set_live, h.idle]
  refine h.carry (h.distinct.register key tables) _ off before ?_
  intro other payload hheld
  have hkeys : ∀ table, other ∈ (cache.registry.register tables key).keys table ↔
      other ∈ cache.registry.keys table ∨ other = key ∧ table ∈ tables :=
    fun table => Registry.mem_keys_register key table other tables cache.registry
  have hkept : cache.held? other = some payload →
      ∃ others, origin ((left other).getD now) other payload others ∧ (left other = none →
        ∀ table ∈ others, other ∈ (cache.registry.register tables key).keys table) := by
    intro hheld
    rcases h.source hheld with ⟨others, horigin, hothers⟩
    exact ⟨others, horigin, fun hnone table htable =>
      (hkeys table).2 (.inl (hothers hnone table htable))⟩
  cases off with
  | true =>
      have hmoment : Command.moment other true before (left other)
          (.store key (Record.listToJson records).text) = left other := by
        simp [Command.moment, Command.Removes]
      rw [hmoment]
      exact hkept hheld
  | false =>
      by_cases hkey : key = other
      · have hmoment : Command.moment other false before (left other)
            (.store key (Record.listToJson records).text) = none := by
          simp [Command.moment, Command.Names, hkey]
        have hpayload : payload = (Record.listToJson records).text := by
          simpa [Command.effect, hkey, eq_comm] using hheld
        rw [hmoment, hpayload, ← hkey]
        exact ⟨tables, hstored, fun _ table htable =>
          hkey ▸ (hkeys table).2 (.inr ⟨hkey.symm, htable⟩)⟩
      · have hmoment : Command.moment other false before (left other)
            (.store key (Record.listToJson records).text) = left other := by
          simp [Command.moment, Command.Names, hkey]
        rw [hmoment]
        exact hkept (by simpa [Command.effect, hkey] using hheld)

/-- The keys of tables are dropped, or the backend is off and their texts are left behind. -/
theorem drop (h : Accounted origin cache now left) {dropped : List String}
    (hkept : ∀ {key payload tables}, (∀ table ∈ dropped, table ∉ tables) →
      origin now key payload tables → origin next key payload tables) (off : Bool) :
    let front := (cache.dropEntries true dropped).1.switch off
    Accounted origin front.settle.1 next (front.leftBehind now left) := by
  -- a text that is as of now and whose key is not dropped is as of the next moment
  have hpass : ∀ {key payload tables}, key ∉ cache.registry.keysFor dropped →
      origin now key payload tables → (∀ table ∈ tables, key ∈ cache.registry.keys table) →
        origin next key payload tables := by
    intro key payload tables hkey horigin hkeys
    refine hkept (fun table htable hmine => hkey ?_) horigin
    exact Registry.mem_keysFor.2 ⟨table, htable, hkeys table hmine⟩
  by_cases hkeys : cache.registry.keysFor dropped = []
  · rw [dropEntries_of_no_key dropped hkeys]
    have hnext : Accounted origin cache next left :=
      h.pass (hpass (by rw [hkeys]; exact List.not_mem_nil))
    exact (hnext.switch off).settle now
  · rw [dropEntries_of_keys dropped hkeys, h.idle]
    refine h.carry (h.distinct.forget _) _ off now ?_
    intro key payload hheld
    have hheld' : cache.held? key = some payload := by
      cases off with
      | true => exact hheld
      | false =>
          by_cases hkey : key ∈ cache.registry.keysFor dropped
          · simp [Command.effect, hkey] at hheld
          · simpa [Command.effect, hkey] using hheld
    rcases h.source hheld' with ⟨tables, horigin, hregistered⟩
    by_cases hkey : key ∈ cache.registry.keysFor dropped
    · cases off with
      | true =>
          have hmoment : Command.moment key true now (left key)
              (.remove (cache.registry.keysFor dropped)) = some ((left key).getD now) := by
            cases hleft : left key <;> simp [Command.moment, Command.Removes, hkey]
          rw [hmoment]
          refine ⟨tables, horigin, fun hnone => by cases hnone⟩
      | false => simp [Command.effect, hkey] at hheld
    · have hmoment : Command.moment key off now (left key)
          (.remove (cache.registry.keysFor dropped)) = left key := by
        simp [Command.moment, Command.Removes, Command.Names, hkey]
      rw [hmoment]
      refine ⟨tables, ?_, ?_⟩
      · cases hleft : left key with
        | none =>
            rw [hleft] at horigin
            exact hpass hkey horigin (hregistered hleft)
        | some moment => rwa [hleft] at horigin
      · intro hnone table htable
        exact (Registry.mem_keys_forget h.distinct _ table key).2
          ⟨hregistered hnone table htable, hkey⟩

end Accounted

end QueryCache

end FieldQuery.Cache
