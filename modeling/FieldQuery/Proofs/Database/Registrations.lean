import FieldQuery.Proofs.Cache.Loss
import FieldQuery.Proofs.Database.Outage
import FieldQuery.Proofs.Database.Staleness

/-!
# What served keys are registered for

A key tells the text and the values of a statement, and not which tables a plan declares.  Plans
that differ in their tables alone share a key; it is registered for the tables of the plans whose
rows were stored, and a plan that is served from the cache adds none of its own.

Main definitions:

- `Database.handleAll`: requests in order, each followed by the worker.
- `StoredBy`: a read of the run stored rows, and no change has dropped their key since.

Main statement: `served_registered_iff`.
-/

namespace FieldQuery

open Cache

namespace Database

variable {σ : Type} [Executor σ]

/-- A request is answered, and the worker catches up. -/
def handle (db : Database σ MemoryCache) : Request → Database σ MemoryCache
  | .read read => (db.select read.plan).2.settle
  | .change change => (db.write change.plan change.kind).2.settle

/-- Requests in order. -/
def handleAll (db : Database σ MemoryCache) (requests : List Request) : Database σ MemoryCache :=
  requests.foldl handle db

/-- The keys that are registered for a table. -/
def registered (db : Database σ MemoryCache) (table : String) : List String :=
  (db.cache.map (·.registry.keys table)).getD []

/-- A read is cached and finds nothing, so that the executor's rows are stored. -/
structure Stores (db : Database σ MemoryCache) (read : Read) (records : List Record) : Prop where
  cacheable : read.plan.cacheable = true
  missed : (db.lookUp read.plan read.key).1 = none
  rows : read.rows db.executor = .ok records

/-- A change succeeds, and a key is registered for its table. -/
def Evicts (db : Database σ MemoryCache) (change : Change) (key : String) : Prop :=
  (∃ affected, change.affected db.executor = .ok affected) ∧ key ∈ db.registered change.table

variable {db : Database σ MemoryCache} {cache : QueryCache MemoryCache}

theorem handleAll_append (front back : List Request) :
    db.handleAll (front ++ back) = (db.handleAll front).handleAll back :=
  List.foldl_append

omit [Executor σ] in
theorem registered_of_cache (hcache : db.cache = some cache) (table : String) :
    db.registered table = cache.registry.keys table := by
  unfold registered
  rw [hcache]
  rfl

omit [Executor σ] in
theorem stored?_of_cache (hcache : db.cache = some cache) (key : String) :
    db.stored? key = cache.backend.peek? key := by
  unfold stored?
  rw [hcache]
  rfl

/-- A read stores the executor's rows, or leaves the cache as it is but for what was used last. -/
theorem cache_handle_read (hcache : db.cache = some cache) (read : Read) :
    (∃ records, db.Stores read records ∧ (db.handle (.read read)).cache =
        some ((cache.get read.key).2.1.set true read.plan.touched read.key records).1.settle.1) ∨
      (∀ records, ¬db.Stores read records) ∧
        ∃ looked, (looked = cache ∨ looked = (cache.get read.key).2.1) ∧
          (db.handle (.read read)).cache = some looked.settle.1 := by
  unfold handle
  cases hcacheable : read.plan.cacheable with
  | false =>
      have huncached : (db.cache.isSome && read.plan.cacheable) = false := by
        rw [hcacheable, Bool.and_false]
      have hasked : (db.select read.plan).2.cache = some cache := by
        rw [select_uncached huncached]
        exact (cache_ask db read).trans hcache
      refine .inr ⟨fun records hstores => ?_, cache, .inl rfl, cache_settle hasked⟩
      exact absurd (hcacheable.symm.trans hstores.cacheable) Bool.false_ne_true
  | true =>
      have hcached : (db.cache.isSome && read.plan.cacheable) = true := by
        rw [hcache, hcacheable]
        rfl
      have hlooked := cache_lookUp hcache read.plan read.key
      have hexecutor := executor_lookUp db read.plan read.key
      have hstores : ∀ records, db.Stores read records →
          (db.lookUp read.plan read.key).1 = none := fun _ h => h.missed
      have hmissed : ∀ records, (db.lookUp read.plan read.key).1 = none →
          read.rows db.executor = .ok records → db.Stores read records :=
        fun _ hnone hrows => ⟨hcacheable, hnone, hrows⟩
      have hrows : ∀ records, db.Stores read records → read.rows db.executor = .ok records :=
        fun _ h => h.rows
      simp only [select_eq hcached]
      generalize db.lookUp read.plan read.key = looked at *
      rcases looked with ⟨found, behind⟩
      cases found with
      | some models =>
          refine .inr ⟨fun records h => ?_, _, .inr rfl, cache_settle hlooked⟩
          cases hstores records h
      | none =>
          -- the executor is asked in the state that it had before
          have hasked : (behind.ask read).2.cache = some (cache.get read.key).2.1 :=
            (cache_ask behind read).trans hlooked
          have hanswer : (behind.ask read).1 = read.rows db.executor := by
            rw [← hexecutor]
            rfl
          dsimp only
          generalize behind.ask read = answer at hasked hanswer ⊢
          rcases answer with ⟨rows, asked⟩
          dsimp only at hasked hanswer ⊢
          cases rows with
          | error error =>
              refine .inr ⟨fun records h => ?_, _, .inr rfl, cache_settle hasked⟩
              cases hanswer.trans (hrows records h)
          | ok records =>
              exact .inl ⟨records, hmissed records rfl hanswer.symm,
                cache_settle (cache_remember hasked ..)⟩

/-- A change that succeeds drops the keys of its table, and one that fails drops nothing. -/
theorem cache_handle_change (hcache : db.cache = some cache) (change : Change) :
    ((∃ affected, change.affected db.executor = .ok affected) ∧
        (db.handle (.change change)).cache =
          some (cache.dropEntries true [change.table]).1.settle.1) ∨
      (∀ affected, change.affected db.executor ≠ .ok affected) ∧
        (db.handle (.change change)).cache = some cache.settle.1 := by
  unfold handle
  cases haffected : change.affected db.executor with
  | ok affected =>
      exact .inl ⟨⟨affected, rfl⟩, cache_settle (write_snd hcache haffected).2⟩
  | error error =>
      refine .inr ⟨fun affected h => (by cases h), ?_⟩
      have hcarried : (db.carryOut change).2.cache = some cache :=
        (cache_carryOut db change).trans hcache
      have hfailed : (db.carryOut change).1 = .error error := haffected
      dsimp only
      rw [write_eq]
      generalize db.carryOut change = carried at hcarried hfailed ⊢
      rcases carried with ⟨result, behind⟩
      dsimp only at hcarried hfailed ⊢
      rw [hfailed]
      exact cache_settle hcarried

end Database

/-! ## Rows that were stored and not dropped -/

section Runs

variable {σ : Type} [Executor σ] {db : Database σ MemoryCache}

/-- A read of the run stored rows under a key, and no change behind it dropped the key. -/
def StoredBy (db : Database σ MemoryCache) (requests : List Request) (key : String)
    (read : Read) (records : List Record) : Prop :=
  read.key = key ∧ ∃ earlier later, requests = earlier ++ .read read :: later ∧
    (db.handleAll earlier).Stores read records ∧
    ∀ front change back, later = front ++ .change change :: back →
      ¬(db.handleAll (earlier ++ .read read :: front)).Evicts change key

/-- One more request stores rows itself, or leaves those that it does not drop. -/
theorem storedBy_snoc {requests : List Request} {request : Request} {key : String} {read : Read}
    {records : List Record} :
    StoredBy db (requests ++ [request]) key read records ↔
      request = .read read ∧ read.key = key ∧ (db.handleAll requests).Stores read records ∨
        StoredBy db requests key read records ∧
          ∀ change, request = .change change → ¬(db.handleAll requests).Evicts change key := by
  constructor
  · rintro ⟨hkey, earlier, later, hsplit, hstores, hkept⟩
    -- the read is the last request, or another one came behind it
    rcases List.eq_nil_or_concat' later with rfl | ⟨between, last, rfl⟩
    · have hparts := List.append_inj' hsplit rfl
      cases hparts.1
      cases hparts.2
      exact .inl ⟨rfl, hkey, hstores⟩
    · have hsplit' : requests ++ [request] = (earlier ++ .read read :: between) ++ [last] := by
        simp [hsplit]
      have hparts := List.append_inj' hsplit' rfl
      cases hparts.1
      cases hparts.2
      refine .inr ⟨⟨hkey, earlier, between, rfl, hstores, fun front change back hback => ?_⟩, ?_⟩
      · exact hkept front change (back ++ [request]) (by simp [hback])
      · rintro change rfl
        exact hkept between change [] rfl
  · rintro (⟨rfl, hkey, hstores⟩ | ⟨⟨hkey, earlier, later, rfl, hstores, hkept⟩, hlast⟩)
    · refine ⟨hkey, requests, [], rfl, hstores, fun front change back hnil => ?_⟩
      simp at hnil
    · refine ⟨hkey, earlier, later ++ [request], by simp, hstores, ?_⟩
      intro front change back hsplit
      rcases List.eq_nil_or_concat' back with rfl | ⟨between, last, rfl⟩
      · have hparts := List.append_inj' hsplit rfl
        cases hparts.1
        cases hparts.2
        exact hlast change rfl
      · have hsplit' : later ++ [request] = (front ++ .change change :: between) ++ [last] := by
          simp [hsplit]
        have hparts := List.append_inj' hsplit' rfl
        exact hkept front change between hparts.1

/-- Where the texts in the backend come from, and which keys the registry lists. -/
structure Settled (db : Database σ MemoryCache) (requests : List Request)
    (cache : QueryCache MemoryCache) : Prop where
  found : (db.handleAll requests).cache = some cache
  idle : cache.queue = []
  sound : cache.Sound
  source : ∀ {key payload}, cache.due key = some payload → ∃ read records,
    StoredBy db requests key read records ∧ payload = (Record.listToJson records).text
  keys : ∀ {key table}, key ∈ cache.registry.keys table ↔
    ∃ read records, StoredBy db requests key read records ∧ table ∈ read.plan.touched

namespace Settled

variable {requests : List Request} {cache : QueryCache MemoryCache}

theorem fresh {capacity : Nat} (h : db.cache = some (QueryCache.fresh capacity)) :
    Settled db [] (QueryCache.fresh capacity) where
  found := h
  idle := rfl
  sound := QueryCache.sound_live capacity []
  source := by
    intro key payload hdue
    cases hdue
  keys := by
    intro key table
    constructor
    · intro hmem
      cases hmem
    · rintro ⟨read, records, ⟨_, earlier, later, hsplit, _⟩, _⟩
      simp at hsplit

/-- A request that neither stores nor drops anything leaves everything where it was. -/
theorem pass (h : Settled db requests cache) {request : Request}
    {looked : QueryCache MemoryCache} (hsound : looked.Sound)
    (hlooked : QueryCache.Advances cache looked [])
    (hbehind : (db.handleAll (requests ++ [request])).cache = some looked.settle.1)
    (hread : ∀ read records, request = .read read → ¬(db.handleAll requests).Stores read records)
    (hchange : ∀ change key, request = .change change →
      ¬(db.handleAll requests).Evicts change key) :
    Settled db (requests ++ [request]) looked.settle.1 := by
  have hsame : ∀ {key read records}, StoredBy db (requests ++ [request]) key read records ↔
      StoredBy db requests key read records := by
    intro key read records
    rw [storedBy_snoc]
    constructor
    · rintro (⟨hlast, _, hstores⟩ | ⟨hearlier, _⟩)
      · exact absurd hstores (hread read records hlast)
      · exact hearlier
    · exact fun hearlier => .inr ⟨hearlier, fun change hlast => hchange change key hlast⟩
  rcases QueryCache.advances_settle looked with ⟨hsettled, hidle⟩
  refine ⟨hbehind, hidle, hsound.apply .settle, ?_, ?_⟩
  · intro key payload hdue
    rcases h.source (hlooked.due h.sound.fits (hsettled.due hsound.fits hdue)) with
      ⟨read, records, hstored, hpayload⟩
    exact ⟨read, records, hsame.2 hstored, hpayload⟩
  · intro key table
    rw [hsettled.registry, hlooked.registry, h.keys]
    simp only [hsame]

theorem read (h : Settled db requests cache) (read : Read) :
    ∃ next, Settled db (requests ++ [.read read]) next := by
  have hbehind : db.handleAll (requests ++ [.read read]) =
      (db.handleAll requests).handle (.read read) := Database.handleAll_append requests [_]
  have hread := QueryCache.advances_get read.key cache
  have hsound : (cache.get read.key).2.1.Sound := h.sound.apply (.get read.key)
  rcases Database.cache_handle_read h.found read with
    ⟨records, hstores, hnext⟩ | ⟨hnone, looked, hlooked, hnext⟩
  · rw [← hbehind] at hnext
    have hkept : ∀ {key other records'}, StoredBy db requests key other records' →
        StoredBy db (requests ++ [.read read]) key other records' := fun hearlier =>
      storedBy_snoc.2 (.inr ⟨hearlier, fun _ heq => by cases heq⟩)
    have hnew : StoredBy db (requests ++ [.read read]) read.key read records :=
      storedBy_snoc.2 (.inl ⟨rfl, rfl, hstores⟩)
    have hset := hsound.apply (.set true read.plan.touched read.key records)
    have hsettled := QueryCache.advances_settle
      ((cache.get read.key).2.1.set true read.plan.touched read.key records).1
    refine ⟨_, hnext, hsettled.2, hset.apply .settle, ?_, ?_⟩
    · -- the rows under the read's key are new, and all others were there before
      intro key payload hdue
      have hbefore := hsettled.1.due hset.fits hdue
      rw [QueryCache.due_set] at hbefore
      by_cases hkey : read.key = key
      · rw [if_pos hkey, Option.some.injEq] at hbefore
        exact ⟨read, records, hkey ▸ hnew, hbefore.symm⟩
      · rw [if_neg hkey] at hbefore
        rcases h.source (hread.due h.sound.fits hbefore) with ⟨other, records', hstored, hpayload⟩
        exact ⟨other, records', hkept hstored, hpayload⟩
    · intro key table
      rw [hsettled.1.registry, QueryCache.registry_set, Registry.mem_keys_register,
        hread.registry, h.keys]
      constructor
      · rintro (⟨other, records', hstored, htable⟩ | ⟨rfl, htable⟩)
        · exact ⟨other, records', hkept hstored, htable⟩
        · exact ⟨read, records, hnew, htable⟩
      · rintro ⟨other, records', hstored, htable⟩
        rcases storedBy_snoc.1 hstored with ⟨hlast, hkey, _⟩ | ⟨hearlier, _⟩
        · cases hlast
          exact .inr ⟨hkey.symm, htable⟩
        · exact .inl ⟨other, records', hearlier, htable⟩
  · rw [← hbehind] at hnext
    have hstays : looked.Sound ∧ QueryCache.Advances cache looked [] := by
      rcases hlooked with rfl | rfl
      · exact ⟨h.sound, QueryCache.Advances.refl looked⟩
      · exact ⟨hsound, hread⟩
    refine ⟨_, h.pass hstays.1 hstays.2 hnext ?_ fun _ _ heq => by cases heq⟩
    intro other records heq
    cases heq
    exact hnone records

theorem change (h : Settled db requests cache) (change : Change) :
    ∃ next, Settled db (requests ++ [.change change]) next := by
  have hbehind : db.handleAll (requests ++ [.change change]) =
      (db.handleAll requests).handle (.change change) := Database.handleAll_append requests [_]
  rcases Database.cache_handle_change h.found change with ⟨haffected, hnext⟩ | ⟨hfailed, hnext⟩
  · rw [← hbehind] at hnext
    have hevicts : ∀ {key}, (db.handleAll requests).Evicts change key ↔
        key ∈ cache.registry.keysFor [change.table] := by
      intro key
      unfold Database.Evicts
      rw [Database.registered_of_cache h.found, Registry.mem_keysFor]
      simp [haffected]
    have hkept : ∀ {key read records}, key ∉ cache.registry.keysFor [change.table] →
        StoredBy db requests key read records →
          StoredBy db (requests ++ [.change change]) key read records := by
      intro key read records hkey hearlier
      refine storedBy_snoc.2 (.inr ⟨hearlier, fun other heq => ?_⟩)
      cases heq
      exact fun hgone => hkey (hevicts.1 hgone)
    have hdropped := h.sound.apply (.drop true [change.table])
    have hsettled := QueryCache.advances_settle (cache.dropEntries true [change.table]).1
    refine ⟨_, hnext, hsettled.2, hdropped.apply .settle, ?_, ?_⟩
    · -- what is still due was not dropped
      intro key payload hdue
      have hbefore := hsettled.1.due hdropped.fits hdue
      rw [QueryCache.due_dropEntries] at hbefore
      by_cases hkey : key ∈ cache.registry.keysFor [change.table]
      · rw [if_pos hkey] at hbefore
        cases hbefore
      · rw [if_neg hkey] at hbefore
        rcases h.source hbefore with ⟨read, records, hstored, hpayload⟩
        exact ⟨read, records, hkept hkey hstored, hpayload⟩
    · intro key table
      rw [hsettled.1.registry, QueryCache.mem_keys_dropEntries _ h.sound.distinct, h.keys]
      constructor
      · rintro ⟨⟨read, records, hstored, htable⟩, hkey⟩
        exact ⟨read, records, hkept hkey hstored, htable⟩
      · rintro ⟨read, records, hstored, htable⟩
        rcases storedBy_snoc.1 hstored with ⟨hlast, _⟩ | ⟨hearlier, hleft⟩
        · cases hlast
        · exact ⟨⟨read, records, hearlier, htable⟩, fun hkey =>
            hleft change rfl (hevicts.2 hkey)⟩
  · rw [← hbehind] at hnext
    refine ⟨_, h.pass h.sound (QueryCache.Advances.refl cache) hnext
      (fun _ _ heq => by cases heq) ?_⟩
    rintro other key heq ⟨⟨affected, haffected⟩, _⟩
    cases heq
    exact hfailed affected haffected

theorem handleAll (capacity : Nat) (h : db.cache = some (QueryCache.fresh capacity))
    (requests : List Request) : ∃ cache, Settled db requests cache := by
  induction requests using List.reverseRecOn with
  | nil => exact ⟨_, fresh h⟩
  | append_singleton requests request ih =>
      rcases ih with ⟨cache, hcache⟩
      cases request with
      | read read => exact hcache.read read
      | change change => exact hcache.change change

/-- A read that finds models leaves the texts in the backend as they are. -/
theorem serve (h : Settled db requests cache) {read : Read} {models : List Json}
    (hfound : ((db.handleAll requests).lookUp read.plan read.key).1 = some models) (key : String) :
    (db.handleAll (requests ++ [.read read])).stored? key = cache.backend.peek? key := by
  rw [Database.handleAll_append]
  rcases Database.cache_handle_read h.found read with
    ⟨records, hstores, _⟩ | ⟨_, looked, hlooked, hnext⟩
  · cases hfound.symm.trans hstores.missed
  · have hparts : looked.queue = [] ∧ looked.backend.peek? key = cache.backend.peek? key := by
      rcases hlooked with rfl | rfl
      · exact ⟨h.idle, rfl⟩
      · rw [QueryCache.get_cache]
        exact ⟨h.idle, MemoryCache.peek?_get cache.backend read.key key⟩
    have hsettled := (QueryCache.settle_carries looked).2.2
    rw [hparts.1] at hsettled
    have hlast : ((db.handleAll requests).handleAll [.read read]).stored? key =
        looked.settle.1.backend.peek? key := Database.stored?_of_cache hnext key
    rw [hlast, hsettled]
    exact hparts.2

/-- The models that a read finds are rows of a read with the same key. -/
theorem recalled (h : Settled db requests cache) {read : Read} {models : List Json}
    (hfound : ((db.handleAll requests).lookUp read.plan read.key).1 = some models) :
    ∃ stored records, StoredBy db requests read.key stored records ∧
      cache.backend.peek? read.key = some (Record.listToJson records).text ∧
      read.models? (Record.listOfText? (Record.listToJson records).text) = some models := by
  rw [Database.lookUp_fst h.found, QueryCache.get_memory] at hfound
  cases hpayload : cache.backend.peek? read.key with
  | none =>
      rw [hpayload] at hfound
      cases hfound
  | some payload =>
      rw [hpayload] at hfound
      have hdue : cache.due read.key = some payload :=
        (QueryCache.due_of_queue_nil h.idle read.key).trans hpayload
      rcases h.source hdue with ⟨stored, records, hstored, rfl⟩
      exact ⟨stored, records, hstored, rfl, hfound⟩

/-- The key of a read that finds models is registered for the tables of the reads that stored rows
under it. -/
theorem registered_serve (h : Settled db requests cache) {read : Read} {models : List Json}
    (hfound : ((db.handleAll requests).lookUp read.plan read.key).1 = some models)
    (table : String) : read.key ∈ (db.handleAll (requests ++ [.read read])).registered table ↔
      ∃ stored records, StoredBy db requests read.key stored records ∧
        table ∈ stored.plan.touched := by
  rcases h.read read with ⟨next, hnext⟩
  have hsame : ∀ {stored records}, StoredBy db (requests ++ [.read read]) read.key stored records ↔
      StoredBy db requests read.key stored records := by
    intro stored records
    rw [storedBy_snoc]
    constructor
    · rintro (⟨hlast, _, hstores⟩ | ⟨hearlier, _⟩)
      · -- a read that finds models asks for no rows
        cases hlast
        cases hfound.symm.trans hstores.missed
      · exact hearlier
    · exact fun hearlier => .inr ⟨hearlier, fun _ heq => by cases heq⟩
  rw [Database.registered_of_cache hnext.found, hnext.keys]
  simp only [hsame]

/-- A change that succeeds takes out the keys registered for its table, and no others. -/
theorem stored?_change (h : Settled db requests cache) {change : Change} {affected : Nat}
    (haffected : change.affected (db.handleAll requests).executor = .ok affected) (key : String) :
    ((db.handleAll requests).handle (.change change)).stored? key =
      if key ∈ (db.handleAll requests).registered change.table then none
      else (db.handleAll requests).stored? key := by
  have hkeys : key ∈ (db.handleAll requests).registered change.table ↔
      key ∈ cache.registry.keysFor [change.table] := by
    rw [Database.registered_of_cache h.found, Registry.mem_keysFor]
    simp
  rw [Database.stored?_of_cache h.found]
  rcases Database.cache_handle_change h.found change with ⟨_, hnext⟩ | ⟨hfailed, _⟩
  · rw [Database.stored?_of_cache hnext, (QueryCache.settle_carries _).2.2]
    simp only [hkeys]
    by_cases hnone : cache.registry.keysFor [change.table] = []
    · rw [QueryCache.dropEntries_of_no_key _ hnone, h.idle, hnone]
      simp [QueryCache.carryOutAll]
    · -- the queue holds nothing but the removal of these keys
      rw [QueryCache.dropEntries_of_keys _ hnone]
      show (QueryCache.carryOutAll (cache.queue ++ [_]) cache.backend).1.peek? key = _
      rw [h.idle]
      exact MemoryCache.peek?_delete key _ cache.backend
  · exact absurd haffected (hfailed affected)

end Settled

/-! ## Main statement -/

/-- Whatever was asked before, a cached read that finds models is answered with them; they are the
rows of a read of the run that has the same key, whichever plan that is.  The key is then registered
for the tables of those plans that stored rows under it and were not dropped since, and for no
others, and the next change drops the rows exactly if its table is among these.  So the key is
registered for all tables of the plan that is served as long as no plan with the same key touches
fewer. -/
theorem served_registered_iff {capacity : Nat}
    (hcache : db.cache = some (QueryCache.fresh capacity)) (requests : List Request) {read : Read}
    (hcacheable : read.plan.cacheable = true) {models : List Json}
    (hfound : ((db.handleAll requests).lookUp read.plan read.key).1 = some models) :
    let before := db.handleAll requests
    let served := before.handle (.read read)
    (before.select read.plan).1 = .ok models ∧
    (∃ stored records, StoredBy db requests read.key stored records ∧
      read.models? (Record.listOfText? (Record.listToJson records).text) = some models ∧
      ∀ table ∈ stored.plan.touched, read.key ∈ served.registered table) ∧
    (∀ table, read.key ∈ served.registered table ↔
      ∃ stored records, StoredBy db requests read.key stored records ∧
        table ∈ stored.plan.touched) ∧
    (∀ change affected, change.affected served.executor = .ok affected →
      ((served.handle (.change change)).stored? read.key = none ↔
        read.key ∈ served.registered change.table)) ∧
    ((∀ stored, .read stored ∈ requests → stored.key = read.key →
        read.plan.touched ⊆ stored.plan.touched) →
      ∀ table ∈ read.plan.touched, read.key ∈ served.registered table) := by
  intro before served
  rcases Settled.handleAll capacity hcache requests with ⟨cache, hbefore⟩
  rcases hbefore.read read with ⟨next, hserved⟩
  rcases hbefore.recalled hfound with ⟨stored, records, hstored, hpayload, hmodels⟩
  have hbehind : db.handleAll (requests ++ [.read read]) = served :=
    Database.handleAll_append requests [_]
  have hregistered := hbefore.registered_serve hfound
  rw [hbehind] at hregistered
  refine ⟨?_, ⟨stored, records, hstored, hmodels, ?_⟩, hregistered, ?_, ?_⟩
  · rw [Database.select_fst hbefore.found hcacheable, ← Database.lookUp_fst hbefore.found]
    simp [hfound]
  · intro table htable
    exact (hregistered table).2 ⟨stored, records, hstored, htable⟩
  · intro change affected haffected
    have hheld := (hbefore.serve hfound read.key).trans hpayload
    rw [← hbehind] at haffected ⊢
    rw [hserved.stored?_change haffected, hheld]
    simp
  · intro hdeclared table htable
    have hmem : Request.read stored ∈ requests := by
      rcases hstored.2 with ⟨earlier, later, hsplit, _⟩
      rw [hsplit]
      exact List.mem_append_right _ List.mem_cons_self
    have htouched : table ∈ stored.plan.touched := hdeclared stored hmem hstored.1 htable
    exact (hregistered table).2 ⟨stored, records, hstored, htouched⟩

end Runs

/-! ## A plan that declares another table -/

namespace Shelf

def loans : Table :=
  { name := "loans", columns := [{ name := "book", field := "book" }] }

/-- The books that nobody has, by a query that is said to read some tables besides the shelf. -/
def unlent (reads : List (Option String × String)) : Plan :=
  (Query.start .postgres ⟨[table, loans]⟩ true [] (.raw ⟨table, none, [⟨0⟩]⟩
    { statement := .ofText "SELECT book FROM shelf WHERE book NOT IN (SELECT book FROM loans)"
      columns := ["book"]
      reads := reads })).plan

def unlentStatement : Statement :=
  ⟨[.text "SELECT \"shelf\".\"book\" AS \"book\"", .text " FROM ", .text "(",
    .text "SELECT book FROM shelf WHERE book NOT IN (SELECT book FROM loans)",
    .text ") AS \"shelf\""], [], rfl⟩

/-- The query as it is, which declares nothing. -/
def plain : Read where
  plan := unlent []
  statement := unlentStatement
  compiles := by cbv

/-- The same query, which is said to read the loans. -/
def declared : Read where
  plan := unlent [(none, "loans")]
  statement := unlentStatement
  compiles := by cbv

def lend : Change where
  plan := (Query.start .postgres ⟨[table, loans]⟩ true [] (.model ⟨loans, none, [⟨1⟩]⟩)).plan
  kind := .truncate
  statement := ⟨[.text "TRUNCATE TABLE \"loans\""], [], rfl⟩
  compiles := by cbv

theorem key_declared : declared.key = plain.key := by
  have hdialect : declared.plan.dialect = plain.plan.dialect := by cbv
  unfold Read.key Read.sql
  rw [hdialect]
  rfl

theorem cache_plain : ((database (.empty 1 : MemoryCache)).handle (.read plain)).cache =
    some ⟨⟨1, [(plain.key, payload)], [plain.key]⟩, ⟨[("\"shelf\"", [plain.key])]⟩, .live []⟩ := by
  unfold Database.handle
  dsimp only
  rw [Database.select_eq rfl]
  generalize plain.key = key
  cbv

theorem lookUp_declared : (((database (.empty 1 : MemoryCache)).handle (.read plain)).lookUp
    declared.plan declared.key).1 = some [kindred] := by
  have hmodels : declared.models? (Record.listOfText? payload) = some [kindred] := by cbv
  rw [Database.lookUp_fst cache_plain declared, key_declared, QueryCache.get_memory]
  simpa [MemoryCache.peek?] using hmodels

/-- The row is stored for the plain query and served to the other one, whose key is then not
registered for the loans, and stays when the loans change. -/
theorem served_registered_iff_unlent :
    let before := (database (.empty 1 : MemoryCache)).handleAll [.read plain]
    let served := before.handle (.read declared)
    (before.lookUp declared.plan declared.key).1 = some [kindred] ∧
    declared.plan.touched = ["\"shelf\"", "\"loans\""] ∧
    (∃ affected, lend.affected served.executor = .ok affected) ∧ lend.table = "\"loans\"" ∧
    declared.key ∈ served.registered "\"shelf\"" ∧ declared.key ∉ served.registered "\"loans\"" ∧
    (served.handle (.change lend)).stored? declared.key ≠ none := by
  intro before served
  have hcache : (database (.empty 1 : MemoryCache)).cache = some (QueryCache.fresh 1) := rfl
  have hcacheable : declared.plan.cacheable = true := rfl
  have hmain := served_registered_iff hcache [.read plain] hcacheable lookUp_declared
  have hplain : plain.plan.touched = ["\"shelf\""] := by cbv
  have hlend : lend.table = "\"loans\"" := by cbv
  have hstored : ∀ {stored records},
      StoredBy (database (.empty 1 : MemoryCache)) [.read plain] declared.key stored records →
        stored = plain := by
    rintro stored records ⟨_, earlier, later, hsplit, _⟩
    have hmem : Request.read stored ∈ [Request.read plain] := by
      rw [hsplit]
      exact List.mem_append_right _ List.mem_cons_self
    cases List.mem_singleton.1 hmem
    rfl
  have hunlisted : declared.key ∉ served.registered "\"loans\"" := by
    intro hmem
    rcases (hmain.2.2.1 _).1 hmem with ⟨stored, records, hby, htable⟩
    rw [hstored hby, hplain] at htable
    simp at htable
  refine ⟨lookUp_declared, by cbv, ⟨1, rfl⟩, hlend, ?_, hunlisted, fun hgone => ?_⟩
  · rcases hmain.2.1 with ⟨stored, records, hby, _, hlisted⟩
    rw [hstored hby, hplain] at hlisted
    exact hlisted _ List.mem_cons_self
  · have hdropped := (hmain.2.2.2.1 lend 1 rfl).1 hgone
    rw [hlend] at hdropped
    exact hunlisted hdropped

end Shelf

end FieldQuery
