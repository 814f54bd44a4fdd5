import FieldQuery.Proofs.Cache.Pending
import FieldQuery.Proofs.Database.Requests

/-!
# Clients that come between each other

Any number of clients use one database with a cache in memory.  A cached read looks up, fetches and
stores; a change is executed and then drops cached reads; the worker carries out commands.  Between
any two of these moves the other clients and the worker may make theirs.

The lock of the cache spans registration and queueing, but not the time from a fetch to its store.
So rows may be stored that a change has replaced in the meantime, if it also dropped the cached
reads of its table in the meantime; nothing else is ever served out of date.

Main definitions:

- `Move`, `Traffic.step?`, `Traffic.run?`: the moves in any order.
- `Stored`, `Written`: when rows were fetched and stored, and when a change was executed and dropped
  cached reads.

Main statements: `Traffic.run_select` and `Traffic.run_write` put moves together to requests, and
`Traffic.served_fetched_or_outrun` says what a read is served with.
-/

namespace FieldQuery

open Cache

/-- What a client is in the middle of. -/
inductive Phase
  | idle
  /-- A read has found nothing under its key. -/
  | missed (read : Read) (key : String)
  /-- A read has its rows, since some moment, and has not stored them. -/
  | fetched (read : Read) (key : String) (records : List Record) (since : Nat)
  /-- A change was executed at some moment and has not dropped cached reads. -/
  | executed (change : Change) (since : Nat)

/-- Rows that were stored. -/
structure Stored where
  key : String
  tables : List String
  records : List Record
  fetchedAt : Nat
  storedAt : Nat

/-- The text of stored rows. -/
def Stored.payload (entry : Stored) : String :=
  (Record.listToJson entry.records).text

/-- A change that has come to its end. -/
structure Written where
  table : String
  executedAt : Nat
  droppedAt : Nat

/-- The worker of a database's cache carries out the first command of its queue. -/
def Database.work {σ β : Type} [Backend β] (db : Database σ β) : Database σ β :=
  match db.cache with
  | some cache =>
    let (cache, events) := cache.step
    { db with cache := some cache }.report events
  | none => db

/-- A database, what its clients are in the middle of, and what happened so far.  Time counts the
moves. -/
structure Traffic (ι σ : Type) where
  db : Database σ MemoryCache
  phase : ι → Phase := fun _ => .idle
  time : Nat := 0
  stored : List Stored := []
  written : List Written := []

/-- What a client or the worker does at a moment. -/
inductive Move (ι : Type)
  | lookUp (client : ι) (read : Read)
  | fetch (client : ι)
  | store (client : ι)
  | execute (client : ι) (change : Change)
  | drop (client : ι)
  | work

namespace Traffic

section Moves

variable {ι σ : Type} [DecidableEq ι]

/-- A client has moved on. -/
def advance (traffic : Traffic ι σ) (client : ι) (phase : Phase) (db : Database σ MemoryCache) :
    Traffic ι σ :=
  { traffic with
    db := db
    phase := fun other => if other = client then phase else traffic.phase other
    time := traffic.time + 1 }

/-- A read begins: its key is made, and the cache is asked for it. -/
def lookUp? (traffic : Traffic ι σ) (client : ι) (read : Read) : Option (Traffic ι σ) :=
  match traffic.phase client, read.plan.cacheable with
  | .idle, true =>
    let key := read.key
    match traffic.db.lookUp read.plan key with
    | (some _, db) => some (traffic.advance client .idle db)
    | (none, db) => some (traffic.advance client (.missed read key) db)
  | _, _ => none

/-- A read that found nothing asks the executor. -/
def fetch? [Executor σ] (traffic : Traffic ι σ) (client : ι) : Option (Traffic ι σ) :=
  match traffic.phase client with
  | .missed read key =>
    match traffic.db.ask read with
    | (.error _, db) => some (traffic.advance client .idle db)
    | (.ok records, db) =>
      some (traffic.advance client (.fetched read key records traffic.time) db)
  | _ => none

/-- A read stores the rows that it was given. -/
def store? (traffic : Traffic ι σ) (client : ι) : Option (Traffic ι σ) :=
  match traffic.phase client with
  | .fetched read key records since =>
    let db := traffic.db.remember read.plan.touched key records
    let entry : Stored := ⟨key, read.plan.touched, records, since, traffic.time⟩
    some { traffic.advance client .idle db with stored := traffic.stored ++ [entry] }
  | _ => none

/-- A change is carried out. -/
def execute? [Executor σ] (traffic : Traffic ι σ) (client : ι) (change : Change) :
    Option (Traffic ι σ) :=
  match traffic.phase client with
  | .idle =>
    match traffic.db.carryOut change with
    | (.error _, db) => some (traffic.advance client .idle db)
    | (.ok _, db) => some (traffic.advance client (.executed change traffic.time) db)
  | _ => none

/-- A change that was carried out drops the cached reads of its table. -/
def drop? (traffic : Traffic ι σ) (client : ι) : Option (Traffic ι σ) :=
  match traffic.phase client with
  | .executed change since =>
    let db := traffic.db.invalidate [change.table]
    let write : Written := ⟨change.table, since, traffic.time⟩
    some { traffic.advance client .idle db with written := traffic.written ++ [write] }
  | _ => none

/-- A move, where its client has got to it. -/
def step? [Executor σ] (traffic : Traffic ι σ) : Move ι → Option (Traffic ι σ)
  | .lookUp client read => traffic.lookUp? client read
  | .fetch client => traffic.fetch? client
  | .store client => traffic.store? client
  | .execute client change => traffic.execute? client change
  | .drop client => traffic.drop? client
  | .work => some { traffic with db := traffic.db.work, time := traffic.time + 1 }

/-- Moves in order, where each can be made. -/
def run? [Executor σ] (traffic : Traffic ι σ) (moves : List (Move ι)) : Option (Traffic ι σ) :=
  moves.foldlM step? traffic

/-! ## Requests as moves -/

theorem phase_advance (traffic : Traffic ι σ) (client : ι) (phase : Phase)
    (db : Database σ MemoryCache) : (traffic.advance client phase db).phase client = phase :=
  if_pos rfl

variable [Executor σ]

theorem run?_cons (traffic : Traffic ι σ) (move : Move ι) (moves : List (Move ι)) :
    traffic.run? (move :: moves) = (traffic.step? move).bind (·.run? moves) := rfl

theorem run?_of_step {traffic next : Traffic ι σ} {move : Move ι}
    (h : traffic.step? move = some next) (moves : List (Move ι)) :
    traffic.run? (move :: moves) = next.run? moves := by
  rw [run?_cons, h, Option.bind_some]

theorem store_of_fetched {traffic : Traffic ι σ} {client : ι} {read : Read} {key : String}
    {records : List Record} {since : Nat}
    (h : traffic.phase client = .fetched read key records since) :
    ∃ later, traffic.step? (.store client) = some later ∧
      later.db = traffic.db.remember read.plan.touched key records ∧
        later.phase client = .idle := by
  have hstore : ∃ stored, traffic.store? client = some
      { traffic.advance client .idle (traffic.db.remember read.plan.touched key records) with
        stored := stored } := by
    unfold store?
    rw [h]
    exact ⟨_, rfl⟩
  rcases hstore with ⟨stored, hstore⟩
  exact ⟨_, hstore, rfl, phase_advance traffic client .idle traffic.db⟩

theorem drop_of_executed {traffic : Traffic ι σ} {client : ι} {change : Change} {since : Nat}
    (h : traffic.phase client = .executed change since) :
    ∃ later, traffic.step? (.drop client) = some later ∧
      later.db = traffic.db.invalidate [change.table] ∧ later.phase client = .idle := by
  have hdrop : ∃ written, traffic.drop? client = some
      { traffic.advance client .idle (traffic.db.invalidate [change.table]) with
        written := written } := by
    unfold drop?
    rw [h]
    exact ⟨_, rfl⟩
  rcases hdrop with ⟨written, hdrop⟩
  exact ⟨_, hdrop, rfl, phase_advance traffic client .idle traffic.db⟩

/-- A client whose moves nobody comes between selects. -/
theorem run_select {traffic : Traffic ι σ} {client : ι} {read : Read}
    (hidle : traffic.phase client = .idle)
    (hcached : (traffic.db.cache.isSome && read.plan.cacheable) = true) :
    ∃ moves later, moves <+: [.lookUp client read, .fetch client, .store client] ∧
      traffic.run? moves = some later ∧ later.db = (traffic.db.select read.plan).2 ∧
        later.phase client = .idle := by
  have hcacheable : read.plan.cacheable = true := (Bool.and_eq_true_iff.1 hcached).2
  have hlookUp : traffic.step? (.lookUp client read) =
      match traffic.db.lookUp read.plan read.key with
      | (some _, db) => some (traffic.advance client .idle db)
      | (none, db) => some (traffic.advance client (.missed read read.key) db) := by
    show traffic.lookUp? client read = _
    unfold lookUp?
    rw [hidle, hcacheable]
  rw [Database.select_eq hcached]
  generalize traffic.db.lookUp read.plan read.key = looked at hlookUp ⊢
  rcases looked with ⟨found, db⟩
  cases found with
  | some models =>
      exact ⟨[.lookUp client read], traffic.advance client .idle db,
        ⟨[.fetch client, .store client], rfl⟩, run?_of_step hlookUp [], rfl, phase_advance ..⟩
  | none =>
      have hfetch : (traffic.advance client (.missed read read.key) db).step? (.fetch client) =
          match db.ask read with
          | (.error _, asked) => some ((traffic.advance client (.missed read read.key) db).advance
              client .idle asked)
          | (.ok records, asked) =>
            some ((traffic.advance client (.missed read read.key) db).advance client
              (.fetched read read.key records (traffic.time + 1)) asked) := by
        show (traffic.advance client (.missed read read.key) db).fetch? client = _
        unfold fetch?
        rw [phase_advance]
        rfl
      dsimp only at hlookUp ⊢
      generalize traffic.advance client (.missed read read.key) db = missed at hlookUp hfetch
      generalize db.ask read = answer at hfetch ⊢
      rcases answer with ⟨rows, asked⟩
      cases rows with
      | error error =>
          refine ⟨[.lookUp client read, .fetch client], missed.advance client .idle asked,
            ⟨[.store client], rfl⟩, ?_, rfl, phase_advance ..⟩
          rw [run?_of_step hlookUp, run?_of_step hfetch]
          rfl
      | ok records =>
          have hphase := phase_advance missed client
            (.fetched read read.key records (traffic.time + 1)) asked
          rcases store_of_fetched hphase with ⟨later, hstore, hdb, hidle⟩
          refine ⟨_, later, List.prefix_rfl, ?_, hdb, hidle⟩
          rw [run?_of_step hlookUp, run?_of_step hfetch, run?_of_step hstore]
          rfl

/-- A client whose moves nobody comes between changes a table. -/
theorem run_write {traffic : Traffic ι σ} {client : ι} (change : Change)
    (hidle : traffic.phase client = .idle) :
    ∃ moves later, moves <+: [.execute client change, .drop client] ∧
      traffic.run? moves = some later ∧
        later.db = (traffic.db.write change.plan change.kind).2 ∧
          later.phase client = .idle := by
  have hexecute : traffic.step? (.execute client change) =
      match traffic.db.carryOut change with
      | (.error _, db) => some (traffic.advance client .idle db)
      | (.ok _, db) => some (traffic.advance client (.executed change traffic.time) db) := by
    show traffic.execute? client change = _
    unfold execute?
    rw [hidle]
  rw [Database.write_eq]
  generalize traffic.db.carryOut change = carried at hexecute ⊢
  rcases carried with ⟨result, db⟩
  cases result with
  | error error =>
      exact ⟨[.execute client change], traffic.advance client .idle db, ⟨[.drop client], rfl⟩,
        run?_of_step hexecute [], rfl, phase_advance ..⟩
  | ok affected =>
      have hphase := phase_advance traffic client (.executed change traffic.time) db
      rcases drop_of_executed hphase with ⟨later, hdrop, hdb, hidle⟩
      refine ⟨_, later, List.prefix_rfl, ?_, hdb, hidle⟩
      rw [run?_of_step hexecute, run?_of_step hdrop]
      rfl

end Moves

/-! ## Soundness -/

section Sound

variable {ι σ : Type}

/-- Stored rows behind a text, which were stored later than any change of their tables dropped
cached reads. -/
def Origin (traffic : Traffic ι σ) (key payload : String) (tables : List String) : Prop :=
  ∃ entry ∈ traffic.stored, entry.key = key ∧ entry.payload = payload ∧ entry.tables = tables ∧
    ∀ write ∈ traffic.written, write.table ∈ entry.tables → write.droppedAt < entry.storedAt

/-- What the cache will hold was stored, no log runs ahead of the time, and changes are executed
before they drop cached reads. -/
structure Sound (traffic : Traffic ι σ) : Prop where
  backed : ∃ cache, traffic.db.cache = some cache ∧ cache.Backed traffic.Origin
  past : ∀ write ∈ traffic.written,
    write.executedAt < write.droppedAt ∧ write.droppedAt < traffic.time
  begun : ∀ {client : ι} {change : Change} {since : Nat},
    traffic.phase client = .executed change since → since < traffic.time

theorem sound_work {traffic : Traffic ι σ} (h : traffic.Sound) :
    Sound { traffic with db := traffic.db.work, time := traffic.time + 1 } := by
  rcases h.backed with ⟨cache, hcache, hbacked⟩
  have hworked : traffic.db.work.cache = some cache.step.1 := by
    unfold Database.work
    rw [hcache]
    rfl
  exact ⟨⟨_, hworked, hbacked.step⟩,
    fun write hwrite => ⟨(h.past write hwrite).1, Nat.lt_succ_of_lt (h.past write hwrite).2⟩,
    fun hphase => Nat.lt_succ_of_lt (h.begun hphase)⟩

variable [DecidableEq ι] {traffic next : Traffic ι σ}

/-- A client moves on without storing or dropping anything. -/
theorem Sound.advance (h : traffic.Sound) (client : ι) {phase : Phase}
    {db : Database σ MemoryCache}
    (hbacked : ∃ cache, db.cache = some cache ∧ cache.Backed traffic.Origin)
    (hphase : ∀ {change since}, phase = .executed change since → since = traffic.time) :
    (traffic.advance client phase db).Sound where
  backed := hbacked
  past := by
    intro write hwrite
    have hpast := h.past write hwrite
    exact ⟨hpast.1, Nat.lt_succ_of_lt hpast.2⟩
  begun := by
    intro other change since hother
    have hcases : (if other = client then phase else traffic.phase other) =
        .executed change since := hother
    by_cases hclient : other = client
    · rw [if_pos hclient] at hcases
      rw [hphase hcases]
      exact Nat.lt_succ_self _
    · rw [if_neg hclient] at hcases
      exact Nat.lt_succ_of_lt (h.begun hcases)

theorem sound_lookUp (h : traffic.Sound) {client : ι} {read : Read}
    (hstep : traffic.lookUp? client read = some next) : next.Sound := by
  rcases h.backed with ⟨cache, hcache, hbacked⟩
  have hlooked := Database.cache_lookUp hcache read.plan read.key
  unfold lookUp? at hstep
  split at hstep
  · dsimp only at hstep
    generalize traffic.db.lookUp read.plan read.key = looked at hstep hlooked
    rcases looked with ⟨found, db⟩
    cases found with
    | some models =>
        cases hstep
        exact h.advance client ⟨_, hlooked, hbacked.get read.key⟩ (fun heq => by cases heq)
    | none =>
        cases hstep
        exact h.advance client ⟨_, hlooked, hbacked.get read.key⟩ (fun heq => by cases heq)
  · cases hstep

theorem sound_fetch [Executor σ] (h : traffic.Sound) {client : ι}
    (hstep : traffic.fetch? client = some next) : next.Sound := by
  rcases h.backed with ⟨cache, hcache, hbacked⟩
  unfold fetch? at hstep
  split at hstep
  · rename_i read key hphase
    have hasked : (traffic.db.ask read).2.cache = some cache := by
      rw [Database.cache_ask, hcache]
    generalize traffic.db.ask read = answer at hstep hasked
    rcases answer with ⟨rows, db⟩
    cases rows with
    | error error =>
        cases hstep
        exact h.advance client ⟨_, hasked, hbacked⟩ (fun heq => by cases heq)
    | ok records =>
        cases hstep
        exact h.advance client ⟨_, hasked, hbacked⟩ (fun heq => by cases heq)
  · cases hstep

theorem sound_execute [Executor σ] (h : traffic.Sound) {client : ι} {change : Change}
    (hstep : traffic.execute? client change = some next) : next.Sound := by
  rcases h.backed with ⟨cache, hcache, hbacked⟩
  have hcarried : (traffic.db.carryOut change).2.cache = some cache := by
    rw [Database.cache_carryOut, hcache]
  unfold execute? at hstep
  split at hstep
  · generalize traffic.db.carryOut change = carried at hstep hcarried
    rcases carried with ⟨result, db⟩
    cases result with
    | error error =>
        cases hstep
        exact h.advance client ⟨_, hcarried, hbacked⟩ (fun heq => by cases heq)
    | ok affected =>
        cases hstep
        exact h.advance client ⟨_, hcarried, hbacked⟩ (fun heq => by cases heq; rfl)
  · cases hstep

theorem sound_store (h : traffic.Sound) {client : ι}
    (hstep : traffic.store? client = some next) : next.Sound := by
  rcases h.backed with ⟨cache, hcache, hbacked⟩
  unfold store? at hstep
  split at hstep
  · rename_i read key records since hphase
    have hadvanced : (traffic.advance client .idle traffic.db).Sound :=
      h.advance client ⟨cache, hcache, hbacked⟩ (fun heq => by cases heq)
    cases hstep
    refine ⟨⟨_, Database.cache_remember hcache _ _ _, hbacked.set ?_ ?_⟩, hadvanced.past,
      hadvanced.begun⟩
    · refine ⟨⟨key, read.plan.touched, records, since, traffic.time⟩, ?_, rfl, rfl, rfl, ?_⟩
      · exact List.mem_append_right _ List.mem_cons_self
      · exact fun write hwrite _ => (h.past write hwrite).2
    · rintro other payload tables - ⟨entry, hentry, hrest⟩
      exact ⟨entry, List.mem_append_left _ hentry, hrest⟩
  · cases hstep

theorem sound_drop (h : traffic.Sound) {client : ι}
    (hstep : traffic.drop? client = some next) : next.Sound := by
  rcases h.backed with ⟨cache, hcache, hbacked⟩
  unfold drop? at hstep
  split at hstep
  · rename_i change since hphase
    have hadvanced : (traffic.advance client .idle traffic.db).Sound :=
      h.advance client ⟨cache, hcache, hbacked⟩ (fun heq => by cases heq)
    cases hstep
    refine ⟨⟨_, Database.cache_invalidate hcache _, hbacked.drop ?_⟩, ?_, hadvanced.begun⟩
    · rintro key payload tables hnone ⟨entry, hentry, hkey, hpayload, rfl, hlater⟩
      refine ⟨entry, hentry, hkey, hpayload, rfl, fun write hwrite htable => ?_⟩
      rcases List.mem_append.1 hwrite with hwrite | hwrite
      · exact hlater write hwrite htable
      · -- what is still due does not come from the table that was just dropped
        cases List.mem_singleton.1 hwrite
        exact absurd htable (hnone _ List.mem_cons_self)
    · intro write hwrite
      rcases List.mem_append.1 hwrite with hwrite | hwrite
      · exact hadvanced.past write hwrite
      · cases List.mem_singleton.1 hwrite
        exact ⟨h.begun hphase, Nat.lt_succ_self _⟩
  · cases hstep

/-- Every move keeps the traffic sound. -/
theorem sound_step [Executor σ] (h : traffic.Sound) {move : Move ι}
    (hstep : traffic.step? move = some next) : next.Sound := by
  cases move with
  | lookUp client read => exact sound_lookUp h hstep
  | fetch client => exact sound_fetch h hstep
  | store client => exact sound_store h hstep
  | execute client change => exact sound_execute h hstep
  | drop client => exact sound_drop h hstep
  | work =>
      cases hstep
      exact sound_work h

/-- Traffic stays sound in whatever order moves are made. -/
theorem sound_run [Executor σ] (h : traffic.Sound) {moves : List (Move ι)}
    (hrun : traffic.run? moves = some next) : next.Sound := by
  induction moves generalizing traffic with
  | nil =>
      cases hrun
      exact h
  | cons move moves ih =>
      rw [run?_cons] at hrun
      rcases Option.bind_eq_some_iff.1 hrun with ⟨between, hstep, hrest⟩
      exact ih (sound_step h hstep) hrest

end Sound

/-! ## Main statement -/

section Served

variable {ι σ : Type}

/-- Nothing has happened yet. -/
theorem sound_start {db : Database σ MemoryCache} {capacity : Nat}
    (hcache : db.cache = some (.fresh capacity)) : Sound ({ db := db } : Traffic ι σ) where
  backed := ⟨_, hcache, .fresh capacity⟩
  past := by
    intro write hwrite
    cases hwrite
  begun := by
    intro client change since hphase
    cases hphase

variable [DecidableEq ι] [Executor σ]

/-- Whatever clients did and in whatever order, what a read is served with once the worker has
caught up was stored under its key.  Of the changes of a table that the stored rows were read from,
each was executed before these were fetched, or it was executed and dropped cached reads both
between the fetch and the store. -/
theorem served_fetched_or_outrun {db : Database σ MemoryCache} {capacity : Nat}
    (hcache : db.cache = some (.fresh capacity)) {moves : List (Move ι)} {traffic : Traffic ι σ}
    (hrun : ({ db := db } : Traffic ι σ).run? moves = some traffic)
    (hdrained : ∀ cache, traffic.db.cache = some cache → cache.queue = []) {read : Read}
    {models : List Json} (hserved : (traffic.db.lookUp read.plan read.key).1 = some models) :
    ∃ entry ∈ traffic.stored, entry.key = read.key ∧
      read.models? (Record.listOfText? entry.payload) = some models ∧
      ∀ write ∈ traffic.written, write.table ∈ entry.tables →
        write.executedAt ≤ entry.fetchedAt ∨
          (entry.fetchedAt < write.executedAt ∧ write.executedAt < write.droppedAt ∧
            write.droppedAt < entry.storedAt) := by
  have hsound : traffic.Sound := sound_run (sound_start hcache) hrun
  rcases hsound.backed with ⟨cache, hnow, hbacked⟩
  rw [Database.lookUp_fst hnow] at hserved
  have hfound : ∃ payload, cache.backend.peek? read.key = some payload ∧
      (cache.get read.key).1 = Record.listOfText? payload := by
    rw [QueryCache.get_memory] at hserved ⊢
    cases hpayload : cache.backend.peek? read.key with
    | none =>
        rw [hpayload] at hserved
        cases hserved
    | some payload => exact ⟨payload, rfl, rfl⟩
  rcases hfound with ⟨payload, hpayload, hread⟩
  rw [← QueryCache.due_of_queue_nil (hdrained cache hnow)] at hpayload
  rcases hbacked.due hpayload with ⟨tables, ⟨entry, hentry, hkey, rfl, rfl, hlater⟩, _⟩
  refine ⟨entry, hentry, hkey, by rw [← hread, hserved], fun write hwrite htable => ?_⟩
  -- a change executed behind the fetch has dropped before the store, as all changes have
  rcases Nat.lt_or_ge entry.fetchedAt write.executedAt with hbefore | hafter
  · exact .inr ⟨hbefore, (hsound.past write hwrite).1, hlater write hwrite htable⟩
  · exact .inl hafter

end Served

end Traffic

/-! ## Rows that are stored too late -/

namespace Shelf

/-- Between a client's fetch and its store, another client clears the table. -/
def overtaken : List (Move Bool) :=
  [.lookUp true read, .fetch true, .execute false clear, .drop false, .store true, .work]

/-- A cache that holds the row. -/
def shelved (key : String) : QueryCache MemoryCache where
  backend := ⟨1, [(key, payload)], [key]⟩
  registry := ⟨[("\"shelf\"", [key])]⟩
  worker := .live []

theorem lookUp_shelved {db : Database Shelf MemoryCache}
    (h : db.cache = some (shelved read.key)) :
    (db.lookUp read.plan read.key).1 = some [kindred] := by
  have hheld : ∀ key, (shelved key).backend.peek? key = some payload := by
    simp [shelved, MemoryCache.peek?]
  rw [Database.lookUp_fst h, QueryCache.get_memory, hheld, Option.bind_some, models_payload]

theorem run_overtaken : ∃ traffic : Traffic Bool Shelf,
    ({ db := database (.empty 1) } : Traffic Bool Shelf).run? overtaken = some traffic ∧
      traffic.db.cache = some (shelved read.key) ∧ traffic.db.executor = ⟨true⟩ ∧
      (∀ client, traffic.phase client = .idle) ∧
      traffic.stored =
        [⟨read.key, ["\"shelf\""], [⟨[("book", .str "Kindred")]⟩], 1, 4⟩] ∧
      traffic.written = [⟨"\"shelf\"", 2, 3⟩] := by
  have hmap : (({ db := database (.empty 1) } : Traffic Bool Shelf).run? overtaken).map
      (fun traffic => (traffic.db.cache, traffic.db.executor, traffic.phase true,
        traffic.phase false, traffic.stored, traffic.written)) =
      some (some (shelved read.key), ⟨true⟩, .idle, .idle,
        [⟨read.key, ["\"shelf\""], [⟨[("book", .str "Kindred")]⟩], 1, 4⟩],
        [⟨"\"shelf\"", 2, 3⟩]) := by
    unfold Traffic.run? overtaken
    rw [List.foldlM_cons]
    dsimp only [Traffic.step?, Traffic.lookUp?]
    -- nothing depends on what the key is
    generalize read.key = key
    cbv
  rcases Option.map_eq_some_iff.1 hmap with ⟨traffic, hrun, hall⟩
  simp only [Prod.mk.injEq] at hall
  rcases hall with ⟨hcache, hexecutor, htrue, hfalse, hstored, hwritten⟩
  refine ⟨traffic, hrun, hcache, hexecutor, fun client => ?_, hstored, hwritten⟩
  cases client with
  | false => exact hfalse
  | true => exact htrue

/-- All clients have finished and the worker has caught up, and a read is served with a row that was
fetched before the table was cleared. -/
theorem served_before_clear : ∃ traffic : Traffic Bool Shelf,
    ({ db := database (.empty 1) } : Traffic Bool Shelf).run? overtaken = some traffic ∧
      (∀ client, traffic.phase client = .idle) ∧
      (∀ cache, traffic.db.cache = some cache → cache.queue = []) ∧
      (traffic.db.lookUp read.plan read.key).1 = some [kindred] ∧
      read.answer traffic.db.executor = .ok [] ∧
      ∀ entry ∈ traffic.stored, ∀ write ∈ traffic.written,
        write.table ∈ read.plan.touched ∧ entry.fetchedAt < write.executedAt := by
  rcases run_overtaken with ⟨traffic, hrun, hcache, hexecutor, hidle, hstored, hwritten⟩
  refine ⟨traffic, hrun, hidle, ?_, lookUp_shelved hcache, ?_, ?_⟩
  · intro cache hnow
    rw [hcache] at hnow
    cases hnow
    rfl
  · rw [hexecutor, answer_empty]
  · rw [hstored, hwritten, touched_read]
    simp

/-- A change between a fetch and its store. -/
theorem served_fetched_or_outrun_overtaken : ∃ traffic : Traffic Bool Shelf,
    ({ db := database (.empty 1) } : Traffic Bool Shelf).run? overtaken = some traffic ∧
      ∃ entry ∈ traffic.stored, entry.key = read.key ∧
        read.models? (Record.listOfText? entry.payload) = some [kindred] ∧
        ∀ write ∈ traffic.written, write.table ∈ entry.tables →
          write.executedAt ≤ entry.fetchedAt ∨
            (entry.fetchedAt < write.executedAt ∧ write.executedAt < write.droppedAt ∧
              write.droppedAt < entry.storedAt) := by
  rcases run_overtaken with ⟨traffic, hrun, hcache, hexecutor, hidle, hstored, hwritten⟩
  have hdrained : ∀ cache, traffic.db.cache = some cache → cache.queue = [] := by
    intro cache hnow
    rw [hcache] at hnow
    cases hnow
    rfl
  have hstart : (database (.empty 1) : Database Shelf MemoryCache).cache = some (.fresh 1) := rfl
  exact ⟨traffic, hrun,
    Traffic.served_fetched_or_outrun hstart hrun hdrained (lookUp_shelved hcache)⟩

end Shelf

end FieldQuery
