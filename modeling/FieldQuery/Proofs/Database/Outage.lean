import FieldQuery.Proofs.Cache.Outage
import FieldQuery.Proofs.Database.Requests

/-!
# Reads through a backend that fails at times

Clients read and change one database, one request after the other, and each waits for the cache's
worker.  The backend may be off whenever the cache or its worker turns to it.  Failing reads and
failing stores only cost a trip to the executor, but a removal that fails leaves rows behind that
later reads are answered with, even when the backend is back.

Main definitions:

- `Workload`: reads and changes under an executor whose rows change only through changes to tables
  that the read touched.
- `Workload.Ran`: the databases behind any requests and outages, with the rows left behind.

Main statement: `Workload.select_exact_iff`.
-/

namespace FieldQuery

open Cache

namespace Read

variable {σ : Type} [Executor σ]

/-- The text that the executor's rows for a read are stored as. -/
def payload (read : Read) (executor : σ) : Option String :=
  (read.rows executor).toOption.map fun records => (Record.listToJson records).text

/-- The models of the executor's rows once they were stored and read back. -/
def recalled (read : Read) (executor : σ) : Option (List Json) :=
  read.models? ((read.payload executor).bind Record.listOfText?)

/-- The executor's rows can be stored and read back. -/
def Storable (read : Read) (executor : σ) : Prop :=
  ∀ records, read.rows executor = .ok records →
    Record.listOfText? (Record.listToJson records).text = some records

/-- What is found is as good as an answer exactly if it is that answer. -/
theorem found_eq_iff {found : Option (List Json)} {answer : Except QueryError (List Json)} :
    (match found with | some models => .ok models | none => answer) = answer ↔
      ∀ models, found = some models → .ok models = answer := by
  cases found with
  | none => simp
  | some models => simp

theorem recalled_of_storable {read : Read} {executor : σ} (h : read.Storable executor) :
    read.recalled executor = (read.answer executor).toOption := by
  unfold recalled payload answer
  cases hrows : read.rows executor with
  | error error => rfl
  | ok records =>
      have hback := h records hrows
      simp [models?, Except.toOption, hback]
      rfl

end Read

/-! ## Requests in turn -/

/-- What a client asks of a database. -/
inductive Request
  | read (read : Read)
  | change (change : Change)

/-- A request, and whether the backend is off while it is answered and while the worker follows. -/
structure Turn where
  request : Request
  off : Bool
  later : Bool

/-- No removal can fail. -/
def Turn.Safe (turn : Turn) : Prop :=
  match turn.request with
  | .read _ => True
  | .change _ => turn.later = false

namespace Database

variable {σ : Type}

/-- The cache's backend is switched off or on. -/
def switch (db : Database σ ObservedCache) (off : Bool) : Database σ ObservedCache :=
  { db with cache := db.cache.map (·.switch off) }

theorem executor_switch (db : Database σ ObservedCache) (off : Bool) :
    (db.switch off).executor = db.executor := rfl

theorem cache_switch {db : Database σ ObservedCache} {cache : QueryCache ObservedCache}
    (h : db.cache = some cache) (off : Bool) :
    (db.switch off).cache = some (cache.switch off) := by
  unfold switch
  rw [h]
  rfl

/-- The text that the cache's backend has for a key, whether or not it is on. -/
def held? (db : Database σ ObservedCache) (key : String) : Option String :=
  db.cache.bind (·.held? key)

/-- The moments that the texts left behind are from when the worker is done. -/
def leftBehind (db : Database σ ObservedCache) (before : σ) (known : String → Option σ) :
    String → Option σ :=
  match db.cache with
  | some cache => cache.leftBehind before known
  | none => known

theorem leftBehind_switch {db : Database σ ObservedCache} {cache : QueryCache ObservedCache}
    (hcache : db.cache = some cache) {left : String → Option σ} {key : String}
    (hleft : left key = none) {later : Bool}
    (hsafe : later = false ∨ ∀ command ∈ cache.queue, ¬command.Removes key) (before : σ) :
    (db.switch later).leftBehind before left key = none := by
  unfold leftBehind
  rw [cache_switch hcache later]
  exact QueryCache.leftBehind_eq_none hleft hsafe

/-- The request of a turn is answered, and the backend is switched for the worker. -/
def serve [Executor σ] (db : Database σ ObservedCache) (turn : Turn) : Database σ ObservedCache :=
  match turn.request with
  | .read read => ((db.switch turn.off).select read.plan).2.switch turn.later
  | .change change => ((db.switch turn.off).write change.plan change.kind).2.switch turn.later

end Database

/-- Reads and changes under an executor whose rows for a read change only through changes to tables
that the read touched.  Keys tell apart what reads ask for. -/
structure Workload (σ : Type) [Executor σ] where
  reads : Read → Prop
  changes : Change → Prop
  rows_after_read : ∀ {read other : Read}, reads read → reads other → ∀ executor : σ,
    read.rows (other.after executor) = read.rows executor
  rows_after_change : ∀ {read : Read} {change : Change}, reads read → changes change →
    change.table ∉ read.plan.touched → ∀ {executor : σ} {affected : Nat},
      change.affected executor = .ok affected →
        read.rows (change.after executor) = read.rows executor
  rows_of_key : ∀ {read other : Read}, reads read → reads other → read.key = other.key →
    ∀ executor : σ, read.rows executor = other.rows executor

namespace Workload

variable {σ : Type} [Executor σ]

/-- A read, or a change that succeeds. -/
def Admits (work : Workload σ) (executor : σ) : Request → Prop
  | .read read => work.reads read
  | .change change => work.changes change ∧ ∃ affected, change.affected executor = .ok affected

/-- A database behind turns in order, and the executor's states that the rows left behind are
from. -/
inductive Ran (work : Workload σ) :
    List Turn → Database σ ObservedCache → (String → Option σ) → Prop
  | start {db : Database σ ObservedCache} (capacity : Nat) (down : Bool)
      (calls : List BackendCall)
      (h : db.cache = some { backend := ⟨.empty capacity, down, calls⟩ }) :
      Ran work [] db fun _ => none
  | snoc {turns : List Turn} {db : Database σ ObservedCache} {left : String → Option σ}
      (turn : Turn) (h : Ran work turns db left) (hadmits : work.Admits db.executor turn.request) :
      Ran work (turns ++ [turn]) (db.serve turn).settle
        ((db.serve turn).leftBehind db.executor left)

/-- A text that stands for the rows of a read at a moment, and the tables that the read touched. -/
def Origin (work : Workload σ) (moment : σ) (key payload : String) (tables : List String) : Prop :=
  ∃ read, work.reads read ∧ read.key = key ∧ read.payload moment = some payload ∧
    tables = read.plan.touched

variable {work : Workload σ} {db : Database σ ObservedCache} {left : String → Option σ}

theorem origin_after_read {read : Read} (hread : work.reads read) {moment : σ}
    {key payload : String} {tables : List String} (h : work.Origin moment key payload tables) :
    work.Origin (read.after moment) key payload tables := by
  rcases h with ⟨other, hother, hkey, hpayload, htables⟩
  refine ⟨other, hother, hkey, ?_, htables⟩
  unfold Read.payload at hpayload ⊢
  rwa [work.rows_after_read hother hread moment]

theorem origin_after_change {change : Change} (hchange : work.changes change) {moment : σ}
    {affected : Nat} (haffected : change.affected moment = .ok affected) {key payload : String}
    {tables : List String} (huntouched : change.table ∉ tables)
    (h : work.Origin moment key payload tables) :
    work.Origin (change.after moment) key payload tables := by
  rcases h with ⟨other, hother, hkey, hpayload, rfl⟩
  refine ⟨other, hother, hkey, ?_, rfl⟩
  unfold Read.payload at hpayload ⊢
  rwa [work.rows_after_change hother hchange huntouched haffected]

/-- The texts of a database's cache are accounted for. -/
def Accounted (work : Workload σ) (db : Database σ ObservedCache) (left : String → Option σ) :
    Prop :=
  ∃ cache, db.cache = some cache ∧ cache.Accounted work.Origin db.executor left

theorem accounted_settle {cache : QueryCache ObservedCache} (hcache : db.cache = some cache)
    (later : Bool) {before : σ}
    (h : (cache.switch later).settle.1.Accounted work.Origin db.executor
      ((cache.switch later).leftBehind before left)) :
    work.Accounted (db.switch later).settle ((db.switch later).leftBehind before left) := by
  have hswitched := Database.cache_switch hcache later
  refine ⟨_, Database.cache_settle hswitched, ?_⟩
  rw [Database.executor_settle]
  unfold Database.leftBehind
  rw [hswitched]
  exact h

theorem accounted_read (h : work.Accounted db left) {read : Read} (hread : work.reads read)
    (off later : Bool) (before : σ) :
    work.Accounted (db.serve ⟨.read read, off, later⟩).settle
      ((db.serve ⟨.read read, off, later⟩).leftBehind before left) := by
  rcases h with ⟨cache, hcache, hcached⟩
  have hafter : ∀ {behind : QueryCache ObservedCache},
      behind.Accounted work.Origin db.executor left →
        behind.Accounted work.Origin (read.after db.executor) left :=
    fun hbehind => hbehind.pass fun horigin _ => origin_after_read hread horigin
  unfold Database.serve
  dsimp only
  rcases Database.select_snd (Database.cache_switch hcache off) read with ⟨looked, hlooked, hbehind⟩
  have haccounted : looked.Accounted work.Origin db.executor left := by
    rcases hlooked with rfl | rfl
    · exact hcached.switch off
    · exact (hcached.switch off).get read.key
  rcases hbehind with ⟨hexecutor, hbehind⟩ | ⟨records, hrows, hexecutor, hbehind⟩
  · refine accounted_settle hbehind later ?_
    rcases hexecutor with hexecutor | hexecutor
    · rw [hexecutor]
      exact (haccounted.switch later).settle before
    · rw [hexecutor]
      exact ((hafter haccounted).switch later).settle before
  · refine accounted_settle hbehind later ?_
    rw [hexecutor]
    have hstored : work.Origin (read.after db.executor) read.key
        (Record.listToJson records).text read.plan.touched := by
      refine ⟨read, hread, rfl, ?_, rfl⟩
      have hrows' : read.rows db.executor = .ok records := hrows
      unfold Read.payload
      rw [work.rows_after_read hread hread, hrows']
      rfl
    exact (hafter haccounted).store hstored later before

theorem accounted_change (h : work.Accounted db left) {change : Change}
    (hchange : work.changes change) {affected : Nat}
    (haffected : change.affected db.executor = .ok affected) (off later : Bool) :
    work.Accounted (db.serve ⟨.change change, off, later⟩).settle
      ((db.serve ⟨.change change, off, later⟩).leftBehind db.executor left) := by
  rcases h with ⟨cache, hcache, hcached⟩
  unfold Database.serve
  dsimp only
  rcases Database.write_snd (Database.cache_switch hcache off) haffected with ⟨hexecutor, hbehind⟩
  refine accounted_settle hbehind later ?_
  rw [hexecutor]
  refine (hcached.switch off).drop (fun hnone horigin => ?_) later
  exact origin_after_change hchange haffected (hnone _ List.mem_cons_self) horigin

/-- Whatever is asked and however often the backend is off, the texts are accounted for. -/
theorem Ran.accounted {turns : List Turn} (h : work.Ran turns db left) :
    work.Accounted db left := by
  induction h with
  | start capacity down calls hcache =>
      exact ⟨_, hcache, QueryCache.Accounted.fresh capacity down calls⟩
  | snoc turn hran hadmits ih =>
      rcases turn with ⟨request, off, later⟩
      cases request with
      | read read => exact accounted_read ih hadmits off later _
      | change change =>
          rcases hadmits with ⟨hchange, affected, haffected⟩
          exact accounted_change ih hchange haffected off later

/-! ## What is left behind -/

/-- A turn in which no removal can fail leaves nothing behind. -/
theorem leftBehind_safe (h : work.Accounted db left) {turn : Turn}
    (hadmits : work.Admits db.executor turn.request) (hsafe : turn.Safe) {key : String}
    (hleft : left key = none) (before : σ) :
    (db.serve turn).leftBehind before left key = none := by
  rcases h with ⟨cache, hcache, hcached⟩
  rcases turn with ⟨request, off, later⟩
  have hswitched := Database.cache_switch hcache off
  cases request with
  | read read =>
      rcases Database.select_snd hswitched read with ⟨looked, hlooked, hbehind⟩
      have hidle : looked.queue = [] := by
        rcases hlooked with rfl | rfl
        · exact hcached.idle
        · exact ((hcached.switch off).get read.key).idle
      rcases hbehind with ⟨_, hbehind⟩ | ⟨records, _, _, hbehind⟩
      · exact Database.leftBehind_switch hbehind hleft (.inr (by simp [hidle])) before
      · refine Database.leftBehind_switch hbehind hleft (.inr ?_) before
        rw [QueryCache.set_live, hidle]
        simp [QueryCache.queue, Command.Removes]
  | change change =>
      rcases hadmits with ⟨_, affected, haffected⟩
      rcases Database.write_snd hswitched haffected with ⟨_, hbehind⟩
      exact Database.leftBehind_switch hbehind hleft (.inl hsafe) before

/-- While every removal finds the backend on, nothing is left behind. -/
theorem Ran.left_eq_none {turns : List Turn} (h : work.Ran turns db left)
    (hsafe : ∀ turn ∈ turns, turn.Safe) (key : String) : left key = none := by
  induction h with
  | start capacity down calls hcache => rfl
  | snoc turn hran hadmits ih =>
      have hearlier := ih fun turn hturn => hsafe turn (List.mem_append_left _ hturn)
      exact leftBehind_safe hran.accounted hadmits
        (hsafe turn (List.mem_append_right _ List.mem_cons_self)) hearlier _

/-! ## Main statement -/

/-- What a held text stands for. -/
theorem recalled_of_held (h : work.Accounted db left) {read : Read} (hread : work.reads read)
    {payload : String} (hheld : db.held? read.key = some payload) :
    read.recalled ((left read.key).getD db.executor) =
      read.models? (Record.listOfText? payload) := by
  rcases h with ⟨cache, hcache, hcached⟩
  unfold Database.held? at hheld
  rw [hcache] at hheld
  rcases hcached.source hheld with ⟨_, ⟨other, hother, hkey, hpayload, _⟩, _⟩
  unfold Read.recalled
  have hsame : read.payload ((left read.key).getD db.executor) = some payload := by
    rw [← hpayload]
    unfold Read.payload
    rw [work.rows_of_key hread hother hkey.symm]
  rw [hsame]
  rfl

theorem select_switch (h : work.Accounted db left) {read : Read} (hread : work.reads read)
    (hcacheable : read.plan.cacheable = true) (off : Bool) :
    ((db.switch off).select read.plan).1 =
      if off = true ∨ db.held? read.key = none then read.answer db.executor
      else match read.recalled ((left read.key).getD db.executor) with
        | some models => .ok models
        | none => read.answer db.executor := by
  have hrecalled := fun payload => @recalled_of_held σ _ work db left h read hread payload
  rcases h with ⟨cache, hcache, hcached⟩
  have hheld : db.held? read.key = cache.held? read.key := by
    unfold Database.held?
    rw [hcache]
    rfl
  have hread' : ((cache.switch off).get read.key).1 =
      if off then none else (db.held? read.key).bind Record.listOfText? := by
    rw [QueryCache.get_observed, hheld]
    rfl
  rw [Database.select_fst (Database.cache_switch hcache off) hcacheable, hread']
  cases off with
  | true => rfl
  | false =>
      cases hfound : db.held? read.key with
      | none => rfl
      | some payload =>
          rw [if_neg (by simp), hrecalled payload hfound]
          rfl

/-- Whatever was asked before and however often the backend was off, a read is answered with the
models that the executor has at this moment, exactly unless the backend is on and holds rows that
read back to other models; these are then the rows of now, or those that a failed removal left
behind.  So as long as every removal found the backend on, a read whose rows can be stored is
answered exactly. -/
theorem select_exact_iff {turns : List Turn} (h : work.Ran turns db left) {read : Read}
    (hread : work.reads read) (off : Bool) :
    let answer := ((db.switch off).select read.plan).1
    let moment := (left read.key).getD db.executor
    (answer = read.answer db.executor ↔
      off = true ∨ read.plan.cacheable = false ∨ db.held? read.key = none ∨
        ∀ models, read.recalled moment = some models → .ok models = read.answer db.executor) ∧
    ((∀ turn ∈ turns, turn.Safe) → read.Storable db.executor →
      answer = read.answer db.executor) := by
  intro answer moment
  have hiff : answer = read.answer db.executor ↔
      off = true ∨ read.plan.cacheable = false ∨ db.held? read.key = none ∨
        ∀ models, read.recalled moment = some models → .ok models = read.answer db.executor := by
    cases hcacheable : read.plan.cacheable with
    | false =>
        have huncached : ((db.switch off).cache.isSome && read.plan.cacheable) = false := by
          rw [hcacheable, Bool.and_false]
        have hanswer : answer = read.answer db.executor := by
          show ((db.switch off).select read.plan).1 = _
          rw [Database.select_uncached huncached]
          rfl
        simp [hanswer]
    | true =>
        have hanswer := select_switch h.accounted hread hcacheable off
        show ((db.switch off).select read.plan).1 = _ ↔ _
        rw [hanswer]
        by_cases hmiss : off = true ∨ db.held? read.key = none
        · rw [if_pos hmiss]
          rcases hmiss with hoff | hnone
          · simp [hoff]
          · simp [hnone]
        · rw [if_neg hmiss]
          have hhit := not_or.1 hmiss
          simp only [hhit.1, hhit.2, Bool.false_eq_true, Bool.true_eq_false, false_or]
          exact Read.found_eq_iff
  refine ⟨hiff, fun hsafe hstorable => ?_⟩
  have hnow : moment = db.executor := by
    show (left read.key).getD db.executor = db.executor
    rw [h.left_eq_none hsafe]
    rfl
  refine hiff.2 (.inr (.inr (.inr fun models hmodels => ?_)))
  rw [hnow, Read.recalled_of_storable hstorable] at hmodels
  cases hexecutor : read.answer db.executor with
  | error error =>
      rw [hexecutor] at hmodels
      cases hmodels
  | ok found =>
      rw [hexecutor] at hmodels
      cases hmodels
      rfl

end Workload

/-! ## A removal that fails -/

namespace Shelf

def work : Workload Shelf where
  reads other := other = read
  changes change := change = clear
  rows_after_read := by
    rintro _ _ rfl rfl executor
    rfl
  rows_after_change := by
    rintro _ _ rfl rfl huntouched
    rw [table_clear, touched_read] at huntouched
    exact absurd List.mem_cons_self huntouched
  rows_of_key := by
    rintro _ _ rfl rfl _ _
    rfl

/-- The row is read and stored, and is still stored when the table is cleared during an outage. -/
def outage : List Turn :=
  [⟨.read read, false, false⟩, ⟨.change clear, false, true⟩]

/-- A cache that holds the row. -/
def kept (key : String) : QueryCache ObservedCache where
  backend := { memory := ⟨1, [(key, payload)], [key]⟩, calls := [.get key, .set key payload] }
  registry := ⟨[("\"shelf\"", [key])]⟩
  worker := .live []

/-- The row is to be removed, but the backend is off. -/
def doomed (key : String) : QueryCache ObservedCache :=
  (((kept key).switch false).dropEntries true ["\"shelf\""]).1.switch true

theorem queue_doomed (key : String) : (doomed key).queue = [.remove [key]] := by
  cbv

theorem held?_doomed (key : String) : (doomed key).settle.1.held? key = some payload := by
  have hkept : (doomed key).backend = { (kept key).backend with down := true } := by
    unfold doomed QueryCache.switch
    rw [QueryCache.backend_dropEntries]
  unfold QueryCache.held?
  rw [QueryCache.memory_settle_singleton (queue_doomed key), hkept]
  simp [kept, MemoryCache.peek?]

theorem leftBehind_doomed {key : String} {left : String → Option Shelf} (hleft : left key = none)
    (before : Shelf) : (doomed key).leftBehind before left key = some before := by
  have hdown : (doomed key).backend.down = true := rfl
  rw [QueryCache.leftBehind_of_held (held?_doomed key), queue_doomed, hleft, hdown]
  simp [Command.moment, Command.Removes]

theorem cache_read : ((database (⟨.empty 1, false, []⟩ : ObservedCache)).serve
    ⟨.read read, false, false⟩).settle.cache = some (kept read.key) := by
  unfold Database.serve
  dsimp only
  rw [Database.select_eq rfl]
  generalize read.key = key
  cbv

theorem executor_read : ((database (⟨.empty 1, false, []⟩ : ObservedCache)).serve
    ⟨.read read, false, false⟩).settle.executor = ⟨false⟩ := by
  unfold Database.serve
  dsimp only
  rw [Database.select_eq rfl]
  generalize read.key = key
  cbv

/-- The table is cleared while the backend is off for the worker. -/
theorem serve_clear {db : Database Shelf ObservedCache} (hcache : db.cache = some (kept read.key))
    {left : String → Option Shelf} (hleft : left read.key = none) (before : Shelf) :
    let front := db.serve ⟨.change clear, false, true⟩
    front.settle.executor = ⟨true⟩ ∧ front.settle.held? read.key = some payload ∧
      front.leftBehind before left read.key = some before := by
  intro front
  have hwritten : clear.affected db.executor = .ok 1 := rfl
  rcases Database.write_snd (Database.cache_switch hcache false) hwritten with ⟨hexecutor, hbehind⟩
  rw [table_clear] at hbehind
  have hfront : front.cache = some (doomed read.key) := Database.cache_switch hbehind true
  refine ⟨?_, ?_, ?_⟩
  · rw [Database.executor_settle]
    show (((db.switch false).write clear.plan clear.kind).2.switch true).executor = ⟨true⟩
    rw [Database.executor_switch, hexecutor]
    rfl
  · unfold Database.held?
    rw [Database.cache_settle hfront]
    exact held?_doomed read.key
  · unfold Database.leftBehind
    rw [hfront]
    exact leftBehind_doomed hleft before

/-- A later read is answered with the row that is left behind. -/
theorem select_exact_iff_left_behind : ∃ db left, work.Ran outage db left ∧ work.reads read ∧
    left read.key = some ⟨false⟩ ∧ read.answer db.executor = .ok [] ∧
    ((db.switch false).select read.plan).1 ≠ read.answer db.executor := by
  have hstart : work.Ran [] (database ⟨.empty 1, false, []⟩) fun _ => none :=
    .start 1 false [] rfl
  have hread := hstart.snoc ⟨.read read, false, false⟩ rfl
  have hclear := hread.snoc ⟨.change clear, false, true⟩ ⟨rfl, 1, rfl⟩
  have hsafe : ∀ turn ∈ ([] ++ [⟨.read read, false, false⟩] : List Turn), turn.Safe := by
    simp [Turn.Safe]
  rcases serve_clear cache_read (hread.left_eq_none hsafe read.key) ⟨false⟩ with
    ⟨hexecutor, hheld, hleft⟩
  rw [executor_read] at hclear
  have hempty : read.answer (⟨true⟩ : Shelf) = .ok [] := answer_empty
  have hrecalled : read.recalled (⟨false⟩ : Shelf) = some [kindred] := by
    cbv
  refine ⟨_, _, hclear, rfl, hleft, by rw [hexecutor, hempty], fun hexact => ?_⟩
  have hwhy := (Workload.select_exact_iff hclear rfl false).1.1 hexact
  rw [hleft, hheld, hexecutor, hempty] at hwhy
  rcases hwhy with hoff | huncached | hnone | hsame
  · cases hoff
  · have hcacheable : read.plan.cacheable = true := by cbv
    rw [hcacheable] at huncached
    cases huncached
  · cases hnone
  · cases hsame _ hrecalled

end Shelf

end FieldQuery
