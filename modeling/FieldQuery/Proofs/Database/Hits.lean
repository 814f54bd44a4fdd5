import FieldQuery.Executor.Canned
import FieldQuery.Proofs.Cache.Recency
import FieldQuery.Proofs.Database.Registrations
import FieldQuery.Proofs.Json.Rows
import FieldQuery.Proofs.Plan.Rebuilding

/-!
# What a hit returns

A cached read that finds nothing stores the executor's rows, and the worker puts them into the
backend.  The plan built anew has the same key and makes the same models of the same rows, so it is
answered without the executor, provided that the rows are read back as they were stored.

Main definitions:

- `Database.behind`: a database with another executor.
- `Database.Misses`: a query is cached and finds nothing.

Main statement: `Database.select_again`; `Misses.select_of_read_back` and
`Misses.select_of_unreadable` say what comes of rows that are read back and of rows that are not.
-/

namespace FieldQuery

open Cache

/-! ## What is sent again -/

namespace Read

def sent (read : Read) : Sent :=
  ⟨read.statement, read.sql, read.arguments, read.key⟩

theorem plan_sent (read : Read) : read.plan.sent .select = .ok read.sent := by
  show read.plan.selectStatement.map _ = _
  rw [read.compiles]
  rfl

/-- A plan that sends something is that of a read. -/
theorem exists_of_sent {plan : Plan} {sent : Sent} (h : plan.sent .select = .ok sent) :
    ∃ read : Read, read.plan = plan ∧ read.sent = sent := by
  cases hstatement : plan.selectStatement with
  | error error =>
      have hnone : plan.sent .select = .error error := by
        show plan.selectStatement.map _ = _
        rw [hstatement]
        rfl
      cases hnone.symm.trans h
  | ok statement =>
      let read : Read := ⟨plan, statement, hstatement⟩
      exact ⟨read, rfl, Except.ok.inj (read.plan_sent.symm.trans h)⟩

end Read

/-- What one query sends, every query that is alike sends. -/
theorem Query.Alike.sent_eq {query again : Query} (h : query.Alike again) {action : Action}
    {sent : Sent} (hsent : query.plan.sent action = .ok sent) :
    again.plan.sent action = .ok sent := by
  have hboth := h.sent action
  rw [hsent] at hboth
  cases hagain : again.plan.sent action with
  | error error =>
      rw [hagain] at hboth
      cases hboth
  | ok sent' =>
      rw [hagain] at hboth
      exact congrArg Except.ok (Except.ok.inj hboth).symm

/-! ## Misses and hits -/

namespace Database

variable {σ τ β : Type}

/-- The same cache in front of another executor. -/
def behind (db : Database σ β) (executor : τ) : Database τ β :=
  { config := db.config, executor := executor, cache := db.cache, events := db.events }

variable [Executor σ] [Executor τ]

/-- A read that finds models does not come to the executor. -/
theorem select_of_found [Backend β] {db : Database σ β} {read : Read} {models : List Json}
    (hcached : (db.cache.isSome && read.plan.cacheable) = true)
    (hfound : (db.lookUp read.plan read.key).1 = some models) :
    (db.select read.plan).1 = .ok models ∧ (db.select read.plan).2.executor = db.executor := by
  have hexecutor := executor_lookUp db read.plan read.key
  rw [select_eq hcached]
  generalize db.lookUp read.plan read.key = looked at hfound hexecutor ⊢
  rcases looked with ⟨found, behind⟩
  cases hfound
  exact ⟨rfl, hexecutor⟩

/-- A read that finds no models is answered by the executor. -/
theorem select_of_missed [Backend β] {db : Database σ β} {read : Read}
    (hcached : (db.cache.isSome && read.plan.cacheable) = true)
    (hmissed : (db.lookUp read.plan read.key).1 = none) :
    (db.select read.plan).1 = read.answer db.executor ∧
      (db.select read.plan).2.executor = read.after db.executor := by
  have hexecutor := executor_lookUp db read.plan read.key
  rw [select_eq hcached]
  generalize db.lookUp read.plan read.key = looked at hmissed hexecutor ⊢
  rcases looked with ⟨found, behind⟩
  cases hmissed
  rw [← hexecutor]
  unfold ask Read.answer
  dsimp only
  cases read.rows behind.executor with
  | error error => exact ⟨rfl, rfl⟩
  | ok records => exact ⟨rfl, executor_remember ..⟩

/-- A query is cached, there is room in its cache but nothing under its key, and the executor has
rows for it. -/
structure Misses (db : Database σ MemoryCache) (cache : QueryCache MemoryCache) (query : Query)
    (sent : Sent) (records : List Record) : Prop where
  cached : db.cache = some cache
  used : cache.backend.Used
  room : 1 ≤ cache.backend.capacity
  cacheable : query.plan.cacheable = true
  sends : query.plan.sent .select = .ok sent
  fresh : cache.backend.peek? sent.key = none
  rows : (Executor.select sent.sql sent.arguments db.executor).1 = .ok records

namespace Misses

variable {db : Database σ MemoryCache} {cache : QueryCache MemoryCache} {query again : Query}
  {sent : Sent} {records : List Record}

/-- The query is answered with the models of the executor's rows, which the worker puts into the
backend. -/
theorem stores (h : db.Misses cache query sent records) :
    (db.select query.plan).1 = query.plan.decode records ∧
      ∃ settled, (db.select query.plan).2.settle.cache = some settled ∧
        settled.backend.peek? sent.key = some (Record.listToJson records).text := by
  rcases Read.exists_of_sent h.sends with ⟨read, hplan, rfl⟩
  have hcacheable : read.plan.cacheable = true := hplan ▸ h.cacheable
  have hrows : read.rows db.executor = .ok records := h.rows
  have hfresh : cache.backend.peek? read.key = none := h.fresh
  have hmissed : (db.lookUp read.plan read.key).1 = none := by
    rw [lookUp_fst h.cached, QueryCache.get_memory, hfresh]
    rfl
  -- nothing is found, so nothing counts as used
  have hsame : (cache.get read.key).2.1 = cache := by
    have hget : (cache.backend.get read.key).2 = cache.backend := by
      unfold MemoryCache.get
      rw [hfresh]
    rw [QueryCache.get_cache]
    exact congrArg (fun backend => { cache with backend := backend }) hget
  rw [← hplan]
  refine ⟨?_, ?_⟩
  · have hanswer := (select_of_missed (by rw [h.cached, hcacheable]; rfl) hmissed).1
    rw [hanswer, Read.answer, hrows]
    rfl
  · rcases cache_handle_read h.cached read with ⟨stored, hstores, hsettled⟩ | ⟨hnone, -⟩
    · have hstored : stored = records := Except.ok.inj (hstores.rows.symm.trans hrows)
      rw [hsame, hstored] at hsettled
      exact ⟨_, hsettled, QueryCache.peek?_settle_set h.used.tidy h.room _ _ records⟩
    · exact absurd ⟨hcacheable, hmissed, hrows⟩ (hnone records)

omit [Executor τ] in
/-- Whatever executor stands behind the cache by then, a query that is alike finds what is read back
of the rows. -/
theorem exists_second (h : db.Misses cache query sent records) (halike : query.Alike again)
    (executor : τ) :
    let later := (db.select query.plan).2.settle.behind executor
    ∃ second : Read, second.plan = again.plan ∧ second.sent = sent ∧
      (later.cache.isSome && second.plan.cacheable) = true ∧
      (later.lookUp second.plan second.key).1 =
        second.models? (Record.listOfText? (Record.listToJson records).text) := by
  intro later
  rcases h.stores.2 with ⟨settled, hsettled, hheld⟩
  have hlater : later.cache = some settled := hsettled
  rcases Read.exists_of_sent (halike.sent_eq h.sends) with ⟨second, hsecond, rfl⟩
  refine ⟨second, hsecond, rfl, ?_, ?_⟩
  · rw [hlater, hsecond, ← halike.cacheable, h.cacheable]
    rfl
  · rw [lookUp_fst hlater, QueryCache.get_memory]
    exact congrArg (fun held => second.models? (held.bind Record.listOfText?)) hheld

/-- Rows that are read back are not asked for again. -/
theorem select_of_read_back (h : db.Misses cache query sent records) (halike : query.Alike again)
    {found : List Record} {models : List Json}
    (hback : Record.listOfText? (Record.listToJson records).text = some found)
    (hmodels : query.plan.decode found = .ok models) (executor : τ) :
    let served := ((db.select query.plan).2.settle.behind executor).select again.plan
    served.1 = .ok models ∧ served.2.executor = executor := by
  rcases h.exists_second halike executor with ⟨second, hsecond, -, hcached, hfound⟩
  have hdecode : second.plan.decode found = .ok models := by
    rw [hsecond, ← halike.decode found, hmodels]
  rw [hback] at hfound
  rw [← hsecond]
  refine select_of_found hcached (hfound.trans ?_)
  unfold Read.models?
  rw [Option.bind_some, hdecode]
  rfl

/-- Rows that cannot be read back are asked for again. -/
theorem select_of_unreadable (h : db.Misses cache query sent records) (halike : query.Alike again)
    (hback : Record.listOfText? (Record.listToJson records).text = none) (executor : τ) :
    (((db.select query.plan).2.settle.behind executor).select again.plan).2.executor =
      (Executor.select sent.sql sent.arguments executor).2 := by
  rcases h.exists_second halike executor with ⟨second, hsecond, rfl, hcached, hfound⟩
  rw [hback] at hfound
  rw [← hsecond]
  exact (select_of_missed hcached hfound).2

end Misses

/-- A cached read that finds nothing and succeeds is answered by the executor.  Behind the worker
the same plan, built again by the same program, has the same models, and the executor is not asked
for them: it may be any other, and stays as it is.  The numbers in the rows are integers, and with
the four levels that a row is stored in no value nests deeper than the reader goes. -/
theorem select_again {db : Database σ MemoryCache} {cache : QueryCache MemoryCache}
    {catalog : Catalog} {forest other : Forest} (hforest : forest.Grown catalog)
    (hother : other.Grown catalog) {program : List Instruction} {first second : Bench}
    (hfirst : Bench.Runs catalog ⟨forest, {}⟩ program first)
    (hsecond : Bench.Runs catalog ⟨other, {}⟩ program second) {number : Nat} {query again : Query}
    (hquery : first.made.queries[number]? = some query)
    (hagain : second.made.queries[number]? = some again) {sent : Sent} {records : List Record}
    (hmisses : db.Misses cache query sent records)
    (hvalues : ∀ record ∈ records, ∀ column ∈ record.columns,
      column.2.Storable ∧ column.2.nesting + 4 ≤ Json.depthLimit)
    {models : List Json} (hmodels : (db.select query.plan).1 = .ok models) (executor : τ) :
    let served := ((db.select query.plan).2.settle.behind executor).select again.plan
    served.1 = .ok models ∧ served.2.executor = executor := by
  have halike := hfirst.alike_of_getElem? hforest hother hsecond hquery hagain
  have hback : Record.listOfText? (Record.listToJson records).text = some records := by
    have hnesting : (Record.listToJson records).nesting ≤ Json.depthLimit :=
      Record.nesting_listToJson_le.2 fun record hrecord column hcolumn =>
        Nat.le_sub_of_add_le (hvalues record hrecord column hcolumn).2
    rw [Record.listOfText?_text fun record hrecord column hcolumn =>
      (hvalues record hrecord column hcolumn).1, if_pos hnesting]
  exact hmisses.select_of_read_back halike hback (hmisses.stores.1.symm.trans hmodels) executor

end Database

/-! ## A shelf with a book -/

namespace Shelf

/-- A shelf with one row, in front of which nothing is cached yet. -/
def stocked (book : Json) : Database CannedExecutor MemoryCache where
  config := { catalog := ⟨[table]⟩ }
  executor := { rows := [⟨[("book", book)]⟩] }
  cache := some { backend := .empty 1 }

/-- The books on the shelf, asked for by a reference with these tokens. -/
def query (own book : Nat) : Query :=
  .start .postgres ⟨[table]⟩ true [] (.model ⟨table, some ⟨own⟩, [⟨book⟩]⟩)

def program : List Instruction :=
  [.plant 0, .target 0 [], .make (.start .postgres true [] 0)]

/-- A forest with a reference of the table. -/
def planted : Forest :=
  (Forest.plant ⟨[table]⟩ 0 {}).2

/-- The program is carried out in an empty forest, and in one that has a reference already. -/
theorem runs_program : ∃ first second, Bench.Runs ⟨[table]⟩ ⟨{}, {}⟩ program first ∧
    Bench.Runs ⟨[table]⟩ ⟨planted, {}⟩ program second ∧
    first.made.queries[0]? = some (query 1 2) ∧ second.made.queries[0]? = some (query 3 4) := by
  have hfirst : ∃ first, Bench.run? ⟨[table]⟩ ⟨{}, {}⟩ program = some first ∧
      first.made.queries[0]? = some (query 1 2) := ⟨_, rfl, rfl⟩
  have hsecond : ∃ second, Bench.run? ⟨[table]⟩ ⟨planted, {}⟩ program = some second ∧
      second.made.queries[0]? = some (query 3 4) := ⟨_, rfl, rfl⟩
  rcases hfirst with ⟨first, hfirst, hquery⟩
  rcases hsecond with ⟨second, hsecond, hagain⟩
  exact ⟨first, second, Bench.runs_of_run? hfirst, Bench.runs_of_run? hsecond, hquery, hagain⟩

theorem decode_query {book : Json} (h : book.isNull = false) :
    (query 1 2).plan.decode [⟨[("book", book)]⟩] = .ok [.obj [("book", book)]] := by
  cases book with
  | null => cases h
  | bool | num | str | arr | obj => cbv

def bookRead : Read where
  plan := (query 1 2).plan
  statement := read.statement
  compiles := by cbv

theorem misses_stocked (book : Json) : (stocked book).Misses { backend := .empty 1 } (query 1 2)
    bookRead.sent [⟨[("book", book)]⟩] where
  cached := rfl
  used := .empty 1
  room := Nat.le_refl 1
  cacheable := by cbv
  sends := bookRead.plan_sent
  fresh := rfl
  rows := rfl

theorem select_stocked {book : Json} (h : book.isNull = false) :
    ((stocked book).select (query 1 2).plan).1 = .ok [.obj [("book", book)]] :=
  (misses_stocked book).stores.1.trans (decode_query h)

/-- The book is found again by an executor that has no rows, and is not asked for any. -/
theorem select_again_stocked : ∃ first second, Bench.Runs ⟨[table]⟩ ⟨{}, {}⟩ program first ∧
    Bench.Runs ⟨[table]⟩ ⟨planted, {}⟩ program second ∧
    first.made.queries[0]? = some (query 1 2) ∧ second.made.queries[0]? = some (query 3 4) ∧
    let db := stocked (.str "Kindred")
    let served := ((db.select (query 1 2).plan).2.settle.behind ({} : CannedExecutor)).select
      (query 3 4).plan
    (db.select (query 1 2).plan).1 = .ok [kindred] ∧ served.1 = .ok [kindred] ∧
      served.2.executor.calls = [] := by
  rcases runs_program with ⟨first, second, hfirst, hsecond, hquery, hagain⟩
  have hselect : ((stocked (.str "Kindred")).select (query 1 2).plan).1 = .ok [kindred] :=
    select_stocked rfl
  have hvalues : ∀ record ∈ [Record.mk [("book", .str "Kindred")]], ∀ column ∈ record.columns,
      column.2.Storable ∧ column.2.nesting + 4 ≤ Json.depthLimit := by
    simp [Json.Storable, Json.nesting, Json.depthLimit]
  have hserved := Database.select_again .empty (.plant .empty 0) hfirst hsecond hquery hagain
    (misses_stocked _) hvalues hselect ({} : CannedExecutor)
  exact ⟨first, second, hfirst, hsecond, hquery, hagain, hselect, hserved.1,
    congrArg CannedExecutor.calls hserved.2⟩

end Shelf

/-! ## Rows that are not read back -/

/-- A value in so many arrays. -/
def Json.nested : Nat → Json
  | 0 => .null
  | depth + 1 => .arr [nested depth]

theorem Json.nesting_nested (depth : Nat) : (Json.nested depth).nesting = depth := by
  induction depth with
  | zero => rfl
  | succ depth ih => simp [Json.nested, Json.nesting, Json.itemsNesting, ih]

theorem Json.storable_nested (depth : Nat) : (Json.nested depth).Storable := by
  induction depth with
  | zero => trivial
  | succ depth ih => exact ⟨ih, trivial⟩

namespace Shelf

/-- A whole number, and the one that its text is read as. -/
def whole : Binary64 := ⟨5096006472832567709⟩

def lower : Binary64 := ⟨5096006472832567708⟩

theorem listOfText?_whole :
    Record.listOfText? (Record.listToJson [⟨[("book", .num (.float whole))]⟩]).text =
      some [⟨[("book", .num (.float lower))]⟩] := by
  let literal : Json.NumberLiteral :=
    ⟨false, [5], List.replicate 15 0 ++ [4], true, some (false, [3, 2])⟩
  have hnumber : Json.Number.ofLiteral? literal = some (.float lower) := by
    decide +kernel
  have htext : (Record.listToJson [⟨[("book", .num (.float whole))]⟩]).text =
      "[\x7b\"columns\":[[\"book\",5.0000000000000004e+32]]\x7d]" := by
    decide +kernel
  have hlexemes : Json.Lexeme.ofText?
      "[\x7b\"columns\":[[\"book\",5.0000000000000004e+32]]\x7d]" =
        some [.openArray, .openObject, .str (Json.stringParts "columns"), .colon, .openArray,
          .openArray, .str (Json.stringParts "book"), .comma, .num literal, .closeArray,
          .closeArray, .closeObject, .closeArray] := by
    decide +kernel
  have hdocument : Json.Document.ofText?
      (Record.listToJson [⟨[("book", .num (.float whole))]⟩]).text =
        some (.arr [.obj [(Json.stringParts "columns",
          .arr [.arr [.str (Json.stringParts "book"), .num literal]])]]) := by
    unfold Json.Document.ofText?
    rw [htext, hlexemes]
    rfl
  have hpair : Record.pairOfDocument? 124 (.arr [.str (Json.stringParts "book"), .num literal]) =
      some ("book", .num (.float lower)) := by
    show ((Json.decode? (Json.stringParts "book")).bind fun label =>
      ((Json.Number.ofLiteral? literal).map Json.num).bind fun value => some (label, value)) = _
    rw [Json.decode?_stringParts, hnumber]
    rfl
  unfold Record.listOfText?
  rw [hdocument]
  simp [Json.depthLimit, Record.ofDocument?, Record.columnsMember?_singleton,
    Record.columnsOfDocument?, hpair]

/-- The worker has stored what was selected first. -/
def settled (book : Json) : Database CannedExecutor MemoryCache :=
  ((stocked book).select (query 1 2).plan).2.settle

/-- A whole number that is held as a float comes back as another, and a value that nests less deep
than the reader goes is not read back from within its row, so that the executor is asked twice. -/
theorem select_again_altered_or_asked :
    (query 1 2).Alike (query 3 4) ∧
    (whole.ratio = (500000000000000044845209531449344, 1) ∧ lower ≠ whole ∧
      ((stocked (.num (.float whole))).select (query 1 2).plan).1 =
        .ok [.obj [("book", .num (.float whole))]] ∧
      ((settled (.num (.float whole))).select (query 3 4).plan).1 =
        .ok [.obj [("book", .num (.float lower))]]) ∧
    ((Json.nested 124).nesting < Json.depthLimit ∧ (Json.nested 124).Storable ∧
      ((stocked (.nested 124)).select (query 1 2).plan).1 = .ok [.obj [("book", .nested 124)]] ∧
      ((settled (.nested 124)).select (query 3 4).plan).2.executor.calls.length =
        (settled (.nested 124)).executor.calls.length + 1) := by
  have halike : (query 1 2).Alike (query 3 4) := by
    rcases runs_program with ⟨first, second, hfirst, hsecond, hquery, hagain⟩
    exact hfirst.alike_of_getElem? .empty (.plant .empty 0) hsecond hquery hagain
  refine ⟨halike, ⟨by decide +kernel, by decide, select_stocked rfl, ?_⟩,
    ⟨by rw [Json.nesting_nested]; decide, Json.storable_nested 124, select_stocked rfl, ?_⟩⟩
  · exact ((misses_stocked (.num (.float whole))).select_of_read_back halike listOfText?_whole
      (decode_query rfl) _).1
  · have hback : Record.listOfText?
        (Record.listToJson [⟨[("book", Json.nested 124)]⟩]).text = none := by
      have hstorable : ∀ record ∈ [Record.mk [("book", Json.nested 124)]], record.Storable := by
        simpa [Record.Storable] using Json.storable_nested 124
      have hdeep : ¬(Record.listToJson [⟨[("book", Json.nested 124)]⟩]).nesting ≤ 123 + 4 := by
        rw [Record.nesting_listToJson_le]
        simp [Json.nesting_nested]
      rw [Record.listOfText?_text hstorable]
      exact if_neg hdeep
    have hasked := (misses_stocked (.nested 124)).select_of_unreadable halike hback
      (settled (.nested 124)).executor
    have hcalls := congrArg (fun executor => executor.calls.length) hasked
    exact hcalls.trans List.length_append

end Shelf

end FieldQuery
