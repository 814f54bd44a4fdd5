import FieldQuery.Proofs.Cache.Pending
import Mathlib.Data.List.Induction
import Mathlib.Data.List.Permutation

/-!
# Registrations keep up with the queue

A cache over a backend in memory, used by any number of clients while its runtime lives.  Whatever
they and the worker do, and in whatever order, what is due to a key comes from the last time it was
set, and the key is registered for all of the tables it was set for.

Main definitions:

- `Operation`, `QueryCache.run`: what clients and the worker do, in any order.
- `LatestSet`: the last time that a key was set.

Main statement: `QueryCache.run_registers_outstanding`.
-/

namespace FieldQuery.Cache

/-! ## Runs -/

/-- What clients and the worker do to a cache. -/
inductive Operation
  | set (tables : List String) (key : String) (records : List Record)
  | drop (tables : List String)
  | get (key : String)
  | step

namespace Operation

def apply (cache : QueryCache MemoryCache) : Operation → QueryCache MemoryCache
  | .set tables key records => (cache.set true tables key records).1
  | .drop tables => (cache.dropEntries true tables).1
  | .get key => (cache.get key).2.1
  | .step => cache.step.1

def isStep : Operation → Bool
  | .step => true
  | _ => false

/-- Operations that change neither the registry nor the end of the queue. -/
def Quiet : Operation → Prop
  | .set _ _ _ | .drop _ => False
  | .get _ | .step => True

end Operation

/-- Operations, one after the other. -/
def QueryCache.run (cache : QueryCache MemoryCache) (operations : List Operation) :
    QueryCache MemoryCache :=
  operations.foldl Operation.apply cache

/-- The last time that a key was set, and the operations behind it. -/
structure LatestSet (key : String) (operations : List Operation) (tables : List String)
    (records : List Record) (later : List Operation) : Prop where
  split : ∃ earlier, operations = earlier ++ .set tables key records :: later
  last : ∀ tables records, .set tables key records ∉ later

namespace LatestSet

variable {key : String} {operations later : List Operation} {tables : List String}
  {records : List Record}

theorem of_set (operations : List Operation) (tables : List String) (records : List Record) :
    LatestSet key (operations ++ [.set tables key records]) tables records [] :=
  ⟨⟨operations, rfl⟩, fun _ _ => List.not_mem_nil⟩

theorem snoc (h : LatestSet key operations tables records later) {operation : Operation}
    (hother : ∀ tables records, operation ≠ .set tables key records) :
    LatestSet key (operations ++ [operation]) tables records (later ++ [operation]) := by
  rcases h.split with ⟨earlier, hsplit⟩
  refine ⟨⟨earlier, by simp [hsplit]⟩, fun tables records hmem => ?_⟩
  rcases List.mem_append.1 hmem with hmem | hmem
  · exact h.last tables records hmem
  · exact hother tables records (List.mem_singleton.1 hmem).symm

/-- There is one last time at most. -/
theorem unique {tables' : List String} {records' : List Record} {later' : List Operation}
    (h : LatestSet key operations tables records later)
    (h' : LatestSet key operations tables' records' later') :
    tables' = tables ∧ later' = later := by
  rcases h.split with ⟨front, hfront⟩
  rcases h'.split with ⟨front', hfront'⟩
  rcases List.append_eq_append_iff.1 (hfront.symm.trans hfront') with
    ⟨between, _, htail⟩ | ⟨between, _, htail⟩
  · cases between with
    | nil =>
        injection htail with hset hlater
        injection hset with htables
        exact ⟨htables.symm, hlater.symm⟩
    | cons first rest =>
        injection htail with _ hrest
        exact absurd (hrest ▸ List.mem_append_right _ List.mem_cons_self) (h.last tables' records')
  · cases between with
    | nil =>
        injection htail with hset hlater
        injection hset with htables
        exact ⟨htables, hlater⟩
    | cons first rest =>
        injection htail with _ hrest
        exact absurd (hrest ▸ List.mem_append_right _ List.mem_cons_self) (h'.last tables records)

end LatestSet

/-! ## Waiting for the worker -/

namespace QueryCache

variable {cache : QueryCache MemoryCache}

theorem run_cons (operation : Operation) (operations : List Operation) :
    cache.run (operation :: operations) = (operation.apply cache).run operations := rfl

theorem run_append (front back : List Operation) :
    cache.run (front ++ back) = (cache.run front).run back :=
  List.foldl_append

/-- What every operation keeps, a run keeps. -/
theorem run_keeps {motive : QueryCache MemoryCache → Prop} {operations : List Operation}
    (hkeep : ∀ operation ∈ operations, ∀ cache, motive cache → motive (operation.apply cache))
    (h : motive cache) : motive (cache.run operations) := by
  induction operations generalizing cache with
  | nil => exact h
  | cons operation operations ih =>
      have hrest := fun o ho => hkeep o (List.mem_cons_of_mem _ ho)
      exact ih hrest (hkeep operation List.mem_cons_self cache h)

theorem queue_quiet {operation : Operation} (h : operation.Quiet) :
    (operation.apply cache).queue = cache.queue.drop ([operation].countP (·.isStep)) := by
  cases operation with
  | set tables key records => exact h.elim
  | drop tables => exact h.elim
  | get key =>
      rw [Operation.apply, get_cache]
      rfl
  | step =>
      rw [Operation.apply, queue_step, ← List.drop_one]
      rfl

/-- While nobody sets or drops anything, each step of the worker shortens the queue by one. -/
theorem queue_run_quiet {waiting : List Operation} (h : ∀ operation ∈ waiting, operation.Quiet) :
    (cache.run waiting).queue = cache.queue.drop (waiting.countP (·.isStep)) := by
  induction waiting generalizing cache with
  | nil => rfl
  | cons operation waiting ih =>
      have hhead : (operation.apply cache).queue =
          cache.queue.drop ([operation].countP (·.isStep)) :=
        queue_quiet (h operation List.mem_cons_self)
      have hrest := fun o ho => h o (List.mem_cons_of_mem _ ho)
      have hcount : (operation :: waiting).countP (·.isStep) =
          [operation].countP (·.isStep) + waiting.countP (·.isStep) := by
        rw [← List.countP_append, List.singleton_append]
      rw [run_cons, ih hrest, hhead, List.drop_drop, hcount]

/-- Carrying out a whole queue is as many steps of the worker. -/
theorem run_steps {commands : List Command} (h : cache.worker = .live commands) :
    cache.run (List.replicate commands.length .step) =
      { cache with backend := (carryOutAll commands cache.backend).1, worker := .live [] } := by
  induction commands generalizing cache with
  | nil =>
      rw [← h]
      rfl
  | cons command commands ih =>
      rw [List.length_cons, List.replicate_succ, run_cons, Operation.apply, step_live h, ih rfl]
      rfl

theorem worker_apply (operation : Operation) (h : cache.worker ≠ .dead) :
    (operation.apply cache).worker ≠ .dead := by
  cases operation with
  | set tables key records =>
      rw [Operation.apply, set_live]
      exact Worker.noConfusion
  | drop tables =>
      by_cases hkeys : cache.registry.keysFor tables = []
      · rwa [Operation.apply, dropEntries_of_no_key tables hkeys]
      · rw [Operation.apply, dropEntries_of_keys tables hkeys]
        exact Worker.noConfusion
  | get key => rwa [Operation.apply, get_cache]
  | step =>
      cases hqueue : cache.queue with
      | nil => rwa [Operation.apply, step_of_queue_nil hqueue]
      | cons command commands =>
          rw [Operation.apply, step_live (worker_of_queue hqueue)]
          exact Worker.noConfusion

/-- While its runtime lives, the worker does not die. -/
theorem worker_run {operations : List Operation} (h : cache.worker ≠ .dead) :
    (cache.run operations).worker ≠ .dead :=
  run_keeps (motive := fun cache => cache.worker ≠ .dead)
    (fun operation _ _ hcache => worker_apply operation hcache) h

theorem settle_eq_run (h : cache.worker ≠ .dead) :
    cache.settle.1 = cache.run (List.replicate cache.queue.length .step) := by
  unfold settle queue
  cases hworker : cache.worker with
  | absent => rfl
  | live commands => exact (run_steps hworker).symm
  | dead => exact absurd hworker h

end QueryCache

/-! ## The last time a key was set -/

/-- Rows that a key was last set to, for tables none of which was dropped since. -/
def SetLast (operations : List Operation) (key payload : String) (tables : List String) : Prop :=
  ∃ records later, LatestSet key operations tables records later ∧
    payload = (Record.listToJson records).text ∧
    ∀ dropped, .drop dropped ∈ later → ∀ table ∈ dropped, table ∉ tables

theorem SetLast.snoc {operations : List Operation} {key payload : String} {tables : List String}
    (h : SetLast operations key payload tables) {operation : Operation}
    (hset : ∀ tables records, operation ≠ .set tables key records)
    (hdrop : ∀ dropped, operation = .drop dropped → ∀ table ∈ dropped, table ∉ tables) :
    SetLast (operations ++ [operation]) key payload tables := by
  rcases h with ⟨records, later, hlast, hrows, hnone⟩
  refine ⟨records, _, hlast.snoc hset, hrows, fun dropped hmem => ?_⟩
  rcases List.mem_append.1 hmem with hmem | hmem
  · exact hnone dropped hmem
  · exact hdrop dropped (List.mem_singleton.1 hmem).symm

namespace QueryCache

variable {cache : QueryCache MemoryCache}

theorem Backed.quiet {origin : String → String → List String → Prop} (h : Backed origin cache)
    {operation : Operation} (hquiet : operation.Quiet) : Backed origin (operation.apply cache) := by
  cases operation with
  | set tables key records => exact hquiet.elim
  | drop tables => exact hquiet.elim
  | get key => exact h.get key
  | step => exact h.step

theorem Backed.run_quiet {origin : String → String → List String → Prop} (h : Backed origin cache)
    {waiting : List Operation} (hquiet : ∀ operation ∈ waiting, operation.Quiet) :
    Backed origin (cache.run waiting) :=
  run_keeps (motive := Backed origin)
    (fun operation hmem _ hcache => hcache.quiet (hquiet operation hmem)) h

theorem Backed.apply {operations : List Operation} (h : Backed (SetLast operations) cache)
    (operation : Operation) :
    Backed (SetLast (operations ++ [operation])) (operation.apply cache) := by
  cases operation with
  | set tables key records =>
      refine h.set ⟨records, [], LatestSet.of_set operations tables records, rfl, ?_⟩ ?_
      · intro dropped hnil
        cases hnil
      · intro other payload others hother hlast
        refine hlast.snoc ?_ ?_
        · intro tables' records' heq
          injection heq with _ hkey _
          exact hother hkey.symm
        · intro dropped heq
          cases heq
  | drop tables =>
      refine h.drop fun hnone hlast => hlast.snoc (fun _ _ heq => by cases heq) ?_
      intro dropped heq
      injection heq with heq
      exact heq ▸ hnone
  | get read =>
      have hother : ∀ {key payload tables}, SetLast operations key payload tables →
          SetLast (operations ++ [.get read]) key payload tables := fun hlast =>
        hlast.snoc (fun _ _ heq => by cases heq) fun _ heq => by cases heq
      exact (h.get read).mono hother
  | step =>
      have hother : ∀ {key payload tables}, SetLast operations key payload tables →
          SetLast (operations ++ [.step]) key payload tables := fun hlast =>
        hlast.snoc (fun _ _ heq => by cases heq) fun _ heq => by cases heq
      exact h.step.mono hother

/-- In every run, whatever is due to a key comes from the last time it was set. -/
theorem backed_run (capacity : Nat) (operations : List Operation) :
    Backed (SetLast operations) ((fresh capacity).run operations) := by
  induction operations using List.reverseRecOn with
  | nil => exact Backed.fresh capacity
  | append_singleton operations operation ih =>
      rw [run_append]
      exact ih.apply operation

/-- Once the worker has carried out what was queued, each key has what it was last set to. -/
theorem setLast_of_waited {capacity : Nat} {operations waiting : List Operation}
    (hquiet : ∀ operation ∈ waiting, operation.Quiet)
    (hsteps : ((fresh capacity).run operations).queue.length ≤ waiting.countP (·.isStep)) :
    (((fresh capacity).run operations).run waiting).queue = [] ∧
      ∀ key payload,
        (((fresh capacity).run operations).run waiting).backend.peek? key = some payload →
          ∃ tables, SetLast operations key payload tables := by
  have hempty : (((fresh capacity).run operations).run waiting).queue = [] := by
    rw [queue_run_quiet hquiet]
    exact List.drop_eq_nil_of_le hsteps
  refine ⟨hempty, fun key payload hpayload => ?_⟩
  rw [← due_of_queue_nil hempty] at hpayload
  rcases ((backed_run capacity operations).run_quiet hquiet).due hpayload with ⟨tables, hlast, _⟩
  exact ⟨tables, hlast⟩

theorem setLast_of_settled {capacity : Nat} {operations : List Operation} {key payload : String}
    (h : ((fresh capacity).run operations).settle.1.backend.peek? key = some payload) :
    ∃ tables, SetLast operations key payload tables := by
  rw [settle_eq_run (worker_run Worker.noConfusion)] at h
  refine (setLast_of_waited ?_ ?_).2 key payload h
  · intro operation hmem
    rw [List.eq_of_mem_replicate hmem]
    trivial
  · rw [List.countP_replicate]
    exact Nat.le_refl _

end QueryCache

/-! ## Main statement -/

namespace QueryCache

/-- Whatever clients and the worker did, a key that is or will be stored is registered for all the
tables it was last set for.  Once the worker has carried out what was queued, a stored text is that
of the rows last set, and no table of theirs was dropped since; waiting for the worker is nothing
but its single steps. -/
theorem run_registers_outstanding (capacity : Nat) (operations : List Operation) :
    let cache := (fresh capacity).run operations
    (∀ key, cache.Outstanding key →
      ∃ tables records later, LatestSet key operations tables records later ∧
        ∀ table ∈ tables, key ∈ cache.registry.keys table) ∧
    (∀ waiting : List Operation, (∀ operation ∈ waiting, operation.Quiet) →
      cache.queue.length ≤ waiting.countP (·.isStep) →
        (cache.run waiting).queue = [] ∧
        ∀ key payload, (cache.run waiting).backend.peek? key = some payload →
          ∃ tables records later, LatestSet key operations tables records later ∧
            payload = (Record.listToJson records).text ∧
            ∀ dropped, .drop dropped ∈ later → ∀ table ∈ dropped, table ∉ tables) ∧
    cache.settle.1 = cache.run (List.replicate cache.queue.length .step) := by
  have hrun := backed_run capacity operations
  intro cache
  refine ⟨?_, ?_, ?_⟩
  · intro key houtstanding
    rcases Option.isSome_iff_exists.1 houtstanding.isSome_due with ⟨payload, hdue⟩
    rcases hrun.due hdue with ⟨tables, ⟨records, later, hlast, _, _⟩, hkeys⟩
    exact ⟨tables, records, later, hlast, hkeys⟩
  · intro waiting hquiet hsteps
    exact setLast_of_waited hquiet hsteps
  · exact settle_eq_run (worker_run Worker.noConfusion)

/-- A key that is set again while its removal waits, and a worker that then catches up. -/
def refilled : List Operation :=
  [.set ["t", "u"] "k" [], .get "k", .drop ["u"], .set ["t"] "k" [⟨[("a", .null)]⟩], .step]

theorem queue_refilled : ((fresh 1).run refilled).queue =
    [.remove ["k"], .store "k" "[\x7b\"columns\":[[\"a\",null]]\x7d]"] := by
  cbv

theorem run_registers_outstanding_refilled :
    let cache := (fresh 1).run refilled
    cache.Outstanding "k" ∧
    (∃ tables records later, LatestSet "k" refilled tables records later ∧
      ∀ table ∈ tables, "k" ∈ cache.registry.keys table) ∧
    (cache.run [.step, .get "k", .step]).queue = [] ∧
    ∀ payload, (cache.run [.step, .get "k", .step]).backend.peek? "k" = some payload →
      ∃ tables records later, LatestSet "k" refilled tables records later ∧
        payload = (Record.listToJson records).text ∧
        ∀ dropped, .drop dropped ∈ later → ∀ table ∈ dropped, table ∉ tables := by
  have houtstanding : ((fresh 1).run refilled).Outstanding "k" :=
    .inr ⟨[.remove ["k"]], _, [], queue_refilled, fun _ hnil => absurd hnil List.not_mem_nil⟩
  have hquiet : ∀ operation ∈ [Operation.step, .get "k", .step], operation.Quiet := by
    simp [Operation.Quiet]
  have hsteps : ((fresh 1).run refilled).queue.length ≤
      [Operation.step, .get "k", .step].countP (·.isStep) := by
    rw [queue_refilled]
    decide
  have hmain := run_registers_outstanding 1 refilled
  rcases hmain.2.1 _ hquiet hsteps with ⟨hempty, hlatest⟩
  exact ⟨houtstanding, hmain.1 "k" houtstanding, hempty, hlatest "k"⟩

end QueryCache

end FieldQuery.Cache
