import FieldQuery.Proofs.Cache.Invalidation
import FieldQuery.Proofs.Database.Requests
import FieldQuery.Proofs.Plan.Touched

/-!
# Which changes drop a cached read

The rows of a read are registered for the tables that its plan touched, and a change drops what is
registered for its own table.  A read of which every table is touched never outlives a change; the
tables that its conditions look into are touched only if they come into the plan by another way too.

Main definition: `Change.Drops`, a change drops whatever is cached of a plan.

Main statement: `Query.Built.select_invalidated_iff`.
-/

namespace FieldQuery

open Cache

/-! ## Dropping -/

/-- What the database's cache has for a key. -/
def Database.stored? {σ : Type} (db : Database σ MemoryCache) (key : String) : Option String :=
  db.cache.bind (·.backend.peek? key)

/-- Whatever clients and the worker did before, rows of the plan that were the last ones stored
under a key are gone when the change has succeeded and the worker is done. -/
def Change.Drops (change : Change) (plan : Plan) : Prop :=
  ∀ (σ : Type) [Executor σ] (db : Database σ MemoryCache) (capacity : Nat)
    (operations later : List Operation) (key : String) (records : List Record) (affected : Nat),
    db.cache = some ((QueryCache.fresh capacity).run operations) →
    LatestSet key operations plan.touched records later →
    change.affected db.executor = .ok affected →
      (db.write change.plan change.kind).2.settle.stored? key = none

variable {change : Change} {plan : Plan}

theorem Change.drops_of_touched (h : change.table ∈ plan.touched) : change.Drops plan := by
  intro σ _ db capacity operations later key records affected hcache hlatest haffected
  have hsettled := Database.cache_settle (Database.write_snd hcache haffected).2
  have hrun : (((QueryCache.fresh capacity).run operations).dropEntries true [change.table]).1 =
      (QueryCache.fresh capacity).run (operations ++ [.drop [change.table]]) := by
    rw [QueryCache.run_append]
    rfl
  rw [hrun] at hsettled
  unfold Database.stored?
  rw [hsettled, Option.bind_some]
  refine Option.eq_none_iff_forall_ne_some.2 fun payload hpayload => ?_
  rcases QueryCache.setLast_of_settled hpayload with ⟨tables, records', later', hlast, _, hnone⟩
  -- the drop comes behind the last set, whose tables it names one of
  have hdropped : LatestSet key (operations ++ [.drop [change.table]]) plan.touched records
      (later ++ [.drop [change.table]]) := hlatest.snoc fun _ _ heq => by cases heq
  rcases hdropped.unique hlast with ⟨rfl, rfl⟩
  exact hnone [change.table] (List.mem_append_right _ List.mem_cons_self) change.table
    List.mem_cons_self h

/-- A change to any other table leaves the rows stored. -/
theorem Change.touched_of_drops (h : change.Drops plan) : change.table ∈ plan.touched := by
  by_contra huntouched
  let cache := (QueryCache.fresh 1).run [.set plan.touched "k" []]
  let db : Database Shelf MemoryCache :=
    { config := { catalog := ⟨[]⟩ }, executor := ⟨false⟩, cache := some cache }
  have hcache : db.cache = some cache := rfl
  have haffected : change.affected db.executor = .ok 1 := rfl
  have hgone := h Shelf db 1 _ [] "k" [] 1 hcache (LatestSet.of_set [] plan.touched []) haffected
  -- the only key is registered for what the plan touched, so there is nothing to drop
  have hkeys : cache.registry.keysFor [change.table] = [] := by
    refine List.eq_nil_iff_forall_not_mem.2 fun key hmem => ?_
    rcases Registry.mem_keysFor.1 hmem with ⟨table, htable, hkey⟩
    cases List.mem_singleton.1 htable
    rcases (Registry.mem_keys_register "k" change.table key plan.touched {}).1 hkey with
      hnone | ⟨_, hmem⟩
    · cases hnone
    · exact huntouched hmem
  have hsettled := Database.cache_settle (Database.write_snd hcache haffected).2
  rw [QueryCache.dropEntries_of_no_key _ hkeys] at hsettled
  unfold Database.stored? at hgone
  rw [hsettled] at hgone
  cases hgone

theorem Change.drops_iff : change.Drops plan ↔ change.table ∈ plan.touched :=
  ⟨Change.touched_of_drops, Change.drops_of_touched⟩

/-! ## Main statement -/

/-- However a query without errors was built, its `SELECT` reads the tables that it names, those
that its sources read and those that its conditions look into.  Its plan touches the first two and
what is declared, and a change drops what is cached of it exactly if the changed table is one of
these.  So all tables of the `SELECT` are touched exactly if those that conditions look into are
named, read in a source or declared as well. -/
theorem Query.Built.select_invalidated_iff {query : Query} {nested : Nested}
    (h : query.Built nested) (herrors : query.plan.errors = []) :
    let plan := query.plan
    let read := plan.named ++ nested.sources ++ nested.conditions
    let registered := plan.named ++ nested.sources ++ nested.declared
    (∀ written, plan.selectStatement = .ok written → ∀ table ∈ read, written.Reads table) ∧
    (∀ table, table ∈ plan.touched ↔ table ∈ registered) ∧
    (∀ change : Change, change.Drops plan ↔ change.table ∈ registered) ∧
    (read ⊆ plan.touched ↔ nested.conditions ⊆ registered) := by
  have hcovers := (h.covers herrors).2
  have htouched : ∀ table, table ∈ query.plan.touched ↔
      table ∈ query.plan.named ++ nested.sources ++ nested.declared := by
    intro table
    rw [hcovers.touched, List.mem_append, List.mem_append, or_assoc]
  intro plan read registered
  refine ⟨?_, htouched, ?_, ?_⟩
  · intro written hwritten table htable
    rw [List.mem_append, List.mem_append, or_assoc] at htable
    exact hcovers.reads hwritten htable
  · intro change
    rw [Change.drops_iff, htouched]
  · constructor
    · intro hread table htable
      exact (htouched table).1 (hread (List.mem_append_right _ htable))
    · intro hconditions table htable
      refine (htouched table).2 ?_
      -- what is named or read in a source is touched in any case
      rcases List.mem_append.1 htable with hfront | hback
      · exact List.mem_append_left _ hfront
      · exact hconditions hback

/-! ## A condition that looks into another table -/

namespace Roster

def teams : Table :=
  { name := "teams", columns := [{ name := "id", field := "id" }] }

def players : Table :=
  { name := "players", columns := [{ name := "team", field := "team" }] }

def allTeams : Query :=
  .start .postgres ⟨[teams, players]⟩ true [] (.model ⟨teams, none, [⟨0⟩]⟩)

def allPlayers : Query :=
  .start .postgres ⟨[teams, players]⟩ true [] (.model ⟨players, none, [⟨1⟩]⟩)

/-- The players whose team exists. -/
def enrolled : Query :=
  ⟨.filtering, (allPlayers.plan.apply .startWhere).apply
    (.filter [.inPlan (.field ⟨1⟩) allTeams.plan])⟩

def dissolve : Change where
  plan := allTeams.plan
  kind := .truncate
  statement := ⟨[.text "TRUNCATE TABLE \"teams\""], [], rfl⟩
  compiles := by cbv

theorem built_enrolled : enrolled.Built ⟨[], ["\"teams\""], []⟩ := by
  have hteams : allTeams.Built {} := .start (.model _)
  have hplayers : allPlayers.Built {} := .start (.model _)
  have hwhere : allPlayers.call? .startWhere =
      some ⟨.filtering, allPlayers.plan.apply .startWhere⟩ := rfl
  have hbegun := Query.Built.call hplayers (.plain rfl rfl) hwhere
  have hnamed : allTeams.plan.named = ["\"teams\""] := by cbv
  have hcall := Query.Built.call hbegun (.filter (.cons (.inPlan (.field ⟨1⟩) hteams) .nil)) rfl
  rw [hnamed] at hcall
  exact hcall

def read : Read where
  plan := enrolled.plan
  statement := ⟨[.text "SELECT \"players\".\"team\" AS \"team\"", .text " FROM ",
    .text "\"players\"", .text " WHERE ", .text "\"players\".\"team\"", .text " IN (",
    .text "SELECT \"teams\".\"id\" AS \"id\"", .text " FROM ", .text "\"teams\"", .text ")"], [], rfl⟩
  compiles := by cbv

theorem select_invalidated_iff_enrolled :
    enrolled.Built ⟨[], ["\"teams\""], []⟩ ∧ enrolled.plan.errors = [] ∧
      read.statement.Reads "\"teams\"" ∧ ¬dissolve.Drops enrolled.plan := by
  have herrors : enrolled.plan.errors = [] := by cbv
  have hmain := built_enrolled.select_invalidated_iff herrors
  have hteams : dissolve.table = "\"teams\"" := by cbv
  have hplayers : enrolled.plan.named = ["\"players\""] := by cbv
  refine ⟨built_enrolled, herrors, ?_, ?_⟩
  · exact hmain.1 read.statement read.compiles _ (List.mem_append_right _ List.mem_cons_self)
  · rw [hmain.2.2.1, hteams, hplayers]
    decide

end Roster

end FieldQuery
