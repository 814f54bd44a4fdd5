import FieldQuery.Proofs.Cache.Provenance
import Mathlib.Data.List.Permutation

/-!
# Runtimes that end

The registry forgets a key when its removal is asked for.  A removal that is lost leaves the key's
text behind, which no later drop finds, and which is read as if nothing had been dropped.

Main definitions:

- `Stranded`: the last removal of a key was lost.
- `QueryCache.Tracked`: how registry and queue go together with the stranded keys.
- `QueryCache.Tended`: a key is registered, or is to be removed, or is stranded.

Main statement: `QueryCache.held_accounted_iff`.
-/

namespace FieldQuery.Cache

/-- Commands were lost that would have taken a key out of the backend, and the key has not been set
since. -/
def Stranded (capacity : Nat) (happenings : List Happening) (key : String) : Prop :=
  ∃ earlier happening later, happenings = earlier ++ happening :: later ∧
    (∀ held, effects key held (happening.lost ((QueryCache.fresh capacity).live earlier)) = none) ∧
    ∀ other ∈ later, ¬other.Sets key

/-- The last thing that happened stranded the key, or it was stranded before and not set since. -/
theorem stranded_snoc {capacity : Nat} {happenings : List Happening} {happening : Happening}
    {key : String} :
    Stranded capacity (happenings ++ [happening]) key ↔
      (∀ held, effects key held
          (happening.lost ((QueryCache.fresh capacity).live happenings)) = none) ∨
        Stranded capacity happenings key ∧ ¬happening.Sets key := by
  constructor
  · rintro ⟨earlier, found, later, hsplit, hlost, hlater⟩
    -- the loss is the last thing that happened, or something came behind it
    rcases List.eq_nil_or_concat' later with rfl | ⟨front, last, rfl⟩
    · have hparts := List.append_inj' hsplit rfl
      cases hparts.1
      cases hparts.2
      exact .inl hlost
    · have hsplit' : happenings ++ [happening] = (earlier ++ found :: front) ++ [last] := by
        simp [hsplit]
      have hparts := List.append_inj' hsplit' rfl
      cases hparts.1
      cases hparts.2
      refine .inr ⟨⟨earlier, found, front, rfl, hlost, fun other hmem => ?_⟩, ?_⟩
      · exact hlater other (List.mem_append_left _ hmem)
      · exact hlater happening (List.mem_append_right _ List.mem_cons_self)
  · rintro (hlost | ⟨⟨earlier, found, later, rfl, hlost, hlater⟩, hsets⟩)
    · exact ⟨happenings, happening, [], rfl, hlost, fun _ hnil => absurd hnil List.not_mem_nil⟩
    · refine ⟨earlier, found, later ++ [happening], by simp, hlost, fun other hmem => ?_⟩
      rcases List.mem_append.1 hmem with hmem | hmem
      · exact hlater other hmem
      · exact List.mem_singleton.1 hmem ▸ hsets

/-! ## Registrations and the queue -/

namespace QueryCache

variable {cache : QueryCache MemoryCache}

/-- What the end of the queue leaves under a key tells whether the key is registered, and nothing is
registered or queued for a key that is stranded. -/
structure Tracked (stranded : String → Prop) (cache : QueryCache MemoryCache) : Prop where
  stored : ∀ {key payload : String}, (∀ held, effects key held cache.queue = some payload) →
    ∃ table, key ∈ cache.registry.keys table
  removed : ∀ {key : String}, (∀ held, effects key held cache.queue = none) →
    ∀ table, key ∉ cache.registry.keys table
  stranded : ∀ {key : String}, stranded key →
    (∀ table, key ∉ cache.registry.keys table) ∧
      ∀ command ∈ cache.queue, ¬command.Removes key

/-- The keys that are stranded behind what happens. -/
def strand (cache : QueryCache MemoryCache) (happening : Happening) (stranded : String → Prop)
    (key : String) : Prop :=
  (∀ held, effects key held (happening.lost cache) = none) ∨ stranded key ∧ ¬happening.Sets key

namespace Tracked

variable {stranded : String → Prop}

theorem fresh (capacity : Nat) : Tracked (fun _ => False) (QueryCache.fresh capacity) where
  stored h := by cases h none
  removed h := by cases h (some "")
  stranded h := h.elim

theorem advance (h : Tracked stranded cache) {next : QueryCache MemoryCache} {done : List Command}
    (hadvances : Advances cache next done) : Tracked stranded next where
  stored {key payload} hstored := by
    rw [hadvances.registry]
    have hbefore : ∀ held, effects key held cache.queue = some payload := by
      intro held
      simp [hadvances.queue, effects_append, hstored]
    exact h.stored hbefore
  removed {key} hremoved := by
    rw [hadvances.registry]
    refine h.removed fun held => ?_
    simp [hadvances.queue, effects_append, hremoved]
  stranded {key} hstranded := by
    rw [hadvances.registry]
    have hparts := h.stranded hstranded
    refine ⟨hparts.1, fun command hmem => hparts.2 command ?_⟩
    rw [hadvances.queue]
    exact List.mem_append_right done hmem

end Tracked

/-- A registry and the keys that are stranded from now on suit a command that is asked for: what it
stores becomes registered, what it removes was registered and is no more, and the registrations of
other keys stay. -/
structure Suits (cache : QueryCache MemoryCache) (stranded : String → Prop) (runtime : Bool)
    (registry : Registry) (command : Command) (next : String → Prop) : Prop where
  keeps : ∀ {key}, (∀ held, command.effect key held = held) →
    ∀ table, key ∈ registry.keys table ↔ key ∈ cache.registry.keys table
  makes : ∀ {key payload}, (∀ held, command.effect key held = some payload) →
    ∃ table, key ∈ registry.keys table
  takes : ∀ {key}, (∀ held, command.effect key held = none) →
    (∃ table, key ∈ cache.registry.keys table) ∧ ∀ table, key ∉ registry.keys table
  strands : ∀ {key}, next key →
    (∀ held, effects key held (cache.refused runtime command) = none) ∨
      stranded key ∧ ∀ payload, ¬∀ held, command.effect key held = some payload

namespace Tracked

variable {stranded next : String → Prop} {runtime : Bool} {registry : Registry} {command : Command}
  {front : QueryCache MemoryCache}

/-- The queue takes a command. -/
theorem taken (h : Tracked stranded cache)
    (hsuits : cache.Suits stranded runtime registry command next)
    (hregistry : front.registry = registry) (htaken : front.queue = cache.queue ++ [command])
    (hlost : cache.refused runtime command = []) : Tracked next front := by
  have hboth : ∀ key held, effects key held front.queue =
      command.effect key (effects key held cache.queue) := by
    intro key held
    rw [htaken, effects_append]
    rfl
  refine ⟨?_, ?_, ?_⟩
  · intro key payload heffects
    rw [hregistry]
    rcases effect_cases key command with hsame | ⟨outcome, houtcome⟩
    · have hbefore : ∀ held, effects key held cache.queue = some payload := fun held =>
        (hsame _).symm.trans ((hboth key held).symm.trans (heffects held))
      rcases h.stored hbefore with ⟨table, hmem⟩
      exact ⟨table, (hsuits.keeps hsame table).2 hmem⟩
    · have hpayload : outcome = some payload :=
        (houtcome _).symm.trans ((hboth key none).symm.trans (heffects none))
      exact hsuits.makes fun held => (houtcome held).trans hpayload
  · intro key heffects
    rw [hregistry]
    rcases effect_cases key command with hsame | ⟨outcome, houtcome⟩
    · have hbefore : ∀ held, effects key held cache.queue = none := fun held =>
        (hsame _).symm.trans ((hboth key held).symm.trans (heffects held))
      intro table hmem
      exact h.removed hbefore table ((hsuits.keeps hsame table).1 hmem)
    · have hnone : outcome = none :=
        (houtcome _).symm.trans ((hboth key none).symm.trans (heffects none))
      exact (hsuits.takes fun held => (houtcome held).trans hnone).2
  · intro key hkey
    rw [hregistry]
    rcases hsuits.strands hkey with hstrips | ⟨hold, hstored⟩
    · rw [hlost] at hstrips
      cases hstrips (some "")
    · have hparts := h.stranded hold
      -- nothing is removed that is registered for no table
      have hsame : ∀ held, command.effect key held = held := by
        rcases effect_cases key command with hsame | ⟨outcome, houtcome⟩
        · exact hsame
        · cases outcome with
          | none =>
              rcases (hsuits.takes houtcome).1 with ⟨table, hmem⟩
              exact absurd hmem (hparts.1 table)
          | some payload => exact absurd houtcome (hstored payload)
      refine ⟨fun table hmem => hparts.1 table ((hsuits.keeps hsame table).1 hmem), ?_⟩
      intro waiting hmem
      rw [htaken] at hmem
      rcases List.mem_append.1 hmem with hmem | hmem
      · exact hparts.2 waiting hmem
      · have halone : ∀ held, effects key held [command] = held := hsame
        exact not_removes_of_effects halone waiting hmem

/-- A command is refused, and nothing is queued behind it. -/
theorem refused (h : Tracked stranded cache)
    (hsuits : cache.Suits stranded runtime registry command next)
    (hregistry : front.registry = registry) (hnil : front.queue = [])
    (hlost : cache.refused runtime command = [command]) : Tracked next front := by
  -- an empty queue leaves every text as it is
  refine ⟨?_, ?_, ?_⟩
  · intro key payload heffects
    rw [hnil] at heffects
    cases heffects none
  · intro key heffects
    rw [hnil] at heffects
    cases heffects (some "")
  · intro key hkey
    rw [hregistry, hnil]
    refine ⟨?_, fun _ hmem => absurd hmem List.not_mem_nil⟩
    rcases hsuits.strands hkey with hstrips | ⟨hold, hstored⟩
    · rw [hlost] at hstrips
      exact (hsuits.takes hstrips).2
    · have hparts := h.stranded hold
      rcases effect_cases key command with hsame | ⟨outcome, houtcome⟩
      · exact fun table hmem => hparts.1 table ((hsuits.keeps hsame table).1 hmem)
      · cases outcome with
        | none => exact (hsuits.takes houtcome).2
        | some payload => exact absurd houtcome (hstored payload)

/-- A command is asked for, behind a change of the registry that suits it. -/
theorem submit (h : Tracked stranded cache) (runtime : Bool) {registry : Registry}
    {command : Command} (hsuits : cache.Suits stranded runtime registry command next) :
    Tracked next ({ cache with registry := registry }.enqueue runtime command).1 := by
  have hcases := enqueue_cases runtime command { cache with registry := registry }
  rcases hcases with ⟨_, hregistry, hqueue⟩
  rcases hqueue with ⟨htaken, hlost⟩ | ⟨_, hnil, hlost⟩
  · exact h.taken hsuits hregistry htaken hlost
  · exact h.refused hsuits hregistry hnil hlost

theorem restart (h : Tracked stranded cache) :
    Tracked (cache.strand .restart stranded) cache.restart := by
  rcases restart_eq cache with ⟨hbackend, hregistry, hnil⟩
  refine ⟨?_, ?_, ?_⟩
  · intro key payload heffects
    rw [hnil] at heffects
    cases heffects none
  · intro key heffects
    rw [hnil] at heffects
    cases heffects (some "")
  · intro key hkey
    rw [hregistry, hnil]
    refine ⟨?_, fun _ hmem => absurd hmem List.not_mem_nil⟩
    rcases hkey with hstrips | ⟨hold, _⟩
    · exact h.removed hstrips
    · exact (h.stranded hold).1

end Tracked

variable {stranded : String → Prop}

theorem Tracked.set (h : Tracked stranded cache) (runtime : Bool) {tables : List String}
    {key : String} {records : List Record} (htables : tables ≠ []) :
    Tracked (cache.strand (.set runtime tables key records) stranded)
      (cache.set runtime tables key records).1 := by
  have hkeys := fun other table =>
    Registry.mem_keys_register key table other tables cache.registry
  refine h.submit runtime ⟨?_, ?_, ?_, ?_⟩
  · intro other hsame table
    rcases effect_store key (Record.listToJson records).text other with ⟨_, hmakes⟩ | ⟨hne, _⟩
    · cases (hsame none).symm.trans (hmakes none)
    · simp [hkeys, Ne.symm hne]
  · intro other payload hmakes
    rcases effect_store key (Record.listToJson records).text other with ⟨rfl, _⟩ | ⟨_, hsame⟩
    · rcases List.exists_mem_of_ne_nil tables htables with ⟨table, htable⟩
      exact ⟨table, (hkeys key table).2 (.inr ⟨rfl, htable⟩)⟩
    · cases (hsame none).symm.trans (hmakes none)
  · intro other htakes
    rcases effect_store key (Record.listToJson records).text other with ⟨_, hmakes⟩ | ⟨_, hsame⟩
    · cases (htakes none).symm.trans (hmakes none)
    · cases (htakes (some "")).symm.trans (hsame (some ""))
  · rintro other (hstrips | ⟨hold, hsets⟩)
    · exact .inl hstrips
    · refine .inr ⟨hold, fun payload hmakes => ?_⟩
      rcases effect_store key (Record.listToJson records).text other with ⟨hkey, _⟩ | ⟨_, hsame⟩
      · exact hsets hkey
      · cases (hsame none).symm.trans (hmakes none)

theorem Tracked.drop (h : Tracked stranded cache) (hdistinct : cache.registry.Distinct)
    (runtime : Bool) (tables : List String) :
    Tracked (cache.strand (.drop runtime tables) stranded)
      (cache.dropEntries runtime tables).1 := by
  rcases dropEntries_cases runtime tables cache with ⟨_, hsame, hlost⟩ | ⟨hdropped, hlost⟩
  · rw [hsame]
    refine ⟨h.stored, h.removed, ?_⟩
    rintro key (hstrips | ⟨hold, _⟩)
    · rw [hlost] at hstrips
      cases hstrips (some "")
    · exact h.stranded hold
  · rw [hdropped]
    have hkeys := Registry.mem_keys_forget hdistinct (cache.registry.keysFor tables)
    have hremove := effect_remove (cache.registry.keysFor tables)
    refine h.submit runtime ⟨?_, ?_, ?_, ?_⟩
    · intro key hsame table
      rcases hremove key with ⟨_, htakes⟩ | ⟨hother, _⟩
      · cases (htakes (some "")).symm.trans (hsame (some ""))
      · simp [hkeys, hother]
    · intro key payload hmakes
      rcases hremove key with ⟨_, htakes⟩ | ⟨_, hsame⟩
      · cases (htakes none).symm.trans (hmakes none)
      · cases (hsame none).symm.trans (hmakes none)
    · intro key htakes
      rcases hremove key with ⟨hkey, _⟩ | ⟨_, hsame⟩
      · rcases Registry.mem_keysFor.1 hkey with ⟨table, _, hmem⟩
        refine ⟨⟨table, hmem⟩, fun other hother => ?_⟩
        exact ((hkeys other key).1 hother).2 hkey
      · cases (htakes (some "")).symm.trans (hsame (some ""))
    · rintro key (hstrips | ⟨hold, _⟩)
      · rw [hlost] at hstrips
        exact .inl hstrips
      · refine .inr ⟨hold, fun payload hmakes => ?_⟩
        rcases hremove key with ⟨_, htakes⟩ | ⟨_, hsame⟩
        · cases (htakes none).symm.trans (hmakes none)
        · cases (hsame none).symm.trans (hmakes none)

/-! ## Accounts of keys -/

/-- A key is registered for some table, or is to be removed, or is stranded. -/
def Tended (registry : Registry) (stranded : String → Prop) (key _payload : String)
    (rest : List Command) : Prop :=
  (∃ table, key ∈ registry.keys table) ∨ (∃ command ∈ rest, command.Removes key) ∨ stranded key

theorem explained_set (h : Explained (Tended cache.registry stranded) cache) (runtime : Bool)
    {tables : List String} (key : String) (records : List Record) (htables : tables ≠ []) :
    Explained (Tended (cache.registry.register tables key)
        (cache.strand (.set runtime tables key records) stranded))
      (cache.set runtime tables key records).1 := by
  have hkeys := fun other table =>
    Registry.mem_keys_register key table other tables cache.registry
  have hregistered : ∃ table, key ∈ (cache.registry.register tables key).keys table := by
    rcases List.exists_mem_of_ne_nil tables htables with ⟨table, htable⟩
    exact ⟨table, (hkeys key table).2 (.inr ⟨rfl, htable⟩)⟩
  have hstays : ∀ {other payload rest} (more : List Command),
      Tended cache.registry stranded other payload rest →
        Tended (cache.registry.register tables key)
          (cache.strand (.set runtime tables key records) stranded) other payload
          (rest ++ more) := by
    rintro other payload rest more (⟨table, hmem⟩ | ⟨command, hmem, hremoves⟩ | hold)
    · exact .inl ⟨table, (hkeys other table).2 (.inl hmem)⟩
    · exact .inr (.inl ⟨command, List.mem_append_left more hmem, hremoves⟩)
    · by_cases hkey : key = other
      · exact .inl (hkey ▸ hregistered)
      · exact .inr (.inr (.inr ⟨hold, hkey⟩))
  refine h.submit runtime _ (fun hreason => hstays _ hreason) (fun _ hreason => hstays [] hreason)
    ?_ (fun _ {_ _} hreason => hstays [] hreason)
  intro other payload hmakes
  rcases effect_store key (Record.listToJson records).text other with ⟨rfl, _⟩ | ⟨_, hsame⟩
  · exact .inl hregistered
  · cases (hsame none).symm.trans (hmakes none)

theorem explained_drop (hdistinct : cache.registry.Distinct)
    (h : Explained (Tended cache.registry stranded) cache) (runtime : Bool)
    (tables : List String) :
    Explained (Tended (cache.dropEntries runtime tables).1.registry
        (cache.strand (.drop runtime tables) stranded))
      (cache.dropEntries runtime tables).1 := by
  rcases dropEntries_cases runtime tables cache with ⟨_, hsame, _⟩ | ⟨hdropped, hlost⟩
  · rw [hsame]
    intro key payload done rest hsplit heffects
    exact (h hsplit heffects).imp_right fun hrest => hrest.imp_right fun hold => .inr ⟨hold, id⟩
  · have hregistry := (enqueue_cases runtime (.remove (cache.registry.keysFor tables))
      { cache with registry := cache.registry.forget (cache.registry.keysFor tables) }).2.1
    rw [hdropped, hregistry]
    have hkeys := Registry.mem_keys_forget hdistinct (cache.registry.keysFor tables)
    have hremove := effect_remove (cache.registry.keysFor tables)
    have hstays : ∀ {key payload rest} (more : List Command),
        key ∉ cache.registry.keysFor tables → Tended cache.registry stranded key payload rest →
          Tended (cache.registry.forget (cache.registry.keysFor tables))
            (cache.strand (.drop runtime tables) stranded) key payload (rest ++ more) := by
      rintro key payload rest more hkey (⟨table, hmem⟩ | ⟨command, hmem, hremoves⟩ | hold)
      · exact .inl ⟨table, (hkeys table key).2 ⟨hmem, hkey⟩⟩
      · exact .inr (.inl ⟨command, List.mem_append_left more hmem, hremoves⟩)
      · exact .inr (.inr (.inr ⟨hold, id⟩))
    refine h.submit runtime _ ?_ ?_ ?_ ?_
    · intro key payload rest hreason
      by_cases hkey : key ∈ cache.registry.keysFor tables
      · exact .inr (.inl ⟨_, List.mem_append_right rest List.mem_cons_self, hkey⟩)
      · exact hstays _ hkey hreason
    · intro key payload hsame hreason
      rcases hremove key with ⟨_, htakes⟩ | ⟨hkey, _⟩
      · cases (htakes (some "")).symm.trans (hsame (some ""))
      · exact hstays [] hkey hreason
    · intro key payload hmakes
      rcases hremove key with ⟨_, htakes⟩ | ⟨_, hsame⟩
      · cases (htakes none).symm.trans (hmakes none)
      · cases (hsame none).symm.trans (hmakes none)
    · intro hrefused key payload hreason
      rcases hremove key with ⟨_, htakes⟩ | ⟨hkey, _⟩
      · refine .inr (.inr (.inl fun held => ?_))
        rw [hlost, hrefused]
        exact htakes held
      · exact hstays [] hkey hreason

/-- What the end of the lost queue leaves under a key tells which account it has. -/
theorem explained_restart (htracked : Tracked stranded cache)
    (h : Explained (Tended cache.registry stranded) cache) :
    Explained (Tended cache.registry (cache.strand .restart stranded)) cache.restart := by
  rcases restart_eq cache with ⟨hbackend, _, hnil⟩
  refine h.lose hbackend hnil ?_
  rintro key payload (hregistered | ⟨command, hmem, hremoves⟩ | hold)
  · exact .inl hregistered
  -- a removal waited: what the queue would have left under the key decides
  · rcases effects_cases key cache.queue with hsame | ⟨outcome, houtcome⟩
    · exact absurd hremoves (not_removes_of_effects hsame command hmem)
    · cases outcome with
      | none => exact .inr (.inr (.inl houtcome))
      | some stored => exact .inl (htracked.stored houtcome)
  · exact .inr (.inr (.inr ⟨hold, id⟩))

/-- Whatever happens keeps the accounts of all keys. -/
theorem Tracked.apply (h : Tracked stranded cache) (hsound : cache.Sound)
    (hexplained : Explained (Tended cache.registry stranded) cache) {happening : Happening}
    (hlisted : ∀ runtime key records, happening ≠ .set runtime [] key records) :
    Tracked (cache.strand happening stranded) (happening.apply cache) ∧
      Explained (Tended (happening.apply cache).registry (cache.strand happening stranded))
        (happening.apply cache) := by
  -- what only moves the worker on loses nothing and sets nothing
  have hadvances : ∀ {next : QueryCache MemoryCache} {done : List Command},
      Advances cache next done → happening.lost cache = [] → (∀ key, ¬happening.Sets key) →
        Tracked (cache.strand happening stranded) next ∧
          Explained (Tended next.registry (cache.strand happening stranded)) next := by
    intro next done hadvances hlost hsets
    have hstrand : cache.strand happening stranded = stranded := by
      funext key
      have hnone : ¬∀ held, effects key held (happening.lost cache) = none := by
        intro hstrips
        rw [hlost] at hstrips
        cases hstrips (some "")
      simp [strand, hnone, hsets key]
    rw [hstrand, hadvances.registry]
    exact ⟨h.advance hadvances, hexplained.advance hsound.fits hadvances⟩
  cases happening with
  | set runtime tables key records =>
      have htables : tables ≠ [] := by
        rintro rfl
        exact hlisted runtime key records rfl
      refine ⟨h.set runtime htables, ?_⟩
      have hset := explained_set hexplained runtime key records htables
      rw [← registry_set runtime tables key records cache] at hset
      exact hset
  | drop runtime tables =>
      exact ⟨h.drop hsound.distinct runtime tables,
        explained_drop hsound.distinct hexplained runtime tables⟩
  | get key => exact hadvances (advances_get key cache) rfl fun _ => id
  | step =>
      rcases advances_step cache with ⟨done, hstep⟩
      exact hadvances hstep rfl fun _ => id
  | settle => exact hadvances (advances_settle cache).1 rfl fun _ => id
  | restart =>
      refine ⟨h.restart, ?_⟩
      have hrestart := explained_restart h hexplained
      rwa [← (restart_eq cache).2.1] at hrestart

/-- In every run that sets keys for tables only, the accounts of all keys are kept. -/
theorem tracked_live (capacity : Nat) {happenings : List Happening}
    (hlisted : ∀ runtime key records, Happening.set runtime [] key records ∉ happenings) :
    let cache := (fresh capacity).live happenings
    Tracked (Stranded capacity happenings) cache ∧
      Explained (Tended cache.registry (Stranded capacity happenings)) cache := by
  induction happenings using List.reverseRecOn with
  | nil =>
      have hnone : Stranded capacity [] = fun _ => False := by
        funext key
        simp [Stranded]
      rw [hnone]
      refine ⟨Tracked.fresh capacity, ?_⟩
      intro key payload done rest hsplit heffects
      rcases List.append_eq_nil_iff.1 hsplit.symm with ⟨rfl, rfl⟩
      cases heffects
  | append_singleton happenings happening ih =>
      have hfront := ih fun runtime key records hmem =>
        hlisted runtime key records (List.mem_append_left _ hmem)
      have hlast : ∀ runtime key records, happening ≠ .set runtime [] key records := by
        rintro runtime key records rfl
        exact hlisted runtime key records (List.mem_append_right _ List.mem_cons_self)
      have hnext : Stranded capacity (happenings ++ [happening]) =
          ((fresh capacity).live happenings).strand happening (Stranded capacity happenings) := by
        funext key
        exact propext stranded_snoc
      rw [live_append, hnext]
      exact hfront.1.apply (sound_live capacity happenings) hfront.2 hlast

/-! ## Main statement -/

/-- Whatever clients, the worker and the runtime did, what a settled cache reads under a key are
rows that the key was set to, and none of their tables was dropped since unless a removal of the key
was lost.  Where keys are set for tables only, a key that is held is registered or listed in a
removal that waits, exactly unless commands were lost that would have taken it out and it was not
set since. -/
theorem held_accounted_iff (capacity : Nat) (happenings : List Happening) :
    let cache := (fresh capacity).live happenings
    (∀ key records, (cache.settle.1.get key).1 = some records →
      ∃ earlier runtime tables stored later,
        happenings = earlier ++ .set runtime tables key stored :: later ∧
        Record.listOfText? (Record.listToJson stored).text = some records ∧
        ((∀ runtime dropped, .drop runtime dropped ∈ later → ∀ table ∈ dropped, table ∉ tables) ∨
          RemovalLost capacity (earlier ++ [.set runtime tables key stored]) later key)) ∧
    ((∀ runtime key records, Happening.set runtime [] key records ∉ happenings) →
      ∀ key, (cache.backend.peek? key).isSome →
        ((∃ table, key ∈ cache.registry.keys table) ∨
            (∃ command ∈ cache.queue, command.Removes key) ↔
          ¬Stranded capacity happenings key)) := by
  intro cache
  refine ⟨fun key records hread => ?_, fun hlisted key hheld => ?_⟩
  · have hsettled := advances_settle cache
    rw [get_memory] at hread
    rcases Option.bind_eq_some_iff.1 hread with ⟨payload, hpayload, hrecords⟩
    have heffects := hsettled.1.held (sound_live capacity happenings).fits hpayload
    rcases traced_live capacity happenings (List.append_nil _).symm heffects with
      ⟨earlier, runtime, tables, stored, later, hsplit, hrows, hwhy⟩
    refine ⟨earlier, runtime, tables, stored, later, hsplit, hrows ▸ hrecords, ?_⟩
    rcases hwhy with ⟨hnone, _⟩ | ⟨command, hmem, _⟩ | hlost
    · exact .inl hnone
    · cases hmem
    · exact .inr hlost
  · rcases tracked_live capacity hlisted with ⟨htracked, hexplained⟩
    rcases Option.isSome_iff_exists.1 hheld with ⟨payload, hpayload⟩
    constructor
    · intro haccounted hstranded
      rcases htracked.stranded hstranded with ⟨hnone, hkeep⟩
      rcases haccounted with ⟨table, hmem⟩ | ⟨command, hmem, hremoves⟩
      · exact hnone table hmem
      · exact hkeep command hmem hremoves
    · intro hstranded
      have heffects : effects key (cache.backend.peek? key) [] = some payload := hpayload
      rcases hexplained (List.nil_append _).symm heffects with hregistered | hwaits | hleft
      · exact .inl hregistered
      · exact .inr hwaits
      · exact absurd hleft hstranded

/-- A key is set, and its removal is lost with the runtime. -/
def cutOff : List Happening :=
  [.set true ["t"] "k" [], .settle, .drop true ["t"], .restart, .settle]

theorem lost_cutOff :
    Happening.restart.lost ((fresh 1).live (cutOff.take 3)) = [.remove ["k"]] := by
  cbv

theorem get_cutOff : (((fresh 1).live cutOff).settle.1.get "k").1 = some [] := by
  cbv

theorem held_accounted_iff_cut_off :
    let cache := (fresh 1).live cutOff
    (∀ runtime key records, Happening.set runtime [] key records ∉ cutOff) ∧
    (cache.backend.peek? "k").isSome ∧
    (¬((∃ table, "k" ∈ cache.registry.keys table) ∨
      ∃ command ∈ cache.queue, command.Removes "k")) ∧
    (cache.settle.1.get "k").1 = some [] ∧
    ∃ earlier runtime tables stored later,
      cutOff = earlier ++ .set runtime tables "k" stored :: later ∧
      Record.listOfText? (Record.listToJson stored).text = some [] ∧
      ((∀ runtime dropped, .drop runtime dropped ∈ later → ∀ table ∈ dropped, table ∉ tables) ∨
        RemovalLost 1 (earlier ++ [.set runtime tables "k" stored]) later "k") := by
  have hmain := held_accounted_iff 1 cutOff
  have hlisted : ∀ runtime key records, Happening.set runtime [] key records ∉ cutOff := by
    simp [cutOff]
  have hheld : (((fresh 1).live cutOff).backend.peek? "k").isSome := by
    cbv
  have hstranded : Stranded 1 cutOff "k" := by
    refine ⟨cutOff.take 3, .restart, [.settle], rfl, fun held => ?_, fun other hmem => ?_⟩
    · rw [lost_cutOff]
      simp [effects, Command.effect]
    · cases List.mem_singleton.1 hmem
      exact id
  exact ⟨hlisted, hheld, fun haccounted => (hmain.2 hlisted "k" hheld).1 haccounted hstranded,
    get_cutOff, hmain.1 "k" [] get_cutOff⟩

end QueryCache

end FieldQuery.Cache
