import FieldQuery.Proofs.Cache.Loss

/-!
# Where texts come from when commands are lost

A text that a worker's backend holds was stored when its key was set, maybe long ago: what was set
later may have been lost.  If one of the tables was dropped since, a removal of the key was asked
for; it waits or was lost.

Main definition: `QueryCache.Traced`, where a text comes from and what became of its removal.

Main statement: `QueryCache.traced_live`.
-/

namespace FieldQuery.Cache

/-- A removal of a key was lost in the second part of what happened. -/
def RemovalLost (capacity : Nat) (earlier later : List Happening) (key : String) : Prop :=
  ∃ between happening behind, later = between ++ happening :: behind ∧
    ∃ command ∈ happening.lost ((QueryCache.fresh capacity).live (earlier ++ between)),
      command.Removes key

theorem RemovalLost.snoc {capacity : Nat} {earlier later : List Happening} {key : String}
    (h : RemovalLost capacity earlier later key) (happening : Happening) :
    RemovalLost capacity earlier (later ++ [happening]) key := by
  rcases h with ⟨between, found, behind, rfl, hlost⟩
  exact ⟨between, found, behind ++ [happening], by simp, hlost⟩

namespace QueryCache

variable {cache : QueryCache MemoryCache}

/-- A text is that of rows that a key was set to.  Since then none of their tables was dropped and
the key is registered for all of them, or its removal waits or was lost. -/
def Traced (capacity : Nat) (happenings : List Happening) (registry : Registry)
    (key payload : String) (rest : List Command) : Prop :=
  ∃ earlier runtime tables records later,
    happenings = earlier ++ .set runtime tables key records :: later ∧
    (Record.listToJson records).text = payload ∧
    ((∀ runtime dropped, .drop runtime dropped ∈ later → ∀ table ∈ dropped, table ∉ tables) ∧
        (∀ table ∈ tables, key ∈ registry.keys table) ∨
      (∃ command ∈ rest, command.Removes key) ∨
      RemovalLost capacity (earlier ++ [.set runtime tables key records]) later key)

namespace Traced

variable {capacity : Nat} {happenings : List Happening} {registry next : Registry}
  {key payload : String} {rest : List Command}

theorem snoc (h : Traced capacity happenings registry key payload rest) (happening : Happening)
    (more : List Command)
    (hkept : ∀ tables : List String, (∀ table ∈ tables, key ∈ registry.keys table) →
      (∀ table ∈ tables, key ∈ next.keys table) ∧
        ∀ runtime dropped, happening = .drop runtime dropped → ∀ table ∈ dropped, table ∉ tables) :
    Traced capacity (happenings ++ [happening]) next key payload (rest ++ more) := by
  rcases h with ⟨earlier, runtime, tables, records, later, rfl, hrows, hwhy⟩
  refine ⟨earlier, runtime, tables, records, later ++ [happening], by simp, hrows, ?_⟩
  rcases hwhy with ⟨hnone, hkeys⟩ | ⟨command, hmem, hremoves⟩ | hlost
  · rcases hkept tables hkeys with ⟨hnext, hother⟩
    refine .inl ⟨fun runtime dropped hmem => ?_, hnext⟩
    rcases List.mem_append.1 hmem with hmem | hmem
    · exact hnone runtime dropped hmem
    · exact hother runtime dropped (List.mem_singleton.1 hmem).symm
  · exact .inr (.inl ⟨command, List.mem_append_left more hmem, hremoves⟩)
  · exact .inr (.inr (hlost.snoc happening))

theorem waits (h : Traced capacity happenings registry key payload rest) (happening : Happening)
    {waiting : List Command} (hwaits : ∃ command ∈ waiting, command.Removes key) :
    Traced capacity (happenings ++ [happening]) next key payload waiting := by
  rcases h with ⟨earlier, runtime, tables, records, later, rfl, hrows, _⟩
  exact ⟨earlier, runtime, tables, records, later ++ [happening], by simp, hrows,
    .inr (.inl hwaits)⟩

theorem loses (h : Traced capacity happenings registry key payload rest) {happening : Happening}
    (hlost : ∃ command ∈ happening.lost ((fresh capacity).live happenings), command.Removes key)
    (waiting : List Command) :
    Traced capacity (happenings ++ [happening]) next key payload waiting := by
  rcases h with ⟨earlier, runtime, tables, records, later, rfl, hrows, _⟩
  refine ⟨earlier, runtime, tables, records, later ++ [happening], by simp, hrows, ?_⟩
  refine .inr (.inr ⟨later, happening, [], rfl, ?_⟩)
  simpa using hlost

end Traced

section Step

variable {capacity : Nat} {happenings : List Happening}

theorem traced_set (h : Explained (Traced capacity happenings cache.registry) cache)
    (runtime : Bool) (tables : List String) (key : String) (records : List Record) :
    Explained (Traced capacity (happenings ++ [.set runtime tables key records])
        (cache.registry.register tables key)) (cache.set runtime tables key records).1 := by
  have hkeys := fun other table =>
    Registry.mem_keys_register key table other tables cache.registry
  have hstays : ∀ {other payload rest} (more : List Command),
      Traced capacity happenings cache.registry other payload rest →
        Traced capacity (happenings ++ [.set runtime tables key records])
          (cache.registry.register tables key) other payload (rest ++ more) := by
    intro other payload rest more hreason
    refine hreason.snoc _ more fun others hothers => ⟨fun table htable => ?_, ?_⟩
    · exact (hkeys other table).2 (.inl (hothers table htable))
    · intro runtime' dropped heq
      cases heq
  -- only what is stored needs an account of its own
  refine h.submit runtime _ (fun hreason => hstays _ hreason) (fun _ hreason => hstays [] hreason)
    ?_ (fun _ {_ _} hreason => hstays [] hreason)
  intro other payload hmakes
  rcases effect_store key (Record.listToJson records).text other with ⟨rfl, hstores⟩ | ⟨_, hsame⟩
  · have hpayload : (Record.listToJson records).text = payload :=
      Option.some.inj ((hstores none).symm.trans (hmakes none))
    refine ⟨happenings, runtime, tables, records, [], rfl, hpayload, .inl ⟨?_, ?_⟩⟩
    · intro runtime' dropped hnil
      cases hnil
    · intro table htable
      exact (hkeys key table).2 (.inr ⟨rfl, htable⟩)
  · cases (hsame none).symm.trans (hmakes none)

theorem traced_drop (hcache : (fresh capacity).live happenings = cache)
    (hdistinct : cache.registry.Distinct)
    (h : Explained (Traced capacity happenings cache.registry) cache) (runtime : Bool)
    (tables : List String) :
    Explained (Traced capacity (happenings ++ [.drop runtime tables])
        (cache.dropEntries runtime tables).1.registry) (cache.dropEntries runtime tables).1 := by
  -- a key that is registered for a dropped table is among the dropped ones
  have hnone : ∀ {key} {others : List String}, key ∉ cache.registry.keysFor tables →
      (∀ table ∈ others, key ∈ cache.registry.keys table) →
        ∀ runtime' dropped, Happening.drop runtime tables = .drop runtime' dropped →
          ∀ table ∈ dropped, table ∉ others := by
    intro key others hkey hothers runtime' dropped heq table htable hmine
    cases heq
    exact hkey (Registry.mem_keysFor.2 ⟨table, htable, hothers table hmine⟩)
  rcases dropEntries_cases runtime tables cache with ⟨hkeys, hsame, _⟩ | ⟨hdropped, hlost⟩
  · rw [hsame]
    refine h.mono fun {key payload rest} hreason => ?_
    have hkey : key ∉ cache.registry.keysFor tables := by simp [hkeys]
    have hnext : Traced capacity (happenings ++ [.drop runtime tables]) cache.registry key payload
        (rest ++ []) :=
      hreason.snoc _ [] fun others hothers => ⟨hothers, hnone hkey hothers⟩
    simpa using hnext
  · have hregistry := (enqueue_cases runtime (.remove (cache.registry.keysFor tables))
      { cache with registry := cache.registry.forget (cache.registry.keysFor tables) }).2.1
    rw [hdropped, hregistry]
    have hkeys := Registry.mem_keys_forget hdistinct (cache.registry.keysFor tables)
    have hremove := effect_remove (cache.registry.keysFor tables)
    have hstays : ∀ {key payload rest} (more : List Command),
        key ∉ cache.registry.keysFor tables →
          Traced capacity happenings cache.registry key payload rest →
            Traced capacity (happenings ++ [.drop runtime tables])
              (cache.registry.forget (cache.registry.keysFor tables)) key payload
              (rest ++ more) := by
      intro key payload rest more hkey hreason
      refine hreason.snoc _ more fun others hothers => ⟨fun table htable => ?_, hnone hkey hothers⟩
      exact (hkeys table key).2 ⟨hothers table htable, hkey⟩
    refine h.submit runtime _ ?_ ?_ ?_ ?_
    · intro key payload rest hreason
      by_cases hkey : key ∈ cache.registry.keysFor tables
      · exact hreason.waits _ ⟨_, List.mem_append_right rest List.mem_cons_self, hkey⟩
      · exact hstays _ hkey hreason
    · intro key payload hsame hreason
      rcases hremove key with ⟨_, htakes⟩ | ⟨hkey, _⟩
      · cases (htakes (some "")).symm.trans (hsame (some ""))
      · exact hstays [] hkey hreason
    · intro key payload hmakes
      rcases hremove key with ⟨_, htakes⟩ | ⟨_, hsame⟩
      · cases (htakes none).symm.trans (hmakes none)
      · cases (hsame none).symm.trans (hmakes none)
    · intro hrefused key payload hreason
      by_cases hkey : key ∈ cache.registry.keysFor tables
      -- the registry has forgotten the key, and its removal is lost here
      · refine hreason.loses ⟨.remove (cache.registry.keysFor tables), ?_, hkey⟩ []
        rw [hcache, hlost, hrefused]
        exact List.mem_cons_self
      · exact hstays [] hkey hreason

theorem traced_restart (hcache : (fresh capacity).live happenings = cache)
    (h : Explained (Traced capacity happenings cache.registry) cache) :
    Explained (Traced capacity (happenings ++ [.restart]) cache.restart.registry)
      cache.restart := by
  rcases restart_eq cache with ⟨hbackend, hregistry, hnil⟩
  rw [hregistry]
  refine h.lose hbackend hnil fun {key payload} hreason => ?_
  by_cases hremoves : ∃ command ∈ cache.queue, command.Removes key
  · exact hreason.loses (by simpa [hcache, Happening.lost] using hremoves) []
  · -- nothing was lost that concerns this text
    rcases hreason with ⟨earlier, runtime, tables, records, later, hsplit, hrows, hwhy⟩
    have hother : Traced capacity happenings cache.registry key payload [] :=
      ⟨earlier, runtime, tables, records, later, hsplit, hrows,
        hwhy.imp_right fun hrest => .inr (hrest.resolve_left hremoves)⟩
    exact hother.snoc .restart [] fun tables htables =>
      ⟨htables, fun runtime dropped heq => by cases heq⟩

end Step

/-- Whatever happens, every text that may come to be held is traced. -/
theorem traced_live (capacity : Nat) (happenings : List Happening) :
    Explained (Traced capacity happenings ((fresh capacity).live happenings).registry)
      ((fresh capacity).live happenings) := by
  induction happenings using List.reverseRecOn with
  | nil =>
      intro key payload done rest hsplit heffects
      rcases List.append_eq_nil_iff.1 hsplit.symm with ⟨rfl, rfl⟩
      cases heffects
  | append_singleton happenings happening ih =>
      have hsound := sound_live capacity happenings
      rw [live_append]
      generalize hcache : (fresh capacity).live happenings = cache at ih hsound
      show Explained (Traced capacity (happenings ++ [happening]) (happening.apply cache).registry)
        (happening.apply cache)
      -- what only moves the worker on asks for nothing and drops nothing
      have hadvances : ∀ {next : QueryCache MemoryCache} {done : List Command},
          Advances cache next done → (∀ runtime dropped, happening ≠ .drop runtime dropped) →
            Explained (Traced capacity (happenings ++ [happening]) next.registry) next := by
        intro next done hadvances hdrop
        rw [hadvances.registry]
        have hsame : Explained (Traced capacity happenings cache.registry) next :=
          ih.advance hsound.fits hadvances
        refine hsame.mono fun {key payload rest} hreason => ?_
        have hnext : Traced capacity (happenings ++ [happening]) cache.registry key payload
            (rest ++ []) :=
          hreason.snoc happening [] fun tables htables =>
            ⟨htables, fun runtime dropped heq => absurd heq (hdrop runtime dropped)⟩
        simpa using hnext
      cases happening with
      | set runtime tables key records =>
          have hset := traced_set ih runtime tables key records
          rw [← registry_set runtime tables key records cache] at hset
          exact hset
      | drop runtime tables => exact traced_drop hcache hsound.distinct ih runtime tables
      | get key => exact hadvances (advances_get key cache) fun _ _ heq => by cases heq
      | step =>
          rcases advances_step cache with ⟨done, hstep⟩
          exact hadvances hstep fun _ _ heq => by cases heq
      | settle => exact hadvances (advances_settle cache).1 fun _ _ heq => by cases heq
      | restart => exact traced_restart hcache ih

end QueryCache

end FieldQuery.Cache
