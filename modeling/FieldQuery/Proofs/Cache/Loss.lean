import FieldQuery.Proofs.Cache.Pending
import Mathlib.Data.List.Induction

/-!
# Commands that are lost

A runtime may end at any moment; the worker dies with it, and whatever it had not carried out is
lost.  What clients ask for while there is no runtime is lost as well, unless a worker still lives.

Main definitions:

- `Happening`, `QueryCache.live`: what clients, the worker and the runtime do, in any order.
- `Happening.lost`: the commands that are lost.
- `QueryCache.Advances`: what the worker does to the queue and to the backend.
- `QueryCache.Explained`: wherever the worker stops, a text that is held then has a reason.

Main statements: `Explained.submit`, `Explained.lose` and `Explained.advance` say what becomes of
the reasons.
-/

namespace FieldQuery.Cache

/-- Commands leave what is under a key alone, or what they make of it does not depend on that. -/
theorem effects_cases (key : String) (commands : List Command) :
    (∀ held, effects key held commands = held) ∨
      ∃ outcome, ∀ held, effects key held commands = outcome := by
  induction commands with
  | nil => exact .inl fun _ => rfl
  | cons command commands ih =>
      rcases ih with hsame | ⟨outcome, houtcome⟩
      · -- nothing behind the first command tells what is under the key
        rcases effect_cases key command with hfirst | ⟨outcome, hfirst⟩
        · left
          intro held
          simp [effects_cons, hfirst, hsame]
        · right
          refine ⟨outcome, fun held => ?_⟩
          simp [effects_cons, hfirst, hsame]
      · right
        exact ⟨outcome, fun held => by simp [effects_cons, houtcome]⟩

/-- Commands that leave a key as it is remove it nowhere. -/
theorem not_removes_of_effects {key : String} {commands : List Command}
    (h : ∀ held, effects key held commands = held) :
    ∀ command ∈ commands, ¬command.Removes key := by
  intro command hmem hremoves
  rcases List.append_of_mem hmem with ⟨front, back, rfl⟩
  have hremoved : ∀ held, effects key held (front ++ command :: back) = effects key none back := by
    intro held
    have hnone : ∀ found, command.effect key found = none := by
      intro found
      cases command with
      | store stored payload => exact hremoves.elim
      | remove keys => exact if_pos hremoves
    simp [effects_append, effects_cons, hnone]
  have hsome := (hremoved (some "")).symm.trans (h _)
  have hnone := (hremoved none).symm.trans (h _)
  rw [hsome] at hnone
  cases hnone

theorem effect_store (stored payload key : String) :
    stored = key ∧ (∀ held, (Command.store stored payload).effect key held = some payload) ∨
      stored ≠ key ∧ ∀ held, (Command.store stored payload).effect key held = held := by
  by_cases hkey : stored = key
  · exact .inl ⟨hkey, fun held => if_pos hkey⟩
  · exact .inr ⟨hkey, fun held => if_neg hkey⟩

theorem effect_remove (keys : List String) (key : String) :
    key ∈ keys ∧ (∀ held, (Command.remove keys).effect key held = none) ∨
      key ∉ keys ∧ ∀ held, (Command.remove keys).effect key held = held := by
  by_cases hkey : key ∈ keys
  · exact .inl ⟨hkey, fun held => if_pos hkey⟩
  · exact .inr ⟨hkey, fun held => if_neg hkey⟩

/-! ## What happens -/

/-- What happens to a cache.  Clients come with a runtime at hand or without. -/
inductive Happening
  | set (runtime : Bool) (tables : List String) (key : String) (records : List Record)
  | drop (runtime : Bool) (tables : List String)
  | get (key : String)
  /-- The worker carries out one command. -/
  | step
  | settle
  /-- The runtime ends. -/
  | restart

/-- The commands that no worker takes. -/
def QueryCache.refused {β : Type} (runtime : Bool) (command : Command) (cache : QueryCache β) :
    List Command :=
  match cache.worker with
  | .live _ => []
  | _ => if runtime then [] else [command]

namespace Happening

def apply (cache : QueryCache MemoryCache) : Happening → QueryCache MemoryCache
  | .set runtime tables key records => (cache.set runtime tables key records).1
  | .drop runtime tables => (cache.dropEntries runtime tables).1
  | .get key => (cache.get key).2.1
  | .step => cache.step.1
  | .settle => cache.settle.1
  | .restart => cache.restart

/-- The commands that are lost, and never carried out. -/
def lost (cache : QueryCache MemoryCache) : Happening → List Command
  | .set runtime _ key records =>
    cache.refused runtime (.store key (Record.listToJson records).text)
  | .drop runtime tables =>
    match cache.registry.keysFor tables with
    | [] => []
    | keys => cache.refused runtime (.remove keys)
  | .restart => cache.queue
  | .get _ | .step | .settle => []

/-- Whether a key is set. -/
def Sets (key : String) : Happening → Prop
  | .set _ _ stored _ => stored = key
  | _ => False

end Happening

/-- What happens to a cache in turn. -/
def QueryCache.live (cache : QueryCache MemoryCache) (happenings : List Happening) :
    QueryCache MemoryCache :=
  happenings.foldl Happening.apply cache

/-! ## Asking the worker -/

namespace QueryCache

variable {cache : QueryCache MemoryCache}

theorem live_append (front back : List Happening) :
    cache.live (front ++ back) = (cache.live front).live back :=
  List.foldl_append

/-- A command reaches the queue, or there is no worker that could take it and it is lost. -/
theorem enqueue_cases {β : Type} (runtime : Bool) (command : Command) (cache : QueryCache β) :
    let front := (cache.enqueue runtime command).1
    front.backend = cache.backend ∧ front.registry = cache.registry ∧
      (front.queue = cache.queue ++ [command] ∧ cache.refused runtime command = [] ∨
        cache.queue = [] ∧ front.queue = [] ∧ cache.refused runtime command = [command]) := by
  unfold enqueue refused queue
  cases cache.worker with
  | live commands => exact ⟨rfl, rfl, .inl ⟨rfl, rfl⟩⟩
  | absent =>
      cases runtime with
      | true => exact ⟨rfl, rfl, .inl ⟨rfl, rfl⟩⟩
      | false => exact ⟨rfl, rfl, .inr ⟨rfl, rfl, rfl⟩⟩
  | dead =>
      cases runtime with
      | true => exact ⟨rfl, rfl, .inl ⟨rfl, rfl⟩⟩
      | false => exact ⟨rfl, rfl, .inr ⟨rfl, rfl, rfl⟩⟩

theorem registry_set {β : Type} (runtime : Bool) (tables : List String) (key : String)
    (records : List Record) (cache : QueryCache β) :
    (cache.set runtime tables key records).1.registry = cache.registry.register tables key :=
  (enqueue_cases runtime _ { cache with registry := cache.registry.register tables key }).2.1

/-- Dropping the keys of tables is dropping nothing, or asking for their removal. -/
theorem dropEntries_cases (runtime : Bool) (tables : List String)
    (cache : QueryCache MemoryCache) :
    cache.registry.keysFor tables = [] ∧ (cache.dropEntries runtime tables).1 = cache ∧
        (Happening.drop runtime tables).lost cache = [] ∨
      (cache.dropEntries runtime tables).1 =
          ({ cache with
              registry := cache.registry.forget (cache.registry.keysFor tables) }.enqueue runtime
            (.remove (cache.registry.keysFor tables))).1 ∧
        (Happening.drop runtime tables).lost cache =
          cache.refused runtime (.remove (cache.registry.keysFor tables)) := by
  unfold dropEntries Happening.lost
  cases hkeys : cache.registry.keysFor tables with
  | nil => exact .inl ⟨rfl, rfl, by simp [hkeys]⟩
  | cons key keys => exact .inr ⟨rfl, by simp [hkeys]⟩

theorem restart_eq {β : Type} (cache : QueryCache β) :
    cache.restart.backend = cache.backend ∧ cache.restart.registry = cache.registry ∧
      cache.restart.queue = [] := by
  unfold restart queue
  cases hworker : cache.worker with
  | absent => exact ⟨rfl, rfl, by simp [hworker]⟩
  | live commands => exact ⟨rfl, rfl, rfl⟩
  | dead => exact ⟨rfl, rfl, by simp [hworker]⟩

/-! ## Carrying out -/

theorem fits_carryOutAll (commands : List Command) {memory : MemoryCache} (h : memory.Fits) :
    (carryOutAll commands memory).1.Fits := by
  induction commands generalizing memory with
  | nil => exact h
  | cons command commands ih => exact ih (fits_carryOut command h)

/-- Commands have their effects on a key, or the key's text is evicted. -/
theorem peek?_carryOutAll {commands : List Command} {memory : MemoryCache} (h : memory.Fits)
    {key found : String} (hfound : (carryOutAll commands memory).1.peek? key = some found) :
    effects key (memory.peek? key) commands = some found := by
  induction commands generalizing memory with
  | nil => exact hfound
  | cons command commands ih =>
      have hrest := ih (fits_carryOut command h) hfound
      rw [effects_cons]
      cases hheld : (carryOut command memory).1.peek? key with
      | none =>
          rw [hheld] at hrest
          exact effects_of_none _ hrest
      | some held =>
          rw [hheld] at hrest
          rwa [peek?_carryOut command h hheld]

/-- The worker has carried out the first commands of the queue, and texts may have been evicted. -/
structure Advances (cache next : QueryCache MemoryCache) (done : List Command) : Prop where
  queue : cache.queue = done ++ next.queue
  registry : next.registry = cache.registry
  fits : cache.backend.Fits → next.backend.Fits
  held : cache.backend.Fits → ∀ {key found : String}, next.backend.peek? key = some found →
    effects key (cache.backend.peek? key) done = some found

theorem Advances.refl (cache : QueryCache MemoryCache) : Advances cache cache [] :=
  ⟨rfl, rfl, id, fun _ {_ _} hfound => hfound⟩

theorem advances_get (read : String) (cache : QueryCache MemoryCache) :
    Advances cache (cache.get read).2.1 [] := by
  rw [get_cache]
  refine ⟨rfl, rfl, fun hfits => hfits.get read, fun _ {key found} hfound => ?_⟩
  have hsame := MemoryCache.peek?_get cache.backend read key
  exact hsame.symm.trans hfound

theorem advances_step (cache : QueryCache MemoryCache) :
    ∃ done, Advances cache cache.step.1 done := by
  cases hqueue : cache.queue with
  | nil =>
      rw [step_of_queue_nil hqueue]
      exact ⟨[], Advances.refl cache⟩
  | cons command commands =>
      have hstep := step_live (worker_of_queue hqueue)
      refine ⟨[command], ?_, registry_step, fun hfits => fits_step hfits, ?_⟩
      · have htail : cache.step.1.queue = commands := by simp [queue_step, hqueue]
        simp [hqueue, htail]
      · intro hfits key found hfound
        rw [hstep] at hfound
        exact peek?_carryOut command hfits hfound

/-- Waiting for the worker carries out the whole queue. -/
theorem settle_carries (cache : QueryCache MemoryCache) :
    cache.settle.1.registry = cache.registry ∧ cache.settle.1.queue = [] ∧
      cache.settle.1.backend = (carryOutAll cache.queue cache.backend).1 := by
  unfold settle queue
  cases hworker : cache.worker with
  | absent => exact ⟨rfl, by simp [hworker], rfl⟩
  | live commands => exact ⟨rfl, rfl, rfl⟩
  | dead => exact ⟨rfl, rfl, rfl⟩

theorem advances_settle (cache : QueryCache MemoryCache) :
    Advances cache cache.settle.1 cache.queue ∧ cache.settle.1.queue = [] := by
  rcases settle_carries cache with ⟨hregistry, hqueue, hbackend⟩
  refine ⟨⟨by simp [hqueue], hregistry, fun hfits => ?_, ?_⟩, hqueue⟩
  · rw [hbackend]
    exact fits_carryOutAll cache.queue hfits
  · intro hfits key found hfound
    rw [hbackend] at hfound
    exact peek?_carryOutAll hfits hfound

/-- What further commands make of the texts behind the worker is what they make of those before it,
once the worker has come to them. -/
theorem Advances.effects_append {next : QueryCache MemoryCache} {done further : List Command}
    (h : Advances cache next done) (hfits : cache.backend.Fits) {key payload : String}
    (heffects : effects key (next.backend.peek? key) further = some payload) :
    effects key (cache.backend.peek? key) (done ++ further) = some payload := by
  rw [Cache.effects_append]
  cases hfound : next.backend.peek? key with
  | none =>
      rw [hfound] at heffects
      exact effects_of_none _ heffects
  | some found =>
      rw [hfound] at heffects
      rwa [h.held hfits hfound]

/-- The worker brings nothing about that was not due. -/
theorem Advances.due {next : QueryCache MemoryCache} {done : List Command}
    (h : Advances cache next done) (hfits : cache.backend.Fits) {key payload : String}
    (hdue : next.due key = some payload) : cache.due key = some payload := by
  unfold QueryCache.due
  rw [h.queue]
  exact h.effects_append hfits hdue

/-- A backend in memory without room holds nothing, and the registry lists each table once. -/
structure Sound (cache : QueryCache MemoryCache) : Prop where
  fits : cache.backend.Fits
  distinct : cache.registry.Distinct

theorem Sound.apply (h : cache.Sound) (happening : Happening) : (happening.apply cache).Sound := by
  have hadvances : ∀ {next : QueryCache MemoryCache} {done : List Command},
      Advances cache next done → next.Sound := by
    intro next done hadvances
    exact ⟨hadvances.fits h.fits, by simpa [hadvances.registry] using h.distinct⟩
  have hsubmits : ∀ (runtime : Bool) {registry : Registry} (command : Command),
      registry.Distinct →
        Sound ({ cache with registry := registry }.enqueue runtime command).1 := by
    intro runtime registry command hdistinct
    have hcases := enqueue_cases runtime command { cache with registry := registry }
    exact ⟨by simpa [hcases.1] using h.fits, by simpa [hcases.2.1] using hdistinct⟩
  cases happening with
  | set runtime tables key records => exact hsubmits runtime _ (h.distinct.register key tables)
  | drop runtime tables =>
      show Sound (cache.dropEntries runtime tables).1
      rcases dropEntries_cases runtime tables cache with ⟨_, hsame, _⟩ | ⟨hdropped, _⟩
      · rwa [hsame]
      · rw [hdropped]
        exact hsubmits runtime _ (h.distinct.forget _)
  | get key => exact hadvances (advances_get key cache)
  | step =>
      rcases advances_step cache with ⟨done, hstep⟩
      exact hadvances hstep
  | settle => exact hadvances (advances_settle cache).1
  | restart =>
      rcases restart_eq cache with ⟨hbackend, hregistry, _⟩
      show Sound cache.restart
      exact ⟨by simpa [hbackend] using h.fits, by simpa [hregistry] using h.distinct⟩

theorem sound_live (capacity : Nat) (happenings : List Happening) :
    ((fresh capacity).live happenings).Sound := by
  induction happenings using List.reverseRecOn with
  | nil => exact ⟨MemoryCache.fits_empty capacity, Registry.distinct_empty⟩
  | append_singleton happenings happening ih =>
      rw [live_append]
      exact ih.apply happening

/-! ## Reasons -/

/-- Wherever the worker stops, a text that is held then has a reason, which may point to the
commands that are left. -/
def Explained (reason : (key payload : String) → (rest : List Command) → Prop)
    (cache : QueryCache MemoryCache) : Prop :=
  ∀ ⦃key payload : String⦄ ⦃done rest : List Command⦄, cache.queue = done ++ rest →
    effects key (cache.backend.peek? key) done = some payload → reason key payload rest

namespace Explained

variable {reason next : String → String → List Command → Prop} {front : QueryCache MemoryCache}

/-- One more command comes to the end of the queue. -/
theorem enqueue (h : Explained reason cache) {command : Command}
    (hbackend : front.backend = cache.backend) (hqueue : front.queue = cache.queue ++ [command])
    (hwaits : ∀ {key payload rest}, reason key payload rest →
      next key payload (rest ++ [command]))
    (hkeeps : ∀ {key payload}, (∀ held, command.effect key held = held) →
      reason key payload [] → next key payload [])
    (hmakes : ∀ {key payload}, (∀ held, command.effect key held = some payload) →
      next key payload []) : Explained next front := by
  intro key payload done rest hsplit heffects
  rw [hqueue] at hsplit
  rw [hbackend] at heffects
  rcases List.eq_nil_or_concat' rest with rfl | ⟨waiting, last, rfl⟩
  · -- the worker has come to the new command, too
    have hdone : done = cache.queue ++ [command] := by simpa using hsplit.symm
    rw [hdone, effects_append] at heffects
    rcases effect_cases key command with hsame | ⟨outcome, houtcome⟩
    · have hbefore : effects key (cache.backend.peek? key) cache.queue = some payload :=
        (hsame _).symm.trans heffects
      exact hkeeps hsame (h (List.append_nil _).symm hbefore)
    · have hpayload : outcome = some payload := (houtcome _).symm.trans heffects
      exact hmakes fun held => (houtcome held).trans hpayload
  · have hsplit' : cache.queue ++ [command] = (done ++ waiting) ++ [last] := by simpa using hsplit
    have hparts := List.append_inj' hsplit' rfl
    cases hparts.2
    exact hwaits (h hparts.1 heffects)

/-- The queue is lost. -/
theorem lose (h : Explained reason cache) (hbackend : front.backend = cache.backend)
    (hqueue : front.queue = [])
    (hlost : ∀ {key payload}, reason key payload cache.queue → next key payload []) :
    Explained next front := by
  intro key payload done rest hsplit heffects
  rw [hqueue] at hsplit
  rw [hbackend] at heffects
  rcases List.append_eq_nil_iff.1 hsplit.symm with ⟨rfl, rfl⟩
  have hheld : effects key (cache.backend.peek? key) [] = some payload := heffects
  exact hlost (h (List.nil_append _).symm hheld)

theorem advance (h : Explained reason cache) (hfits : cache.backend.Fits) {done : List Command}
    (hadvances : Advances cache front done) : Explained reason front := by
  intro key payload further rest hsplit heffects
  have hqueue : cache.queue = (done ++ further) ++ rest := by
    simp [hadvances.queue, hsplit]
  exact h hqueue (hadvances.effects_append hfits heffects)

theorem mono (h : Explained reason cache)
    (hnext : ∀ {key payload rest}, reason key payload rest → next key payload rest) :
    Explained next cache :=
  fun _ _ _ _ hsplit heffects => hnext (h hsplit heffects)

/-- A command is asked for, behind a change of the registry. -/
theorem submit (h : Explained reason cache) (runtime : Bool) (registry : Registry)
    {command : Command}
    (hwaits : ∀ {key payload rest}, reason key payload rest →
      next key payload (rest ++ [command]))
    (hkeeps : ∀ {key payload}, (∀ held, command.effect key held = held) →
      reason key payload [] → next key payload [])
    (hmakes : ∀ {key payload}, (∀ held, command.effect key held = some payload) →
      next key payload [])
    (hrefused : cache.refused runtime command = [command] →
      ∀ {key payload}, reason key payload [] → next key payload []) :
    Explained next ({ cache with registry := registry }.enqueue runtime command).1 := by
  have hcases := enqueue_cases runtime command { cache with registry := registry }
  rcases hcases with ⟨hbackend, _, ⟨htaken, _⟩ | ⟨hqueue, hnil, hlost⟩⟩
  · exact h.enqueue hbackend htaken hwaits hkeeps hmakes
  · refine h.lose hbackend hnil fun {key payload} hreason => hrefused hlost ?_
    have hnone : cache.queue = [] := hqueue
    rwa [hnone] at hreason

end Explained

end QueryCache

end FieldQuery.Cache
