import FieldQuery.Cache.Basic
import FieldQuery.Proofs.Plan.JoinOrder
import FieldQuery.Proofs.Plan.Programs

/-!
# Building queries again

A program of builder calls that is carried out twice, over references of its own each time, builds
the same queries but for their tokens.  It does not matter how far the supply of tokens has gone,
nor what is built for others in the meantime: no token finds its way into a statement, a key or a
model, and only an error about an unresolved field names one.

Main definitions:

- `Instruction`, `Bench.step?`: what a program consists of, and what one instruction does.
- `Bench.Runs`: carrying out a program, while the forest may grow elsewhere.
- `Query.Alike`: queries that agree in all that can be seen of them.

Main statement: `Bench.Runs.alike`.
-/

namespace FieldQuery

/-! ## Running programs -/

/-- A reference as a plan sees it, by its own token or that of the relation that leads to it. -/
def ModelTarget.ofReference (catalog : Catalog) (own : Token) (reference : Reference) :
    ModelTarget :=
  ⟨catalog.table reference.table, some own, reference.columnTokens⟩

theorem ModelTarget.ofReference_rename (catalog : Catalog) (ν : Naming) (own : Token)
    (reference : Reference) : ofReference catalog (ν.token own) (reference.rename ν) =
      (ofReference catalog own reference).rename ν.token := by
  rw [ofReference, Reference.columnTokens_rename]
  rfl

/-- The reference or relation at the end of a path, as a target. -/
def Forest.model? (catalog : Catalog) (names : List String) (reference : Reference)
    (forest : Forest) : Option (ModelTarget × Forest) :=
  match resolve? catalog names reference forest with
  | some (.reference found, forest) =>
    some (.ofReference catalog found.own found, forest)
  | some (.handle found column (.relation token shared target), forest) =>
    let (related, forest) := forest.enter catalog found column token shared target
    some (.ofReference catalog token related, forest)
  | _ => none

/-- The token of the field at the end of a path. -/
def Forest.field? (catalog : Catalog) (names : List String) (reference : Reference)
    (forest : Forest) : Option (Token × Forest) :=
  match resolve? catalog names reference forest with
  | some (.handle _ _ handle, forest) => some (handle.token, forest)
  | _ => none

/-- A token that no reference has. -/
def Forest.loose (forest : Forest) : Token × Forest :=
  let (token, supply) := Token.fresh.run forest.supply
  (token, { forest with supply := supply })

/-- An instruction of a program. -/
inductive Instruction
  /-- A fresh reference of a table. -/
  | plant (table : Nat)
  /-- The field at the end of a path. -/
  | field (reference : Nat) (names : List String)
  /-- The reference or relation at the end of a path, as a target. -/
  | target (reference : Nat) (names : List String)
  /-- A token that no reference has. -/
  | loose
  | make (making : Making)

/-- A forest, and what a program has made in it. -/
structure Bench where
  forest : Forest
  made : Made := {}

namespace Bench

/-- Carries out an instruction, where what it speaks of is there and admits it. -/
def step? (catalog : Catalog) (bench : Bench) : Instruction → Option Bench
  | .plant table =>
    let (reference, forest) := bench.forest.plant catalog table
    some ⟨forest, bench.made.withReference reference⟩
  | .field reference names => do
    let found ← bench.made.references[reference]?
    let (token, forest) ← bench.forest.field? catalog names found
    return ⟨forest, bench.made.withField token⟩
  | .target reference names => do
    let found ← bench.made.references[reference]?
    let (target, forest) ← bench.forest.model? catalog names found
    return ⟨forest, bench.made.withTarget (.model target)⟩
  | .loose =>
    let (token, forest) := bench.forest.loose
    some ⟨forest, bench.made.withField token⟩
  | .make making => (making.carryOut? catalog bench.made).map (Bench.mk bench.forest)

/-- The roots of a program's references. -/
def roots (bench : Bench) : List Nat :=
  bench.made.references.map (·.place.root)

/-- Carrying out a program.  At any time tokens may be taken and references be built elsewhere,
but not under the roots of the program. -/
inductive Runs (catalog : Catalog) : Bench → List Instruction → Bench → Prop
  | done (bench : Bench) : Runs catalog bench [] bench
  | step {bench next last : Bench} {instruction : Instruction} {rest : List Instruction}
      (hstep : bench.step? catalog instruction = some next) (hrest : Runs catalog next rest last) :
      Runs catalog bench (instruction :: rest) last
  | elsewhere {bench last : Bench} {forest : Forest} {program : List Instruction}
      (hgrown : bench.forest.Elsewhere bench.roots forest)
      (hrest : Runs catalog { bench with forest := forest } program last) :
      Runs catalog bench program last

end Bench

/-! ## What a host answers -/

namespace Forest.Hosts

variable {catalog : Catalog} {drawn trees : List Nat} {host guest : Forest}
  {reference reference' : Reference}

theorem field? (h : Hosts drawn trees host guest) (hroot : reference.place.root < guest.roots)
    (hsame : ∀ ν : Naming, ν.Follows drawn trees → reference' = reference.rename ν)
    (names : List String) :
    Option.Rel (Answers (fun ν token => ν.token token) drawn trees)
      (host.field? catalog names reference') (guest.field? catalog names reference) := by
  have hend : Option.Rel _ (host.resolve? catalog names reference') _ :=
    h.resolve? hroot hsame names
  unfold Forest.field?
  generalize host.resolve? catalog names reference' = found' at hend
  generalize guest.resolve? catalog names reference = found at hend
  cases hend with
  | none => exact .none
  | @some found' found hanswer =>
      rcases found' with ⟨end', next'⟩
      rcases found with ⟨found | ⟨found, column, handle⟩, next⟩
      all_goals
        rcases hanswer with ⟨drawn', hdrawn, hhosts, hends⟩
        rcases hhosts.exists_follows with ⟨ν₀, hν₀⟩
        cases hends ν₀ hν₀
      · exact .none
      · refine .some ⟨drawn', hdrawn, hhosts, fun ν hν => ?_⟩
        have hhandle := (Destination.handle.inj (hends ν hν)).2.2
        show (handle.rename ν₀.token).token = ν.token handle.token
        rw [hhandle, Handle.token_rename]

theorem model? (h : Hosts drawn trees host guest) (hroot : reference.place.root < guest.roots)
    (hsame : ∀ ν : Naming, ν.Follows drawn trees → reference' = reference.rename ν)
    (names : List String) :
    Option.Rel (Answers (fun ν target => target.rename ν.token) drawn trees)
      (host.model? catalog names reference') (guest.model? catalog names reference) := by
  have hend : Option.Rel _ (host.resolve? catalog names reference') _ :=
    h.resolve? hroot hsame names
  have hholder : ∀ {found : Destination} {next : Forest},
      guest.resolve? catalog names reference = some (found, next) →
      found.holder.place.root < next.roots := fun hfound => by
    rcases resolve?_root hfound with ⟨hroots, hplace⟩
    rw [hroots, hplace]
    exact hroot
  unfold Forest.model?
  generalize host.resolve? catalog names reference' = found' at hend
  generalize guest.resolve? catalog names reference = found at hend hholder
  cases hend with
  | none => exact .none
  | @some found' found hanswer =>
      rcases found' with ⟨end', next'⟩
      rcases found with ⟨found | ⟨found, column, token | ⟨token, shared, target⟩⟩, next⟩
      all_goals
        rcases hanswer with ⟨drawn', hdrawn, hhosts, hends⟩
        rcases hhosts.exists_follows with ⟨ν₀, hν₀⟩
        cases hends ν₀ hν₀
      · refine .some ⟨drawn', hdrawn, hhosts, fun ν hν => ?_⟩
        have hfound := Destination.reference.inj (hends ν hν)
        show ModelTarget.ofReference catalog (found.rename ν₀).own (found.rename ν₀) = _
        rw [hfound]
        exact ModelTarget.ofReference_rename catalog ν found.own found
      · exact .none
      · have hentered : Answers (fun ν reference => reference.rename ν) drawn' trees
            (next'.enter catalog (found.rename ν₀) column (ν₀.token token)
              (shared.map (Prod.map id ν₀.token)) target)
            (next.enter catalog found column token shared target) := by
          refine hhosts.enter (hholder rfl) (fun ν hν => ?_) fun ν hν => ?_
          · exact (Destination.handle.inj (hends ν hν)).1
          · have hhandle := Handle.relation.inj (Destination.handle.inj (hends ν hν)).2.2
            exact ⟨hhandle.1, hhandle.2.1⟩
        rcases hentered with ⟨last, hlast, hhosts', hrelated⟩
        refine .some ⟨last, hdrawn.trans hlast, hhosts', fun ν hν => ?_⟩
        have hbefore := hν.of_later hlast (List.prefix_refl _)
        have htoken := (Handle.relation.inj (Destination.handle.inj (hends ν hbefore)).2.2).1
        show ModelTarget.ofReference catalog (ν₀.token token) (next'.enter catalog _ _ _ _ _).1 = _
        rw [hrelated ν hν, htoken]
        exact ModelTarget.ofReference_rename catalog ν token _

theorem loose (h : Hosts drawn trees host guest) :
    Answers (fun ν token => ν.token token) drawn trees host.loose guest.loose := by
  have hdraw := h.draw (Nat.le_succ guest.supply)
  rw [Nat.succ_sub (Nat.le_refl _), Nat.sub_self] at hdraw
  refine ⟨_, List.prefix_append .., hdraw, fun ν hν => ?_⟩
  have hshift := h.shifts hν guest.supply (Nat.le_refl _) (Nat.lt_succ_self _)
  rw [Nat.sub_self, Nat.add_zero] at hshift
  exact hshift.symm

end Forest.Hosts

/-- Looking for a field plants nothing. -/
theorem Forest.field?_roots {catalog : Catalog} {names : List String} {reference : Reference}
    {forest : Forest} {answer : Token × Forest}
    (h : forest.field? catalog names reference = some answer) :
    answer.2.roots = forest.roots := by
  unfold field? at h
  split at h
  · next found column handle next hresolve =>
      cases h
      exact (resolve?_root hresolve).1
  · cases h

theorem Forest.model?_roots {catalog : Catalog} {names : List String} {reference : Reference}
    {forest : Forest} {answer : ModelTarget × Forest}
    (h : forest.model? catalog names reference = some answer) :
    answer.2.roots = forest.roots := by
  unfold model? at h
  split at h
  · next found next hresolve =>
      cases h
      exact (resolve?_root hresolve).1
  · next found column token shared target next hresolve =>
      cases h
      exact (enter_roots ..).trans (resolve?_root hresolve).1
  · cases h

/-- Only planting adds a reference. -/
theorem Making.references_eq {catalog : Catalog} {made next : Made} {making : Making}
    (h : making.carryOut? catalog made = some next) : next.references = made.references := by
  cases making with
  | operand term | filter term | target term | start dialect cacheable lazyJoins target =>
      rcases Option.map_eq_some_iff.1 h with ⟨_, -, rfl⟩
      rfl
  | call query term =>
      rcases Option.bind_eq_some_iff.1 h with ⟨_, -, hfound⟩
      rcases Option.bind_eq_some_iff.1 hfound with ⟨_, -, hcall⟩
      rcases Option.map_eq_some_iff.1 hcall with ⟨_, -, rfl⟩
      rfl

/-! ## What a bench hosts -/

namespace Bench

variable {catalog : Catalog} {drawn : List Nat} {host guest : Bench}

/-- The host has made what its guest has, under the names that were drawn. -/
structure Hosts (drawn : List Nat) (host guest : Bench) : Prop where
  forest : host.forest.Hosts drawn host.roots guest.forest
  planted : ∀ reference ∈ guest.made.references, reference.place.root < guest.forest.roots
  made : ∀ ν : Naming, ν.Follows drawn host.roots → host.made = guest.made.rename ν

/-- At first nothing is made. -/
theorem Hosts.start {forest : Forest} (h : forest.Grown catalog) :
    Hosts [] ⟨forest, {}⟩ ⟨{ supply := 0 }, {}⟩ where
  forest := .start h
  planted := by simp
  made _ _ := rfl

theorem Hosts.elsewhere (h : Hosts drawn host guest) {forest : Forest}
    (hgrown : host.forest.Elsewhere host.roots forest) :
    Hosts drawn { host with forest := forest } guest where
  forest := h.forest.elsewhere hgrown
  planted := h.planted
  made := h.made

/-- What more is made of an answer, while the references stay. -/
theorem Hosts.answer (h : Hosts drawn host guest) {α : Type} {rename : Naming → α → α}
    (keep : α → Made → Made) {answer' answer : α × Forest}
    (hanswer : Forest.Answers rename drawn host.roots answer' answer)
    (hroots : answer.2.roots = guest.forest.roots)
    (hreferences : ∀ value made, (keep value made).references = made.references)
    (hkeep : ∀ (ν : Naming) value made,
      keep (rename ν value) (made.rename ν) = (keep value made).rename ν) :
    ∃ drawn', Hosts drawn' ⟨answer'.2, keep answer'.1 host.made⟩
      ⟨answer.2, keep answer.1 guest.made⟩ := by
  rcases hanswer with ⟨drawn', hdrawn, hhosts, hsame⟩
  have htrees : (Bench.mk answer'.2 (keep answer'.1 host.made)).roots = host.roots := by
    show (keep answer'.1 host.made).references.map _ = _
    rw [hreferences]
    rfl
  refine ⟨drawn', ?_, fun reference hmem => ?_, fun ν hν => ?_⟩
  · rw [htrees]
    exact hhosts
  · have hmem : reference ∈ guest.made.references := hreferences .. ▸ hmem
    exact hroots ▸ h.planted reference hmem
  · rw [htrees] at hν
    have hbefore := hν.of_later hdrawn (List.prefix_refl _)
    show keep answer'.1 host.made = _
    rw [hsame ν hν, h.made ν hbefore, hkeep]

/-- What more is made of an answer under a new root. -/
theorem Hosts.rooted (h : Hosts drawn host guest) {root : Nat}
    {answer' answer : Reference × Forest}
    (hanswer : Forest.Answers (fun ν reference => reference.rename ν) drawn (host.roots ++ [root])
      answer' answer)
    (hroot : answer'.1.place.root = root) (hplanted : answer.1.place.root < answer.2.roots)
    (hroots : guest.forest.roots ≤ answer.2.roots) :
    ∃ drawn', Hosts drawn' ⟨answer'.2, host.made.withReference answer'.1⟩
      ⟨answer.2, guest.made.withReference answer.1⟩ := by
  rcases hanswer with ⟨drawn', hdrawn, hhosts, hsame⟩
  have htrees : (Bench.mk answer'.2 (host.made.withReference answer'.1)).roots =
      host.roots ++ [root] := by
    show (host.made.references ++ [answer'.1]).map _ = _
    rw [List.map_append, List.map_singleton, hroot]
    rfl
  refine ⟨drawn', ?_, fun reference hmem => ?_, fun ν hν => ?_⟩
  · rw [htrees]
    exact hhosts
  · rcases List.mem_append.1 hmem with hmem | hmem
    · exact Nat.lt_of_lt_of_le (h.planted reference hmem) hroots
    · exact List.mem_singleton.1 hmem ▸ hplanted
  · rw [htrees] at hν
    have hbefore := hν.of_later hdrawn (List.prefix_append ..)
    show host.made.withReference answer'.1 = _
    rw [hsame ν hν, h.made ν hbefore, Made.withReference_rename]

/-- An earlier reference is the same in the host, but for the names. -/
theorem Hosts.reference (h : Hosts drawn host guest) (number : Nat) :
    Option.Rel (fun reference' reference => reference.place.root < guest.forest.roots ∧
        ∀ ν : Naming, ν.Follows drawn host.roots → reference' = reference.rename ν)
      host.made.references[number]? guest.made.references[number]? := by
  have hlookup : ∀ ν : Naming, ν.Follows drawn host.roots →
      host.made.references[number]? = (guest.made.references[number]?).map (·.rename ν) :=
    fun ν hν => by
      rw [h.made ν hν]
      exact List.getElem?_map
  rcases h.forest.exists_follows with ⟨ν₀, hν₀⟩
  rw [hlookup ν₀ hν₀]
  cases hfound : guest.made.references[number]? with
  | none => exact .none
  | some reference =>
      refine .some ⟨h.planted reference (List.mem_of_getElem? hfound), fun ν hν => ?_⟩
      have hboth := (hlookup ν₀ hν₀).symm.trans (hlookup ν hν)
      rw [hfound] at hboth
      exact Option.some.inj hboth

/-- What more is made of an answer that is asked of an earlier reference. -/
theorem Hosts.ask (h : Hosts drawn host guest) {α : Type} {rename : Naming → α → α}
    (ask : Reference → Forest → Option (α × Forest)) (keep : α → Made → Made)
    (hask : ∀ {reference reference' : Reference}, reference.place.root < guest.forest.roots →
      (∀ ν : Naming, ν.Follows drawn host.roots → reference' = reference.rename ν) →
      Option.Rel (Forest.Answers rename drawn host.roots) (ask reference' host.forest)
        (ask reference guest.forest))
    (hroots : ∀ {reference : Reference} {answer : α × Forest},
      ask reference guest.forest = some answer → answer.2.roots = guest.forest.roots)
    (hreferences : ∀ value made, (keep value made).references = made.references)
    (hkeep : ∀ (ν : Naming) value made,
      keep (rename ν value) (made.rename ν) = (keep value made).rename ν) (number : Nat) :
    Option.Rel (fun host' guest' => ∃ drawn', Hosts drawn' host' guest')
      (do
        let found ← host.made.references[number]?
        let (value, forest) ← ask found host.forest
        return ⟨forest, keep value host.made⟩)
      (do
        let found ← guest.made.references[number]?
        let (value, forest) ← ask found guest.forest
        return ⟨forest, keep value guest.made⟩) := by
  have hreference := h.reference number
  generalize host.made.references[number]? = found' at hreference ⊢
  generalize guest.made.references[number]? = found at hreference ⊢
  cases hreference with
  | none => exact .none
  | @some reference' reference hfound =>
      have hanswers := hask hfound.1 hfound.2
      have hroots := @hroots reference
      show Option.Rel _ ((ask reference' host.forest).bind _) ((ask reference guest.forest).bind _)
      generalize ask reference' host.forest = answer' at hanswers ⊢
      generalize ask reference guest.forest = answer at hanswers hroots ⊢
      cases hanswers with
      | none => exact .none
      | some hanswer => exact .some (h.answer keep hanswer (hroots rfl) hreferences hkeep)

/-- What more is made of what is there. -/
theorem Hosts.make (h : Hosts drawn host guest) (making : Making) :
    Option.Rel (fun host' guest' => ∃ drawn', Hosts drawn' host' guest')
      (host.step? catalog (.make making)) (guest.step? catalog (.make making)) := by
  have hmaking : ∀ ν : Naming, ν.Follows drawn host.roots →
      making.carryOut? catalog host.made =
        (making.carryOut? catalog guest.made).map (·.rename ν) := fun ν hν => by
    rw [h.made ν hν, making.carryOut?_rename]
  rcases h.forest.exists_follows with ⟨ν₀, hν₀⟩
  unfold Bench.step?
  dsimp only
  rw [hmaking ν₀ hν₀]
  cases hguest : making.carryOut? catalog guest.made with
  | none => exact .none
  | some next =>
      have hhost := hmaking ν₀ hν₀
      rw [hguest] at hhost
      have htrees : (Bench.mk host.forest (next.rename ν₀)).roots = host.roots :=
        congrArg (List.map _) (Making.references_eq hhost)
      refine .some ⟨drawn, htrees ▸ h.forest, fun reference hmem => ?_, fun ν hν => ?_⟩
      · exact h.planted reference (Making.references_eq hguest ▸ hmem)
      · have hboth := (hmaking ν₀ hν₀).symm.trans (hmaking ν (htrees ▸ hν))
        rw [hguest] at hboth
        exact Option.some.inj hboth

/-- An instruction does the same in the host as in its guest. -/
theorem Hosts.step? (h : Hosts drawn host guest) (instruction : Instruction) :
    Option.Rel (fun host' guest' => ∃ drawn', Hosts drawn' host' guest')
      (host.step? catalog instruction) (guest.step? catalog instruction) := by
  cases instruction with
  | plant table =>
      exact .some (h.rooted (h.forest.plant table) rfl (Nat.lt_succ_self _) (Nat.le_succ _))
  | field number names =>
      exact h.ask (Forest.field? catalog names) (fun token made => made.withField token)
        (fun hroot hsame => h.forest.field? hroot hsame names) Forest.field?_roots
        (fun _ _ => rfl) (fun ν token made => made.withField_rename ν token) number
  | target number names =>
      exact h.ask (Forest.model? catalog names) (fun target made => made.withTarget (.model target))
        (fun hroot hsame => h.forest.model? hroot hsame names) Forest.model?_roots
        (fun _ _ => rfl) (fun ν target made => made.withTarget_rename ν (.model target)) number
  | loose =>
      exact .some (h.answer (fun token made => made.withField token) h.forest.loose rfl
        (fun _ _ => rfl) fun ν token made => made.withField_rename ν token)
  | make making => exact h.make making

/-! ## Whole programs -/

/-- Carrying out a program in a forest that nothing else is built in. -/
def run? (catalog : Catalog) (bench : Bench) : List Instruction → Option Bench
  | [] => some bench
  | instruction :: rest => do (← bench.step? catalog instruction).run? catalog rest

/-- A program that is carried out in a host is carried out in its guest. -/
theorem Runs.hosted {program : List Instruction} {last : Bench}
    (hruns : Runs catalog host program last) (h : Hosts drawn host guest) :
    ∃ final drawn', guest.run? catalog program = some final ∧ Hosts drawn' last final := by
  induction hruns generalizing drawn guest with
  | done bench => exact ⟨guest, drawn, rfl, h⟩
  | elsewhere hgrown _ ih => exact ih (h.elsewhere hgrown)
  | @step bench next last instruction rest hstep _ ih =>
      have hboth : Option.Rel _ (bench.step? catalog instruction) _ := h.step? instruction
      rw [hstep] at hboth
      cases hguest : guest.step? catalog instruction with
      | none =>
          rw [hguest] at hboth
          cases hboth
      | some next' =>
          rw [hguest] at hboth
          rcases Option.rel_some_some.1 hboth with ⟨drawn', hnext⟩
          rcases ih hnext with ⟨final, drawn'', hrun, hlast⟩
          refine ⟨final, drawn'', ?_, hlast⟩
          rw [run?, hguest]
          exact hrun

/-- A program does the same in the host as in its guest. -/
theorem Hosts.run? (h : Hosts drawn host guest) (program : List Instruction) :
    Option.Rel (fun host' guest' => ∃ drawn', Hosts drawn' host' guest')
      (host.run? catalog program) (guest.run? catalog program) := by
  induction program generalizing drawn host guest with
  | nil => exact .some ⟨drawn, h⟩
  | cons instruction rest ih =>
      have hstep : Option.Rel _ (host.step? catalog instruction) _ := h.step? instruction
      rw [Bench.run?, Bench.run?]
      generalize host.step? catalog instruction = next' at hstep ⊢
      generalize guest.step? catalog instruction = next at hstep ⊢
      cases hstep with
      | none => exact .none
      | some hnext => exact ih hnext.choose_spec

theorem runs_of_run? {program : List Instruction} {bench last : Bench}
    (h : bench.run? catalog program = some last) : Runs catalog bench program last := by
  induction program generalizing bench with
  | nil =>
      cases h
      exact .done _
  | cons instruction rest ih =>
      rcases Option.bind_eq_some_iff.1 h with ⟨next, hstep, hrest⟩
      exact .step hstep (ih hrest)

end Bench

/-! ## Queries that agree -/

/-- The error, whichever field it is about. -/
def PlanError.ofAnyField : PlanError → PlanError
  | .unresolvedField _ => .unresolvedField ⟨0⟩
  | error => error

/-- What is sent for an action, and the key that a read of it has. -/
structure Sent where
  statement : Statement
  sql : String
  arguments : List BindValue
  key : String

def Plan.sent (plan : Plan) (action : Action) : Except PlanError Sent :=
  (plan.statement action).map fun statement =>
    let sql := statement.sql plan.dialect
    ⟨statement, sql, statement.arguments, Cache.cacheKey sql statement.arguments⟩

namespace Query

/-- Queries that agree in all that can be seen of them: what is sent for each action, or why there
is none; the tables that are touched and changed; the models that are made of rows. -/
structure Alike (query other : Query) : Prop where
  stage : query.stage = other.stage
  errors : query.plan.errors.map (·.ofAnyField) = other.plan.errors.map (·.ofAnyField)
  sent : ∀ action, (query.plan.sent action).mapError (·.ofAnyField) =
    (other.plan.sent action).mapError (·.ofAnyField)
  cacheable : query.plan.cacheable = other.plan.cacheable
  touched : query.plan.touched = other.plan.touched
  table : query.plan.quotedTable = other.plan.quotedTable
  decode : ∀ records, query.plan.decode records = other.plan.decode records

theorem Alike.symm {query other : Query} (h : query.Alike other) : other.Alike query where
  stage := h.stage.symm
  errors := h.errors.symm
  sent action := (h.sent action).symm
  cacheable := h.cacheable.symm
  touched := h.touched.symm
  table := h.table.symm
  decode records := (h.decode records).symm

theorem Alike.trans {query second third : Query} (h : query.Alike second)
    (h' : second.Alike third) : query.Alike third where
  stage := h.stage.trans h'.stage
  errors := h.errors.trans h'.errors
  sent action := (h.sent action).trans (h'.sent action)
  cacheable := h.cacheable.trans h'.cacheable
  touched := h.touched.trans h'.touched
  table := h.table.trans h'.table
  decode records := (h.decode records).trans (h'.decode records)

theorem ofAnyField_rename (ρ : Token ↪ Token) (error : PlanError) :
    (error.rename ρ).ofAnyField = error.ofAnyField := by
  cases error <;> rfl

theorem sent_rename (ρ : Token ↪ Token) (plan : Plan) (action : Action) :
    (plan.rename ρ).sent action = renamedError ρ (plan.sent action) := by
  unfold Plan.sent
  rw [Plan.statement_rename, renamedError_map]
  rfl

/-- Tokens are not to be seen of a query. -/
theorem alike_rename (ρ : Token ↪ Token) (query : Query) : (query.rename ρ).Alike query where
  stage := rfl
  errors := by
    show (query.plan.errors.map (·.rename ρ)).map _ = _
    rw [List.map_map]
    exact List.map_congr_left fun error _ => ofAnyField_rename ρ error
  sent action := by
    show ((query.plan.rename ρ).sent action).mapError _ = _
    rw [sent_rename]
    cases query.plan.sent action with
    | error error => exact congrArg Except.error (ofAnyField_rename ρ error)
    | ok sent => rfl
  cacheable := rfl
  touched := rfl
  table := rfl
  decode := query.plan.decode_rename ρ

end Query

/-! ## Building again -/

namespace Bench

variable {catalog : Catalog}

/-- The queries of a program are those that it makes in the empty forest, but for their tokens. -/
theorem Runs.queries_eq {forest : Forest} {program : List Instruction} {last : Bench}
    (hforest : forest.Grown catalog) (hruns : Runs catalog ⟨forest, {}⟩ program last) :
    ∃ final, Bench.run? catalog ⟨{ supply := 0 }, {}⟩ program = some final ∧
      ∃ ρ : Token ↪ Token, last.made.queries = final.made.queries.map (·.rename ρ) := by
  rcases hruns.hosted (Hosts.start hforest) with ⟨final, drawn, hrun, hlast⟩
  rcases hlast.forest.exists_follows with ⟨ν, hν⟩
  exact ⟨final, hrun, ν.token, by rw [hlast.made ν hν]; rfl⟩

/-- A program that is carried out twice makes queries that are alike, one by one. -/
theorem Runs.forall₂_alike {forest other : Forest} {program : List Instruction}
    {last last' : Bench} (hforest : forest.Grown catalog) (hother : other.Grown catalog)
    (hruns : Runs catalog ⟨forest, {}⟩ program last)
    (hruns' : Runs catalog ⟨other, {}⟩ program last') :
    List.Forall₂ Query.Alike last.made.queries last'.made.queries := by
  rcases hruns.queries_eq hforest with ⟨final, hrun, ρ, hqueries⟩
  rcases hruns'.queries_eq hother with ⟨final', hrun', ρ', hqueries'⟩
  have hsame : final' = final := Option.some.inj (hrun'.symm.trans hrun)
  rw [hqueries, hqueries', hsame, List.forall₂_map_left_iff, List.forall₂_map_right_iff,
    List.forall₂_same]
  exact fun query _ => (query.alike_rename ρ).trans (query.alike_rename ρ').symm

theorem Runs.alike_of_getElem? {forest other : Forest} {program : List Instruction}
    {last last' : Bench} (hforest : forest.Grown catalog) (hother : other.Grown catalog)
    (hruns : Runs catalog ⟨forest, {}⟩ program last)
    (hruns' : Runs catalog ⟨other, {}⟩ program last') {number : Nat} {query again : Query}
    (hquery : last.made.queries[number]? = some query)
    (hagain : last'.made.queries[number]? = some again) : query.Alike again := by
  rcases List.getElem?_eq_some_iff.1 hquery with ⟨hlt, rfl⟩
  rcases List.getElem?_eq_some_iff.1 hagain with ⟨hlt', rfl⟩
  exact (List.forall₂_iff_get.1 (hruns.forall₂_alike hforest hother hruns')).2 number hlt hlt'

/-- A program that can be carried out over references of its own can be carried out again over
others, in whichever forest, and whatever is built elsewhere in the meantime; the queries are then
alike, one by one. -/
theorem Runs.alike {forest other : Forest} {program : List Instruction} {last : Bench}
    (hforest : forest.Grown catalog) (hother : other.Grown catalog)
    (hruns : Runs catalog ⟨forest, {}⟩ program last) :
    (∃ last', Runs catalog ⟨other, {}⟩ program last') ∧
      ∀ last', Runs catalog ⟨other, {}⟩ program last' →
        List.Forall₂ Query.Alike last.made.queries last'.made.queries := by
  refine ⟨?_, fun last' hruns' => hruns.forall₂_alike hforest hother hruns'⟩
  rcases hruns.hosted (Hosts.start hforest) with ⟨final, drawn, hrun, -⟩
  have hagain : Option.Rel _ (Bench.run? catalog ⟨other, {}⟩ program) _ :=
    (Hosts.start hother).run? program
  rw [hrun] at hagain
  cases hlast' : Bench.run? catalog ⟨other, {}⟩ program with
  | none =>
      rw [hlast'] at hagain
      cases hagain
  | some last' => exact ⟨last', runs_of_run? hlast'⟩

end Bench

namespace Towns

/-- The names of the players' teams are asked for, and so are the towns that these are looked up
in. -/
def program : List Instruction :=
  [.plant 1, .target 0 [], .make (.start .postgres true [rule] 0), .target 0 ["team"],
    .make (.call 0 (.join .leftOuter 1)), .make (.call 1 .references), .field 0 ["team", "name"],
    .make (.call 2 (.addField 0))]

/-- The program is carried out in an empty forest, and in one where the same references have been
asked for before. -/
theorem alike_program : ∃ first second,
    Bench.Runs catalog ⟨{}, {}⟩ program first ∧ Bench.Runs catalog ⟨team.2, {}⟩ program second ∧
      first.made.fields = [⟨6⟩] ∧ second.made.fields = [⟨12⟩] ∧ first.made.queries.length = 4 ∧
      List.Forall₂ Query.Alike first.made.queries second.made.queries := by
  have hgrown : team.2.Grown catalog := .enter (.plant .empty 1) (by decide) rfl
  have hfirst : ∃ first, Bench.run? catalog ⟨{}, {}⟩ program = some first ∧
      first.made.fields = [⟨6⟩] ∧ first.made.queries.length = 4 := ⟨_, rfl, rfl, rfl⟩
  have hsecond : ∃ second, Bench.run? catalog ⟨team.2, {}⟩ program = some second ∧
      second.made.fields = [⟨12⟩] := ⟨_, rfl, rfl⟩
  rcases hfirst with ⟨first, hfirst, hfields, hqueries⟩
  rcases hsecond with ⟨second, hsecond, hfields'⟩
  have hruns := Bench.runs_of_run? hfirst
  have hruns' := Bench.runs_of_run? hsecond
  exact ⟨first, second, hruns, hruns', hfields, hfields', hqueries,
    (hruns.alike .empty hgrown).2 second hruns'⟩

end Towns

end FieldQuery
