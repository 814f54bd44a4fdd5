import FieldQuery.Proofs.Reference.Naming

/-!
# Forests within forests

References are built in the order in which they are asked for.  So whoever asks for the same
references in two forests gets the same ones but for their tokens and the numbers of their roots,
however far the supply of tokens has gone in either, and whatever is built for others in between.
A forest that nothing else is built in, the guest, says what is asked for; a forest that hosts it
answers under the names that were drawn there.

Main definitions:

- `Forest.Hosts`: a forest that has all of another one, under the names that were drawn.
- `Forest.Elsewhere`: a forest that has grown, but not under the roots that count.
- `Forest.Answers`: an answer of a host, and that of its guest.

Main statements: `Forest.Hosts.plant`, `Forest.Hosts.enter` and `Forest.Hosts.resolve?`.
-/

namespace FieldQuery.Forest

variable {catalog : Catalog} {drawn trees : List Nat} {host guest : Forest}

/-- What the host holds for its guest: each reference, under the names that were drawn. -/
structure Hosts (drawn trees : List Nat) (host guest : Forest) : Prop where
  supply : guest.supply = drawn.length
  roots : guest.roots = trees.length
  numbers : drawn.Nodup ∧ ∀ number ∈ drawn, number < host.supply
  distinct : trees.Nodup ∧ ∀ root ∈ trees, root < host.roots
  rooted : ∀ reference ∈ host.built, reference.place.root < host.roots
  planted : ∀ reference ∈ guest.built, reference.place.root < guest.roots
  known : ∀ ν : Naming, ν.Follows drawn trees → ∀ place : Place, place.root < guest.roots →
    host.built.find? (·.place == place.rename ν) =
      (guest.built.find? (·.place == place)).map (·.rename ν)

/-- The forest has grown for others: tokens, roots, and references under other roots than these. -/
structure Elsewhere (trees : List Nat) (forest next : Forest) : Prop where
  supply : forest.supply ≤ next.supply
  roots : forest.roots ≤ next.roots
  built : ∃ more, next.built = forest.built ++ more ∧
    ∀ reference ∈ more, reference.place.root ∉ trees ∧ reference.place.root < next.roots

/-- The host answers what its guest does, under names that go on from the ones drawn before. -/
def Answers {α : Type} (rename : Naming → α → α) (drawn trees : List Nat)
    (host guest : α × Forest) : Prop :=
  ∃ drawn', drawn <+: drawn' ∧ Hosts drawn' trees host.2 guest.2 ∧
    ∀ ν : Naming, ν.Follows drawn' trees → host.1 = rename ν guest.1

/-- Names that go on from later ones go on from these. -/
theorem Answers.of_later {α : Type} {rename : Naming → α → α} {drawn' : List Nat}
    {host guest : Option (α × Forest)} (h : Option.Rel (Answers rename drawn' trees) host guest)
    (hdrawn : drawn <+: drawn') : Option.Rel (Answers rename drawn trees) host guest := by
  cases h with
  | none => exact .none
  | some hanswer =>
      rcases hanswer with ⟨last, hlast, hhosts, hsame⟩
      exact .some ⟨last, hdrawn.trans hlast, hhosts, hsame⟩

namespace Hosts

theorem exists_follows (h : Hosts drawn trees host guest) : ∃ ν : Naming, ν.Follows drawn trees :=
  Naming.exists_follows h.numbers.1 h.distinct.1

/-- At first there is nothing to host. -/
theorem start (hgrown : host.Grown catalog) : Hosts [] [] host { supply := 0 } where
  supply := rfl
  roots := rfl
  numbers := ⟨List.nodup_nil, by simp⟩
  distinct := ⟨List.nodup_nil, by simp⟩
  rooted := hgrown.orderly.roots
  planted := by simp
  known _ _ place hroot := absurd hroot (Nat.not_lt_zero _)

theorem elsewhere (h : Hosts drawn trees host guest) {next : Forest}
    (hnext : Elsewhere trees host next) : Hosts drawn trees next guest := by
  rcases hnext.built with ⟨more, hbuilt, hmore⟩
  refine ⟨h.supply, h.roots, ⟨h.numbers.1, fun number hmem => ?_⟩,
    ⟨h.distinct.1, fun root hmem => ?_⟩, fun reference hmem => ?_, h.planted,
    fun ν hν place hroot => ?_⟩
  · exact Nat.lt_of_lt_of_le (h.numbers.2 number hmem) hnext.supply
  · exact Nat.lt_of_lt_of_le (h.distinct.2 root hmem) hnext.roots
  · rw [hbuilt] at hmem
    rcases List.mem_append.1 hmem with hmem | hmem
    · exact Nat.lt_of_lt_of_le (h.rooted reference hmem) hnext.roots
    · exact (hmore reference hmem).2
  · have hindex : place.root < trees.length := h.roots ▸ hroot
    have htree : ν.tree place.root ∈ trees := by
      rw [hν.tree (List.getElem?_eq_getElem hindex)]
      exact List.getElem_mem hindex
    have hnone : more.find? (·.place == place.rename ν) = none := by
      refine List.find?_eq_none.2 fun reference hmem hplace => ?_
      have hsame : reference.place.root = ν.tree place.root :=
        congrArg Place.root (eq_of_beq hplace)
      exact (hmore reference hmem).1 (hsame ▸ htree)
    rw [hbuilt, List.find?_append, hnone, Option.or_none, h.known ν hν place hroot]

/-! ## Taking names -/

/-- The numbers that the host's supply has for the next ones of its guest. -/
def next (host guest : Forest) (supply : TokenSupply) : List Nat :=
  List.range' host.supply (supply - guest.supply)

theorem getElem?_next (h : Hosts drawn trees host guest) {supply k : Nat} (hle : guest.supply ≤ k)
    (hlt : k < supply) :
    (drawn ++ next host guest supply)[k]? = some (host.supply + (k - guest.supply)) := by
  have hlength : drawn.length ≤ k := h.supply ▸ hle
  have hindex : k - drawn.length < supply - guest.supply := by
    rw [← h.supply]
    exact Nat.sub_lt_sub_right hle hlt
  rw [List.getElem?_append_right hlength, next, List.getElem?_range' hindex, h.supply, Nat.one_mul]

/-- Names that follow the numbers drawn next shift the tokens of the guest. -/
theorem shifts (h : Hosts drawn trees host guest) {supply : Nat} {ν : Naming}
    (hν : ν.Follows (drawn ++ next host guest supply) trees) :
    Token.Shifts ν.token guest.supply supply host.supply :=
  fun _ hle hlt => congrArg Token.mk (hν.number (h.getElem?_next hle hlt))

theorem draw (h : Hosts drawn trees host guest) {supply : Nat} (hle : guest.supply ≤ supply) :
    Hosts (drawn ++ next host guest supply) trees
      { host with supply := host.supply + (supply - guest.supply) }
      { guest with supply := supply } where
  supply := by
    rw [List.length_append, next, List.length_range', ← h.supply]
    exact (Nat.add_sub_cancel' hle).symm
  roots := h.roots
  numbers := by
    refine ⟨List.nodup_append.2 ⟨h.numbers.1, List.nodup_range', ?_⟩, ?_⟩
    · intro number hmem other hother
      have hless := h.numbers.2 number hmem
      have hbound := List.mem_range'_1.1 hother
      omega
    · intro number hmem
      rcases List.mem_append.1 hmem with hmem | hmem
      · exact Nat.lt_of_lt_of_le (h.numbers.2 number hmem) (Nat.le_add_right ..)
      · exact (List.mem_range'_1.1 hmem).2
  distinct := h.distinct
  rooted := h.rooted
  planted := h.planted
  known ν hν := h.known ν (hν.of_later (List.prefix_append ..) (List.prefix_refl _))

theorem root (h : Hosts drawn trees host guest) :
    Hosts drawn (trees ++ [host.roots]) { host with roots := host.roots + 1 }
      { guest with roots := guest.roots + 1 } where
  supply := h.supply
  roots := by rw [List.length_append, ← h.roots, List.length_singleton]
  numbers := h.numbers
  distinct := by
    refine ⟨List.nodup_append.2 ⟨h.distinct.1, List.nodup_singleton _, ?_⟩, ?_⟩
    · rintro root hmem other hother rfl
      have hless := h.distinct.2 root hmem
      have hsame := List.mem_singleton.1 hother
      omega
    · intro root hmem
      rcases List.mem_append.1 hmem with hmem | hmem
      · exact Nat.lt_succ_of_lt (h.distinct.2 root hmem)
      · exact List.mem_singleton.1 hmem ▸ Nat.lt_succ_self _
  rooted reference hmem := Nat.lt_succ_of_lt (h.rooted reference hmem)
  planted reference hmem := Nat.lt_succ_of_lt (h.planted reference hmem)
  known ν hν place hroot := by
    have hbefore := hν.of_later (List.prefix_refl _) (List.prefix_append ..)
    rcases Nat.lt_succ_iff_lt_or_eq.1 hroot with hold | hnew
    · exact h.known ν hbefore place hold
    · -- nothing hangs under the new root yet
      have htree : ν.tree place.root = host.roots := by
        refine hν.tree ?_
        rw [hnew, h.roots, List.getElem?_concat_length]
      have hhost : host.built.find? (·.place == place.rename ν) = none := by
        refine List.find?_eq_none.2 fun reference hmem hplace => ?_
        have hsame : reference.place.root = ν.tree place.root :=
          congrArg Place.root (eq_of_beq hplace)
        exact absurd (h.rooted reference hmem) (by omega)
      have hguest : guest.built.find? (·.place == place) = none := by
        refine List.find?_eq_none.2 fun reference hmem hplace => ?_
        have hsame : reference.place.root = place.root := congrArg Place.root (eq_of_beq hplace)
        exact absurd (h.planted reference hmem) (by omega)
      rw [hhost, hguest]
      rfl

theorem add (h : Hosts drawn trees host guest) {reference reference' : Reference}
    (hroot : reference.place.root < guest.roots)
    (hsame : ∀ ν : Naming, ν.Follows drawn trees → reference' = reference.rename ν) :
    Hosts drawn trees { host with built := host.built ++ [reference'] }
      { guest with built := guest.built ++ [reference] } where
  supply := h.supply
  roots := h.roots
  numbers := h.numbers
  distinct := h.distinct
  rooted := by
    rcases h.exists_follows with ⟨ν, hν⟩
    intro known hmem
    rcases List.mem_append.1 hmem with hmem | hmem
    · exact h.rooted known hmem
    · have hindex : reference.place.root < trees.length := h.roots ▸ hroot
      rw [List.mem_singleton.1 hmem, hsame ν hν]
      show ν.tree reference.place.root < host.roots
      rw [hν.tree (List.getElem?_eq_getElem hindex)]
      exact h.distinct.2 _ (List.getElem_mem hindex)
  planted := by
    intro known hmem
    rcases List.mem_append.1 hmem with hmem | hmem
    · exact h.planted known hmem
    · exact List.mem_singleton.1 hmem ▸ hroot
  known ν hν place hplace := by
    have hbeq : (reference'.place == place.rename ν) = (reference.place == place) := by
      rw [hsame ν hν, Bool.eq_iff_iff, beq_iff_eq, beq_iff_eq]
      exact Place.rename_inj
    rw [List.find?_append, List.find?_append, h.known ν hν place hplace, List.find?_singleton,
      List.find?_singleton, hbeq]
    cases guest.built.find? (·.place == place) with
    | some known => rfl
    | none =>
        by_cases hhere : (reference.place == place) = true
        · simp [hhere, hsame ν hν]
        · simp [hhere]

/-! ## Building references -/

/-- The handles of a reference are built in the host as they are in its guest. -/
theorem build (h : Hosts drawn trees host guest) {place place' : Place}
    {builder builder' : RefBuilder}
    (hroot : place.root < guest.roots)
    (hsame : ∀ ν : Naming, ν.Follows drawn trees →
      place' = place.rename ν ∧ builder' = builder.rename ν.token) (table : Nat) :
    Answers (fun ν reference => reference.rename ν) drawn trees
      (host.build catalog place' table builder') (guest.build catalog place table builder) := by
  rcases hrun : (builder.handles (catalog.table table).columns).run guest.supply with
    ⟨handles, supply⟩
  have hle : guest.supply ≤ supply := (RefBuilder.grows_handles hrun).choose_spec.1.supply
  have hdraw := h.draw hle
  have hhost : ∀ ν : Naming, ν.Follows (drawn ++ next host guest supply) trees →
      (builder'.handles (catalog.table table).columns).run host.supply =
        (handles.map (·.rename ν.token), host.supply + (supply - guest.supply)) := by
    intro ν hν
    rw [(hsame ν (hν.of_later (List.prefix_append ..) (List.prefix_refl _))).2]
    exact RefBuilder.handles_rename hrun (h.shifts hν)
  rcases hdraw.exists_follows with ⟨ν₀, hν₀⟩
  have hreference : ∀ ν : Naming, ν.Follows (drawn ++ next host guest supply) trees →
      (⟨place', table, builder'.own, handles.map (·.rename ν₀.token)⟩ : Reference) =
        Reference.rename ν ⟨place, table, builder.own, handles⟩ := by
    intro ν hν
    have hbefore := hν.of_later (List.prefix_append ..) (List.prefix_refl trees)
    have hhandles : handles.map (·.rename ν₀.token) = handles.map (·.rename ν.token) :=
      congrArg Prod.fst ((hhost ν₀ hν₀).symm.trans (hhost ν hν))
    rw [(hsame ν hbefore).1, (hsame ν hbefore).2, hhandles]
    rfl
  have hbuild : host.build catalog place' table builder' =
      (⟨place', table, builder'.own, handles.map (·.rename ν₀.token)⟩,
        { host with
          supply := host.supply + (supply - guest.supply)
          built := host.built ++
            [⟨place', table, builder'.own, handles.map (·.rename ν₀.token)⟩] }) := by
    unfold Forest.build
    rw [hhost ν₀ hν₀]
  have hbuild' : guest.build catalog place table builder =
      (⟨place, table, builder.own, handles⟩,
        { guest with
          supply := supply
          built := guest.built ++ [⟨place, table, builder.own, handles⟩] }) := by
    unfold Forest.build
    rw [hrun]
  rw [hbuild, hbuild']
  exact ⟨_, List.prefix_append .., hdraw.add hroot hreference, hreference⟩

theorem plant (h : Hosts drawn trees host guest) (table : Nat) :
    Answers (fun ν reference => reference.rename ν) drawn (trees ++ [host.roots])
      (host.plant catalog table) (guest.plant catalog table) := by
  have hdraw := h.draw (Nat.le_succ guest.supply)
  rw [Nat.succ_sub (Nat.le_refl _), Nat.sub_self] at hdraw
  -- the new root and the new reference's own token are the ones just taken
  have hsame : ∀ ν : Naming,
      ν.Follows (drawn ++ next host guest (guest.supply + 1)) (trees ++ [host.roots]) →
      Place.mk host.roots [] = Place.rename ν ⟨guest.roots, []⟩ ∧
        RefBuilder.mk ⟨host.supply⟩ [] = RefBuilder.rename ν.token ⟨⟨guest.supply⟩, []⟩ := by
    intro ν hν
    have hplace : ν.tree guest.roots = host.roots := by
      refine hν.tree ?_
      rw [h.roots, List.getElem?_concat_length]
    have hown : ν.token ⟨guest.supply⟩ = ⟨host.supply⟩ := by
      have hshift := h.shifts (hν.of_later (List.prefix_refl _) (List.prefix_append ..))
        guest.supply (Nat.le_refl _) (Nat.lt_succ_self _)
      rwa [Nat.sub_self, Nat.add_zero] at hshift
    exact ⟨congrArg (Place.mk · []) hplace.symm, congrArg (RefBuilder.mk · []) hown.symm⟩
  rcases hdraw.root.build (Nat.lt_succ_self _) hsame table with ⟨drawn', hdrawn, hhosts, hanswer⟩
  exact ⟨drawn', (List.prefix_append ..).trans hdrawn, hhosts, hanswer⟩

end Hosts

/-! ## Following paths -/

theorem enter_root (catalog : Catalog) (reference : Reference) (column : Nat) (token : Token)
    (shared : List (String × Token)) (target : Nat) (forest : Forest) :
    (forest.enter catalog reference column token shared target).1.place.root =
      reference.place.root := by
  rw [enter_eq]
  split
  · next known hknown =>
      have hplace : known.place = reference.place.under column := by
        simpa using List.find?_some hknown
      show known.place.root = (reference.place.under column).root
      rw [hplace]
  · rfl

theorem enter_roots (catalog : Catalog) (reference : Reference) (column : Nat) (token : Token)
    (shared : List (String × Token)) (target : Nat) (forest : Forest) :
    (forest.enter catalog reference column token shared target).2.roots = forest.roots := by
  rw [enter_eq]
  split <;> rfl

/-- What a path leads to, under other names. -/
def Destination.rename (ν : Naming) : Destination → Destination
  | .reference found => .reference (found.rename ν)
  | .handle found column own => .handle (found.rename ν) column (own.rename ν.token)

/-- The reference that a path leads to, or to a field of which it leads. -/
def Destination.holder : Destination → Reference
  | .reference found => found
  | .handle found _ _ => found

/-- A path leads to what hangs under its first reference's root, and plants nothing. -/
theorem resolve?_root {found : Destination} {next : Forest} :
    ∀ {names : List String} {reference : Reference} {forest : Forest},
      resolve? catalog names reference forest = some (found, next) →
      next.roots = forest.roots ∧ found.holder.place.root = reference.place.root
  | [], _, _, h => by
      cases h
      exact ⟨rfl, rfl⟩
  | [name], reference, forest, h => by
      rw [resolve?] at h
      rcases Option.map_eq_some_iff.1 h with ⟨⟨column, handle⟩, -, hfound⟩
      cases hfound
      exact ⟨rfl, rfl⟩
  | name :: second :: names, reference, forest, h => by
      rw [resolve?] at h
      split at h
      · next column token shared target _ =>
          rcases resolve?_root h with ⟨hroots, hplace⟩
          exact ⟨hroots.trans (enter_roots ..),
            hplace.trans (enter_root ..)⟩
      · cases h

namespace Hosts

theorem enter (h : Hosts drawn trees host guest) {reference reference' : Reference}
    (hroot : reference.place.root < guest.roots)
    (hsame : ∀ ν : Naming, ν.Follows drawn trees → reference' = reference.rename ν)
    {column target : Nat} {token token' : Token} {shared shared' : List (String × Token)}
    (hhandle : ∀ ν : Naming, ν.Follows drawn trees →
      token' = ν.token token ∧ shared' = shared.map (Prod.map id ν.token)) :
    Answers (fun ν reference => reference.rename ν) drawn trees
      (host.enter catalog reference' column token' shared' target)
      (guest.enter catalog reference column token shared target) := by
  have hplace : ∀ ν : Naming, ν.Follows drawn trees →
      reference'.place.under column = (reference.place.under column).rename ν := fun ν hν => by
    rw [hsame ν hν]
    rfl
  have hunder : (reference.place.under column).root < guest.roots := hroot
  have hknown : ∀ ν : Naming, ν.Follows drawn trees →
      host.built.find? (·.place == reference'.place.under column) =
        (guest.built.find? (·.place == reference.place.under column)).map (·.rename ν) :=
    fun ν hν => by rw [hplace ν hν, h.known ν hν _ hunder]
  rcases h.exists_follows with ⟨ν₀, hν₀⟩
  rw [enter_eq, enter_eq, hknown ν₀ hν₀]
  cases hguest : guest.built.find? (·.place == reference.place.under column) with
  | some known =>
      refine ⟨drawn, List.prefix_refl _, h, fun ν hν => ?_⟩
      have hboth := (hknown ν₀ hν₀).symm.trans (hknown ν hν)
      rw [hguest] at hboth
      exact Option.some.inj hboth
  | none =>
      refine h.build hunder (fun ν hν => ⟨hplace ν hν, ?_⟩) target
      rw [(hhandle ν hν).1, (hhandle ν hν).2]
      rfl

/-- A field's name stands for the same column in the host as in its guest. -/
theorem column? {reference reference' : Reference} (h : Hosts drawn trees host guest)
    (hsame : ∀ ν : Naming, ν.Follows drawn trees → reference' = reference.rename ν)
    (name : String) :
    Option.Rel (fun found' found : Nat × Handle => found'.1 = found.1 ∧
        ∀ ν : Naming, ν.Follows drawn trees → found'.2 = found.2.rename ν.token)
      (Forest.column? catalog reference' name) (Forest.column? catalog reference name) := by
  rcases h.exists_follows with ⟨ν₀, hν₀⟩
  have htable : reference'.table = reference.table := by rw [hsame ν₀ hν₀]; rfl
  have hhandles : ∀ ν : Naming, ν.Follows drawn trees → ∀ column : Nat,
      reference'.handles[column]? = (reference.handles[column]?).map (·.rename ν.token) :=
    fun ν hν column => by
      rw [hsame ν hν]
      exact List.getElem?_map
  unfold Forest.column?
  rw [htable]
  cases (catalog.table reference.table).columns.findIdx? (·.field == name) with
  | none => exact .none
  | some column =>
      show Option.Rel _ ((reference'.handles[column]?).bind _) ((reference.handles[column]?).bind _)
      rw [hhandles ν₀ hν₀]
      cases hhandle : reference.handles[column]? with
      | none => exact .none
      | some handle =>
          refine .some ⟨rfl, fun ν hν => ?_⟩
          have hboth := (hhandles ν₀ hν₀ column).symm.trans (hhandles ν hν column)
          rw [hhandle] at hboth
          exact Option.some.inj hboth

/-- A path leads to the same end in the host as in its guest. -/
theorem resolve? (h : Hosts drawn trees host guest) {reference reference' : Reference}
    (hroot : reference.place.root < guest.roots)
    (hsame : ∀ ν : Naming, ν.Follows drawn trees → reference' = reference.rename ν)
    (names : List String) :
    Option.Rel (Answers Destination.rename drawn trees)
      (Forest.resolve? catalog names reference' host)
      (Forest.resolve? catalog names reference guest) := by
  induction names generalizing drawn host guest reference reference' with
  | nil =>
      exact .some ⟨drawn, List.prefix_refl _, h, fun ν hν =>
        congrArg Destination.reference (hsame ν hν)⟩
  | cons name names ih =>
      have hcolumn : Option.Rel _ (Forest.column? catalog reference' name) _ :=
        h.column? hsame name
      cases names with
      | nil =>
          rw [Forest.resolve?, Forest.resolve?]
          generalize Forest.column? catalog reference' name = found' at hcolumn
          generalize Forest.column? catalog reference name = found at hcolumn
          cases hcolumn with
          | none => exact .none
          | @some found' found hfound =>
              rcases found' with ⟨column', handle'⟩
              rcases hfound with ⟨hcolumn, hhandle⟩
              refine .some ⟨drawn, List.prefix_refl _, h, fun ν hν => ?_⟩
              show Destination.handle reference' column' handle' =
                .handle (reference.rename ν) found.1 (found.2.rename ν.token)
              rw [hsame ν hν, ← hcolumn, ← hhandle ν hν]
      | cons second names =>
          rw [Forest.resolve?, Forest.resolve?]
          generalize Forest.column? catalog reference' name = found' at hcolumn
          generalize Forest.column? catalog reference name = found at hcolumn
          cases hcolumn with
          | none => exact .none
          | @some found' found hfound =>
              rcases found' with ⟨column', handle'⟩
              rcases hfound with ⟨hcolumn, hhandle⟩
              rcases h.exists_follows with ⟨ν₀, hν₀⟩
              rcases found with ⟨column, token | ⟨token, shared, target⟩⟩
              · cases hhandle ν₀ hν₀
                exact .none
              · cases hhandle ν₀ hν₀
                cases hcolumn
                have hentered : Answers (fun ν reference => reference.rename ν) drawn trees
                    (host.enter catalog reference' column' (ν₀.token token)
                      (shared.map (Prod.map id ν₀.token)) target)
                    (guest.enter catalog reference column' token shared target) :=
                  h.enter hroot hsame fun ν hν => by
                    have hsame := Handle.relation.inj (hhandle ν hν)
                    exact ⟨hsame.1, hsame.2.1⟩
                rcases hentered with ⟨drawn', hdrawn, hhosts, hanswer⟩
                have hentry := enter_root catalog reference column' token shared target guest
                exact Answers.of_later (ih hhosts
                  (hentry.trans_lt (hroot.trans_eq (enter_roots ..).symm)) hanswer) hdrawn

end Hosts

end FieldQuery.Forest
