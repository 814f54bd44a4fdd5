import FieldQuery.Proofs.Reference.Tokens

/-!
# Forests of references

References are planted for their own sake, or built when a relation is entered for the first time.
A reference is known by its place, and what hangs off a relation starts with the tokens that the
relation shares.  Where no link leads to a relation, the token of a relation tells which reference
it belongs to, and in which column.

Main definitions:

- `Place.under`: where the reference hangs that a relation leads to.
- `Forest.Grown`: a forest that has grown from the empty one.
- `Reference.Origin`: the tokens that a reference starts with.
- `Catalog.TellsRelations`: relations have names of their own, and no link leads to one.

Main statements: `Forest.Grown.orderly` and `Forest.Grown.told`.
-/

namespace FieldQuery

/-- Where the reference hangs that the relation in a column leads to. -/
def Place.under (place : Place) (column : Nat) : Place :=
  ⟨place.root, place.steps ++ [column]⟩

theorem Place.under_inj {place other : Place} {column column' : Nat}
    (h : place.under column = other.under column') : place = other ∧ column = column' := by
  rcases place with ⟨root, steps⟩
  rcases other with ⟨root', steps'⟩
  simp only [under, Place.mk.injEq] at h
  rcases h with ⟨rfl, hsteps⟩
  rcases List.append_inj' hsteps rfl with ⟨rfl, hlast⟩
  exact ⟨rfl, by simpa using hlast⟩

namespace Reference

/-- The relation in a column has this token. -/
def Leads (reference : Reference) (column : Nat) (token : Token) : Prop :=
  ∃ shared target, reference.handles[column]? = some (.relation token shared target)

/-- A reference whose handles go by tokens that were issued from `start` on. -/
structure Written (catalog : Catalog) (start : RefBuilder) (n m : TokenSupply)
    (reference : Reference) : Prop where
  own : reference.own = start.own
  handles : ∃ final, start.Grows n final m ∧
    List.Forall₂ (fun column handle => handle.Follows final column)
      (catalog.table reference.table).columns reference.handles

/-- The tokens that a reference starts with: none but its own, or what a relation shares. -/
inductive Origin (forest : Forest) (reference : Reference) : RefBuilder → Prop
  | planted {own : Token} (hplace : reference.place.steps = []) : Origin forest reference ⟨own, []⟩
  | entered {parent : Reference} {column : Nat} {token : Token} {shared : List (String × Token)}
      (hparent : parent ∈ forest.built)
      (hhandle : parent.handles[column]? = some (.relation token shared reference.table))
      (hplace : reference.place = parent.place.under column) :
      Origin forest reference ⟨token, shared⟩

theorem Origin.mono {forest next : Forest} {reference : Reference} {start : RefBuilder}
    (h : reference.Origin forest start) (hbuilt : forest.built ⊆ next.built) :
    reference.Origin next start := by
  cases h with
  | planted hplace => exact .planted hplace
  | entered hparent hhandle hplace => exact .entered (hbuilt hparent) hhandle hplace

end Reference

/-- The column of a handle. -/
theorem Handle.exists_column {builder : RefBuilder} {columns : List Column} {handles : List Handle}
    (h : List.Forall₂ (fun column handle => handle.Follows builder column) columns handles)
    {index : Nat} {handle : Handle} (hhandle : handles[index]? = some handle) :
    ∃ column, columns[index]? = some column ∧ handle.Follows builder column := by
  induction h generalizing index with
  | nil => simp at hhandle
  | @cons column first columns handles hfirst hrest ih =>
      cases index with
      | zero =>
          have hsame : first = handle := by simpa using hhandle
          exact ⟨column, rfl, hsame ▸ hfirst⟩
      | succ index => exact ih (by simpa using hhandle)

/-- The handle of a column. -/
theorem Handle.exists_handle {builder : RefBuilder} {columns : List Column} {handles : List Handle}
    (h : List.Forall₂ (fun column handle => handle.Follows builder column) columns handles)
    {index : Nat} {column : Column} (hcolumn : columns[index]? = some column) :
    ∃ handle, handles[index]? = some handle ∧ handle.Follows builder column := by
  induction h generalizing index with
  | nil => simp at hcolumn
  | @cons first handle columns handles hfirst hrest ih =>
      cases index with
      | zero =>
          have hsame : first = column := by simpa using hcolumn
          exact ⟨handle, rfl, hsame ▸ hfirst⟩
      | succ index => exact ih (by simpa using hcolumn)

/-- The token of a column is the one issued under its name. -/
theorem Handle.token?_column {builder : RefBuilder} {columns : List Column} {handles : List Handle}
    (h : List.Forall₂ (fun column handle => handle.Follows builder column) columns handles)
    {index : Nat} {column : Column} {token : Token} (hcolumn : columns[index]? = some column)
    (htoken : (handles.map (·.token))[index]? = some token) :
    builder.token? column.name = some token := by
  rcases exists_handle h hcolumn with ⟨handle, hhandle, hfollow⟩
  have hsame : handle.token = token := by simpa [hhandle] using htoken
  rw [← hsame]
  exact hfollow.token

namespace Forest

/-! ## Growing -/

/-- A forest that has grown from the empty one; tokens may be taken elsewhere as well. -/
inductive Grown (catalog : Catalog) : Forest → Prop
  | empty : Grown catalog {}
  | issue {forest : Forest} {supply : TokenSupply} (h : Grown catalog forest)
      (hsupply : forest.supply ≤ supply) : Grown catalog { forest with supply := supply }
  | plant {forest : Forest} (h : Grown catalog forest) (table : Nat) :
      Grown catalog (forest.plant catalog table).2
  | enter {forest : Forest} {reference : Reference} {column target : Nat} {token : Token}
      {shared : List (String × Token)} (h : Grown catalog forest)
      (hreference : reference ∈ forest.built)
      (hhandle : reference.handles[column]? = some (.relation token shared target)) :
      Grown catalog (forest.enter catalog reference column token shared target).2

variable {catalog : Catalog} {forest next : Forest} {reference : Reference}

/-- One more reference, with a place of its own. -/
structure Adds (catalog : Catalog) (forest : Forest) (reference : Reference) (start : RefBuilder)
    (n : TokenSupply) (next : Forest) : Prop where
  built : next.built = forest.built ++ [reference]
  supply : forest.supply ≤ n
  roots : forest.roots ≤ next.roots
  root : reference.place.root < next.roots
  place : ∀ known ∈ forest.built, known.place ≠ reference.place
  written : reference.Written catalog start n next.supply
  origin : reference.Origin next start

theorem Adds.supply_le {start : RefBuilder} {n : TokenSupply}
    (h : Adds catalog forest reference start n next) : n ≤ next.supply := by
  rcases h.written.handles with ⟨final, hgrows, -⟩
  exact hgrows.supply

theorem Adds.mem {start : RefBuilder} {n : TokenSupply}
    (h : Adds catalog forest reference start n next) {known : Reference} :
    known ∈ next.built ↔ known ∈ forest.built ∨ known = reference := by
  simp [h.built]

theorem build_written (catalog : Catalog) (place : Place) (table : Nat) (builder : RefBuilder)
    (forest : Forest) :
    (build catalog place table builder forest).1.Written catalog builder forest.supply
      (build catalog place table builder forest).2.supply := by
  rcases hrun : (builder.handles (catalog.table table).columns).run forest.supply with
    ⟨handles, supply⟩
  have hbuild : build catalog place table builder forest =
      (⟨place, table, builder.own, handles⟩,
        { forest with
          supply := supply, built := forest.built ++ [⟨place, table, builder.own, handles⟩] }) := by
    unfold build
    rw [hrun]
  rw [hbuild]
  exact ⟨rfl, RefBuilder.grows_handles hrun⟩

/-- What a forest is in good order about. -/
structure Orderly (catalog : Catalog) (forest : Forest) : Prop where
  places : ∀ reference ∈ forest.built, ∀ other ∈ forest.built,
    reference.place = other.place → reference = other
  roots : ∀ reference ∈ forest.built, reference.place.root < forest.roots
  origin : ∀ reference ∈ forest.built, ∃ start n m, m ≤ forest.supply ∧
    reference.Written catalog start n m ∧ reference.Origin forest start

theorem Orderly.adds_plant (h : forest.Orderly catalog) (table : Nat) :
    Adds catalog forest (forest.plant catalog table).1 ⟨⟨forest.supply⟩, []⟩ (forest.supply + 1)
      (forest.plant catalog table).2 where
  built := rfl
  supply := Nat.le_succ _
  roots := Nat.le_succ _
  root := Nat.lt_succ_self _
  place := by
    intro known hmem heq
    have hroot : known.place.root = forest.roots := congrArg Place.root heq
    exact absurd (h.roots known hmem) (by rw [hroot]; exact Nat.lt_irrefl _)
  written := build_written catalog _ table _ { forest with
    supply := forest.supply + 1, roots := forest.roots + 1 }
  origin := .planted rfl

theorem enter_eq (catalog : Catalog) (reference : Reference) (column : Nat) (token : Token)
    (shared : List (String × Token)) (target : Nat) (forest : Forest) :
    forest.enter catalog reference column token shared target =
      match forest.built.find? (·.place == reference.place.under column) with
      | some known => (known, forest)
      | none => build catalog (reference.place.under column) target ⟨token, shared⟩ forest :=
  rfl

/-- A relation leads to the reference that hangs at its place, or to a new one there. -/
theorem Orderly.enter_cases (h : forest.Orderly catalog) (hreference : reference ∈ forest.built)
    {column target : Nat} {token : Token} {shared : List (String × Token)}
    (hhandle : reference.handles[column]? = some (.relation token shared target)) :
    let entered := forest.enter catalog reference column token shared target
    entered.1.place = reference.place.under column ∧
      ((entered.1 ∈ forest.built ∧ entered.2 = forest) ∨
        Adds catalog forest entered.1 ⟨token, shared⟩ forest.supply entered.2) := by
  intro entered
  cases hknown : forest.built.find? (·.place == reference.place.under column) with
  | some known =>
      have hentered : entered = (known, forest) :=
        (enter_eq ..).trans (by rw [hknown])
      have hplace : known.place = reference.place.under column := by
        simpa using List.find?_some hknown
      rw [hentered]
      exact ⟨hplace, .inl ⟨List.mem_of_find?_eq_some hknown, rfl⟩⟩
  | none =>
      have hentered : entered =
          build catalog (reference.place.under column) target ⟨token, shared⟩ forest :=
        (enter_eq ..).trans (by rw [hknown])
      have hnew : ∀ known ∈ forest.built, known.place ≠ reference.place.under column := by
        simpa using hknown
      rw [hentered]
      refine ⟨rfl, .inr ⟨rfl, Nat.le_refl _, Nat.le_refl _, h.roots reference hreference, hnew,
        build_written .., ?_⟩⟩
      exact .entered (List.mem_append_left _ hreference) hhandle rfl

theorem Orderly.add {start : RefBuilder} {n : TokenSupply} (h : forest.Orderly catalog)
    (hadds : Adds catalog forest reference start n next) : next.Orderly catalog where
  places := by
    intro first hfirst second hsecond heq
    rcases hadds.mem.1 hfirst with hfirst | rfl
    · rcases hadds.mem.1 hsecond with hsecond | rfl
      · exact h.places first hfirst second hsecond heq
      · exact absurd heq (hadds.place first hfirst)
    · rcases hadds.mem.1 hsecond with hsecond | rfl
      · exact absurd heq.symm (hadds.place second hsecond)
      · rfl
  roots := by
    intro known hmem
    rcases hadds.mem.1 hmem with hmem | rfl
    · exact Nat.lt_of_lt_of_le (h.roots known hmem) hadds.roots
    · exact hadds.root
  origin := by
    intro known hmem
    rcases hadds.mem.1 hmem with hmem | rfl
    · rcases h.origin known hmem with ⟨start', n', m', hm, hwritten, horigin⟩
      have hlater : m' ≤ next.supply :=
        Nat.le_trans hm (Nat.le_trans hadds.supply hadds.supply_le)
      exact ⟨start', n', m', hlater, hwritten,
        horigin.mono fun _ hother => hadds.mem.2 (.inl hother)⟩
    · exact ⟨start, n, next.supply, Nat.le_refl _, hadds.written, hadds.origin⟩

theorem Grown.orderly (h : forest.Grown catalog) : forest.Orderly catalog := by
  induction h with
  | empty => exact ⟨by simp, by simp, by simp⟩
  | issue _ hsupply ih =>
      refine ⟨ih.places, ih.roots, ?_⟩
      intro reference hmem
      rcases ih.origin reference hmem with ⟨start, n, m, hm, hwritten, horigin⟩
      exact ⟨start, n, m, Nat.le_trans hm hsupply, hwritten, horigin.mono (List.Subset.refl _)⟩
  | plant _ table ih => exact ih.add (ih.adds_plant table)
  | enter _ hreference hhandle ih =>
      rcases (ih.enter_cases hreference hhandle).2 with ⟨-, hsame⟩ | hadds
      · rw [hsame]
        exact ih
      · exact ih.add hadds

/-- What a relation's handle leads to starts with the tokens that the handle shares. -/
theorem Orderly.written_under (h : forest.Orderly catalog) {far : Reference}
    (hreference : reference ∈ forest.built) (hfar : far ∈ forest.built) {column target : Nat}
    {token : Token} {shared : List (String × Token)}
    (hhandle : reference.handles[column]? = some (.relation token shared target))
    (hplace : far.place = reference.place.under column) :
    far.table = target ∧ ∃ n m, far.Written catalog ⟨token, shared⟩ n m := by
  rcases h.origin far hfar with ⟨start, n, m, -, hwritten, horigin⟩
  cases horigin with
  | planted hroot => simp [hplace, Place.under] at hroot
  | @entered parent column' token' shared' hparent hhandle' hplace' =>
      rcases Place.under_inj (hplace.symm.trans hplace') with ⟨hsame, rfl⟩
      cases h.places reference hreference parent hparent hsame
      have hequal := hhandle.symm.trans hhandle'
      simp only [Option.some.injEq, Handle.relation.injEq] at hequal
      rcases hequal with ⟨rfl, rfl, htable⟩
      exact ⟨htable.symm, n, m, hwritten⟩

/-- The token of a relation's column is that of the relation. -/
theorem Orderly.leads (h : forest.Orderly catalog) (hreference : reference ∈ forest.built)
    {index : Nat} {column : Column} {relation : Relation} {token : Token}
    (hcolumn : (catalog.table reference.table).columns[index]? = some column)
    (hrelation : column.relation = some relation)
    (htoken : reference.columnTokens[index]? = some token) : reference.Leads index token := by
  rcases h.origin reference hreference with ⟨-, -, -, -, ⟨-, final, -, hfollows⟩, -⟩
  rcases Handle.exists_handle hfollows hcolumn with ⟨handle, hhandle, hfollow⟩
  rcases hfollow.eq_relation hrelation with ⟨own, shared, rfl, -⟩
  have hsame : own = token := by simpa [Reference.columnTokens, hhandle, Handle.token] using htoken
  exact ⟨shared, relation.target, by rw [← hsame]; exact hhandle⟩

/-- What a relation leads to: it has the relation's token for its own, and knows the linked columns
by the tokens of the local ones. -/
theorem Orderly.linked (h : forest.Orderly catalog) {far : Reference}
    (hreference : reference ∈ forest.built) (hfar : far ∈ forest.built) {index : Nat}
    {column : Column} {relation : Relation}
    (hcolumn : (catalog.table reference.table).columns[index]? = some column)
    (hrelation : column.relation = some relation)
    (hplace : far.place = reference.place.under index) :
    far.table = relation.target ∧ reference.Leads index far.own ∧
      ∀ {remote near : Column} {place other : Nat} {token : Token},
        (catalog.table reference.table).columns[place]? = some near →
        reference.columnTokens[place]? = some token →
        (catalog.table far.table).columns[other]? = some remote →
        relation.links.find? (·.1 == remote.name) = some (remote.name, near.name) →
        far.columnTokens[other]? = some token := by
  rcases h.origin reference hreference with ⟨-, -, -, -, ⟨-, final, -, hfollows⟩, -⟩
  rcases Handle.exists_handle hfollows hcolumn with ⟨handle, hhandle, hfollow⟩
  rcases hfollow.eq_relation hrelation with ⟨own, shared, rfl, hshared⟩
  rcases h.written_under hreference hfar hhandle hplace with ⟨htable, n, m, hwritten⟩
  have hown : far.own = own := hwritten.own
  refine ⟨htable, ⟨shared, relation.target, by rw [hown]; exact hhandle⟩, ?_⟩
  intro remote near place other token hnear htoken hremote hlink
  rcases hwritten.handles with ⟨last, hgrows, hfollows'⟩
  rcases RefBuilder.find?_shared hshared hlink with ⟨found, hfound, hpair⟩
  have hsame : found = token := by
    simpa [Handle.token?_column hfollows hnear htoken] using hfound.symm
  have hstart : (⟨own, shared⟩ : RefBuilder).token? remote.name = some token := by
    simp [RefBuilder.token?, hpair, hsame]
  rcases Handle.exists_handle hfollows' hremote with ⟨handle, hhandle', hfollow'⟩
  have hlast : handle.token = token := by
    simpa [hgrows.kept hstart] using hfollow'.token.symm
  simp [Reference.columnTokens, hhandle', hlast]

end Forest

/-! ## Telling relations apart -/

/-- Relations have names of their own, and links do not lead to them. -/
structure Catalog.TellsRelations (catalog : Catalog) : Prop where
  names : ∀ table ∈ catalog.tables, table.columns.Pairwise fun column other =>
    column.relation.isSome ∨ other.relation.isSome → column.name ≠ other.name
  links : ∀ table ∈ catalog.tables, ∀ column ∈ table.columns, ∀ relation ∈ column.relation,
    ∀ link ∈ relation.links, ∀ remote ∈ (catalog.table relation.target).columns,
      remote.relation.isSome → link.1 ≠ remote.name

/-- A column belongs to a table of the catalog. -/
theorem Catalog.table_mem {catalog : Catalog} {place : Nat} {column : Column}
    (h : column ∈ (catalog.table place).columns) : catalog.table place ∈ catalog.tables := by
  unfold table at h ⊢
  by_cases hplace : place < catalog.tables.length
  · simp [hplace]
  · simp [hplace] at h

/-- Two columns of a list are one, or stand in a relation that all pairs stand in. -/
theorem Column.eq_or_of_pairwise {columns : List Column} {apart : Column → Column → Prop}
    (h : columns.Pairwise apart) (hsymm : ∀ column other, apart column other → apart other column)
    {index place : Nat} {column other : Column} (hcolumn : columns[index]? = some column)
    (hother : columns[place]? = some other) : index = place ∨ apart column other := by
  rw [List.pairwise_iff_getElem] at h
  rcases List.getElem?_eq_some_iff.1 hcolumn with ⟨hindex, rfl⟩
  rcases List.getElem?_eq_some_iff.1 hother with ⟨hplace, rfl⟩
  rcases Nat.lt_trichotomy index place with hless | heq | hgreater
  · exact .inr (h index place hindex hplace hless)
  · exact .inl heq
  · exact .inr (hsymm _ _ (h place index hplace hindex hgreater))

theorem Catalog.TellsRelations.eq_of_name {catalog : Catalog} (h : catalog.TellsRelations)
    {table index place : Nat} {column other : Column}
    (hcolumn : (catalog.table table).columns[index]? = some column)
    (hother : (catalog.table table).columns[place]? = some other)
    (hrelation : column.relation.isSome) (hname : column.name = other.name) : index = place := by
  have hnames := h.names _ (catalog.table_mem (List.mem_of_getElem? hcolumn))
  rcases Column.eq_or_of_pairwise hnames (fun _ _ hapart hsome => (hapart hsome.symm).symm) hcolumn
    hother with heq | hapart
  · exact heq
  · exact absurd hname (hapart (.inl hrelation))

namespace Reference

variable {catalog : Catalog} {forest : Forest} {reference : Reference} {start : RefBuilder}
  {n m : TokenSupply}

/-- The tokens that a reference starts with are none of a relation. -/
theorem Origin.token?_relation (h : reference.Origin forest start) (horderly : forest.Orderly catalog)
    (hcatalog : catalog.TellsRelations) {column : Column}
    (hcolumn : column ∈ (catalog.table reference.table).columns) (hrelation : column.relation.isSome) :
    start.token? column.name = none := by
  cases h with
  | planted hplace => rfl
  | @entered parent index token shared hparent hhandle hplace =>
      rcases horderly.origin parent hparent with ⟨-, -, -, -, ⟨-, final, -, hfollows⟩, -⟩
      rcases Handle.exists_column hfollows hhandle with ⟨near, hnear, hfollow⟩
      rcases hfollow.relation_eq with ⟨relation, hleads, htarget, -, hshared⟩
      rw [← htarget] at hcolumn
      have hunlinked : ∀ link ∈ relation.links, link.1 ≠ column.name := fun link hlink =>
        hcatalog.links _ (catalog.table_mem (List.mem_of_getElem? hnear)) near
          (List.mem_of_getElem? hnear) relation hleads link hlink column hcolumn hrelation
      simp [RefBuilder.token?, RefBuilder.find?_shared_none hshared hunlinked]

theorem Leads.exists_column {final : RefBuilder} {index : Nat} {token : Token}
    (h : reference.Leads index token)
    (hfollows : List.Forall₂ (fun column handle => handle.Follows final column)
      (catalog.table reference.table).columns reference.handles) :
    ∃ column, (catalog.table reference.table).columns[index]? = some column ∧
      column.relation.isSome ∧ final.token? column.name = some token := by
  rcases h with ⟨shared, target, hhandle⟩
  rcases Handle.exists_column hfollows hhandle with ⟨column, hcolumn, hfollow⟩
  rcases hfollow.relation_eq with ⟨relation, hrelation, -, htoken, -⟩
  exact ⟨column, hcolumn, by simp [hrelation], htoken⟩

/-- The tokens of relations are fresh, and each is that of one column. -/
theorem Written.leads (h : reference.Written catalog start n m)
    (hstart : ∀ column ∈ (catalog.table reference.table).columns, column.relation.isSome →
      start.token? column.name = none) {index : Nat} {token : Token}
    (hleads : reference.Leads index token) : n ≤ token.number ∧ token.number < m := by
  rcases h.handles with ⟨final, hgrows, hfollows⟩
  rcases hleads.exists_column hfollows with ⟨column, hcolumn, hrelation, htoken⟩
  exact hgrows.fresh (hstart column (List.mem_of_getElem? hcolumn) hrelation) htoken

theorem Written.leads_unique (h : reference.Written catalog start n m)
    (hstart : ∀ column ∈ (catalog.table reference.table).columns, column.relation.isSome →
      start.token? column.name = none) (hcatalog : catalog.TellsRelations) {index other : Nat}
    {token : Token} (hleads : reference.Leads index token) (hother : reference.Leads other token) :
    index = other := by
  rcases h.handles with ⟨final, hgrows, hfollows⟩
  rcases hleads.exists_column hfollows with ⟨column, hcolumn, hrelation, htoken⟩
  rcases hother.exists_column hfollows with ⟨second, hsecond, hrelation', htoken'⟩
  have hname : column.name = second.name :=
    hgrows.apart (hstart column (List.mem_of_getElem? hcolumn) hrelation)
      (hstart second (List.mem_of_getElem? hsecond) hrelation') htoken htoken'
  exact hcatalog.eq_of_name hcolumn hsecond hrelation hname

end Reference

namespace Forest

variable {catalog : Catalog} {forest next : Forest} {reference : Reference}

/-- Relations are told apart by their tokens, and from planted references. -/
structure Told (forest : Forest) : Prop where
  below : ∀ reference ∈ forest.built, ∀ index token, reference.Leads index token →
    token.number < forest.supply
  unique : ∀ reference ∈ forest.built, ∀ other ∈ forest.built, ∀ index index' token,
    reference.Leads index token → other.Leads index' token → reference = other ∧ index = index'
  planted : ∀ reference ∈ forest.built, reference.place.steps = [] →
    reference.own.number < forest.supply ∧
      ∀ other ∈ forest.built, ∀ index, ¬ other.Leads index reference.own

theorem Told.add {start : RefBuilder} {n : TokenSupply} (h : forest.Told)
    (hadds : Adds catalog forest reference start n next) (horderly : next.Orderly catalog)
    (hcatalog : catalog.TellsRelations)
    (hown : reference.place.steps = [] → forest.supply ≤ reference.own.number ∧
      reference.own.number < n) : next.Told := by
  have hstart : ∀ column ∈ (catalog.table reference.table).columns, column.relation.isSome →
      start.token? column.name = none := fun column hcolumn hrelation =>
    hadds.origin.token?_relation horderly hcatalog hcolumn hrelation
  have hfresh : ∀ {index token}, reference.Leads index token →
      n ≤ token.number ∧ token.number < next.supply := fun hleads => hadds.written.leads hstart hleads
  have hnext : forest.supply ≤ next.supply := Nat.le_trans hadds.supply hadds.supply_le
  -- a relation of the new reference has a token that is too new for the others
  have hnew : ∀ known ∈ forest.built, ∀ {index index' token}, known.Leads index token →
      ¬ reference.Leads index' token := by
    intro known hknown index index' token hleads hleads'
    have hold := h.below known hknown index token hleads
    have hyoung := Nat.le_trans hadds.supply (hfresh hleads').1
    exact Nat.not_lt.2 hyoung hold
  refine ⟨?_, ?_, ?_⟩
  · intro known hknown index token hleads
    rcases hadds.mem.1 hknown with hknown | rfl
    · exact Nat.lt_of_lt_of_le (h.below known hknown index token hleads) hnext
    · exact (hfresh hleads).2
  · intro first hfirst second hsecond index index' token hleads hleads'
    rcases hadds.mem.1 hfirst with hfirst | rfl
    · rcases hadds.mem.1 hsecond with hsecond | rfl
      · exact h.unique first hfirst second hsecond index index' token hleads hleads'
      · exact absurd hleads' (hnew first hfirst hleads)
    · rcases hadds.mem.1 hsecond with hsecond | rfl
      · exact absurd hleads (hnew second hsecond hleads')
      · exact ⟨rfl, hadds.written.leads_unique hstart hcatalog hleads hleads'⟩
  · intro known hknown hplanted
    rcases hadds.mem.1 hknown with hknown | rfl
    · rcases h.planted known hknown hplanted with ⟨hbelow, hnone⟩
      refine ⟨Nat.lt_of_lt_of_le hbelow hnext, fun other hother index hleads => ?_⟩
      rcases hadds.mem.1 hother with hother | rfl
      · exact hnone other hother index hleads
      · have hyoung := Nat.le_trans hadds.supply (hfresh hleads).1
        exact Nat.not_lt.2 hyoung hbelow
    · rcases hown hplanted with ⟨hleast, hless⟩
      refine ⟨Nat.lt_of_lt_of_le hless hadds.supply_le, fun other hother index hleads => ?_⟩
      rcases hadds.mem.1 hother with hother | rfl
      · exact Nat.not_lt.2 hleast (h.below other hother index _ hleads)
      · exact Nat.not_lt.2 (hfresh hleads).1 hless

theorem Grown.told (h : forest.Grown catalog) (hcatalog : catalog.TellsRelations) :
    forest.Told := by
  induction h with
  | empty => exact ⟨by simp, by simp, by simp⟩
  | issue _ hsupply ih =>
      refine ⟨?_, ih.unique, ?_⟩
      · intro reference hmem index token hleads
        exact Nat.lt_of_lt_of_le (ih.below reference hmem index token hleads) hsupply
      · intro reference hmem hplanted
        rcases ih.planted reference hmem hplanted with ⟨hbelow, hnone⟩
        exact ⟨Nat.lt_of_lt_of_le hbelow hsupply, hnone⟩
  | @plant forest hgrown table ih =>
      have hadds := hgrown.orderly.adds_plant table
      refine ih.add hadds (hgrown.orderly.add hadds) hcatalog fun _ => ?_
      exact ⟨Nat.le_refl _, Nat.lt_succ_self _⟩
  | @enter forest reference column target token shared hgrown hreference hhandle ih =>
      rcases hgrown.orderly.enter_cases hreference hhandle with ⟨hplace, ⟨-, hsame⟩ | hadds⟩
      · rw [hsame]
        exact ih
      · refine ih.add hadds (hgrown.orderly.add hadds) hcatalog fun hplanted => ?_
        simp [hplace, Place.under] at hplanted

/-- A reference whose own token is that of a relation hangs off that relation. -/
theorem Grown.place_of_own (h : forest.Grown catalog) (hcatalog : catalog.TellsRelations)
    {far : Reference} (hreference : reference ∈ forest.built) (hfar : far ∈ forest.built)
    {column : Nat} (hleads : reference.Leads column far.own) :
    far.place = reference.place.under column := by
  have htold := h.told hcatalog
  rcases h.orderly.origin far hfar with ⟨start, n, m, -, hwritten, horigin⟩
  cases horigin with
  | planted hplanted =>
      exact absurd hleads ((htold.planted far hfar hplanted).2 reference hreference column)
  | @entered parent column' token shared hparent hhandle hplace =>
      have hown : far.own = token := hwritten.own
      have hleads' : parent.Leads column' far.own := ⟨shared, far.table, by rw [hown]; exact hhandle⟩
      rcases htold.unique reference hreference parent hparent column column' far.own hleads hleads'
        with ⟨rfl, rfl⟩
      exact hplace

end Forest

end FieldQuery
