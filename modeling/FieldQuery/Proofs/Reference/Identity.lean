import FieldQuery.Proofs.Reference.Forest

/-!
# Which handles are one field

A column behind a relation that is the far end of a link has the token of the near end, and the near
end may be the far end of another link in its turn.  Going back as far as that leads gives a path its
canonical form.  Every other name is given a token of its own by the reference that it belongs to; so
two handles have one token just if they start at one reference and their paths have one canonical
form, in whatever order the references in between were built.

Main definitions:

- `Trail.canonical`, `Catalog.canonical?`: the canonical form of a path.
- `Reference.Knows`: the tokens that a reference knows names by; `Forest.Issues`: those that it does
  not share.
- `Forest.GrowsInto`: how a forest goes on.

Main statements: `Forest.Along.token_eq_iff` and `Forest.Grown.same_token_iff`.
-/

namespace FieldQuery

/-! ## Canonical forms -/

/-- The relations that lead from a planted reference to another one, each with the place of its
column, the last one first. -/
abbrev Trail := List (Nat × Relation)

/-- A field, by the columns of the relations that lead to its reference and the name of its column. -/
structure FieldPath where
  steps : List Nat
  column : String
  deriving DecidableEq, Repr

namespace Trail

/-- The columns of the relations, the first one first. -/
def steps (trail : Trail) : List Nat :=
  (trail.map (·.1)).reverse

/-- The field that a column's name at the end of a trail stands for: of a link's two columns it is the
near one. -/
def canonical : Trail → String → FieldPath
  | [], name => ⟨[], name⟩
  | (column, relation) :: outer, name =>
    match relation.links.find? (·.1 == name) with
    | some link => canonical outer link.2
    | none => ⟨steps ((column, relation) :: outer), name⟩

end Trail

namespace Catalog

/-- The first column of a field's name, with its place. -/
def columnOf? (catalog : Catalog) (table : Nat) (field : String) : Option (Nat × Column) := do
  let index ← (catalog.table table).columns.findIdx? (·.field == field)
  return (index, ← (catalog.table table).columns[index]?)

/-- Follows field names on from a table at the end of a trail: the relations, and the name of the
column at the end. -/
def trail? (catalog : Catalog) : List String → Nat → Trail → Option (Trail × String)
  | [], _, _ => none
  | [field], table, trail =>
    (catalog.columnOf? table field).map fun (_, column) => (trail, column.name)
  | field :: next :: rest, table, trail =>
    match catalog.columnOf? table field with
    | some (index, column) =>
      match column.relation with
      | some relation => trail? catalog (next :: rest) relation.target ((index, relation) :: trail)
      | none => none
    | none => none

/-- The canonical form of a path of field names. -/
def canonical? (catalog : Catalog) (table : Nat) (path : List String) : Option FieldPath :=
  (catalog.trail? path table []).map fun (trail, name) => Trail.canonical trail name

theorem columnOf?_eq_some {catalog : Catalog} {table index : Nat} {field : String}
    {column : Column} : catalog.columnOf? table field = some (index, column) ↔
      (catalog.table table).columns.findIdx? (·.field == field) = some index ∧
        (catalog.table table).columns[index]? = some column := by
  simp [columnOf?, Option.bind_eq_some_iff]

end Catalog

/-! ## What a reference knows -/

namespace Reference

/-- The reference knows a name by a token: it is the name of a column, or of the near end of a link,
which need not be a column. -/
inductive Knows (catalog : Catalog) (reference : Reference) : String → Token → Prop
  | column {index : Nat} {column : Column} {handle : Handle}
      (hcolumn : (catalog.table reference.table).columns[index]? = some column)
      (hhandle : reference.handles[index]? = some handle) :
      Knows catalog reference column.name handle.token
  | link {index target : Nat} {column : Column} {relation : Relation} {token : Token}
      {shared : List (String × Token)} {link : String × String} {pair : String × Token}
      (hcolumn : (catalog.table reference.table).columns[index]? = some column)
      (hrelation : column.relation = some relation)
      (hhandle : reference.handles[index]? = some (.relation token shared target))
      (hpair : (link, pair) ∈ relation.links.zip shared) :
      Knows catalog reference link.2 pair.2

variable {catalog : Catalog} {reference : Reference} {start : RefBuilder} {n m : TokenSupply}
  {name other : String} {token token' : Token}

/-- The tokens that a reference knows names by are those that its last builder has issued. -/
theorem Written.exists_builder (h : reference.Written catalog start n m) :
    ∃ final, start.Grows n final m ∧ ∀ {name token}, reference.Knows catalog name token →
      final.token? name = some token := by
  rcases h.handles with ⟨final, hgrows, hfollows⟩
  refine ⟨final, hgrows, fun hknows => ?_⟩
  cases hknows with
  | column hcolumn hhandle =>
      rcases Handle.exists_handle hfollows hcolumn with ⟨handle, hsame, hfollow⟩
      cases hhandle.symm.trans hsame
      exact hfollow.token
  | link hcolumn hrelation hhandle hpair =>
      rcases Handle.exists_handle hfollows hcolumn with ⟨handle, hsame, hfollow⟩
      rcases hfollow.eq_relation hrelation with ⟨own, shared, rfl, hshared⟩
      cases hhandle.symm.trans hsame
      exact ((List.forall₂_iff_zip.1 hshared).2 hpair).2

theorem Written.knows_unique (h : reference.Written catalog start n m)
    (hknows : reference.Knows catalog name token) (hother : reference.Knows catalog name token') :
    token = token' := by
  rcases h.exists_builder with ⟨final, -, hfinal⟩
  exact Option.some.inj ((hfinal hknows).symm.trans (hfinal hother))

/-- A token that a reference starts with is kept. -/
theorem Written.knows_inherited (h : reference.Written catalog start n m)
    (hstart : start.token? name = some token') (hknows : reference.Knows catalog name token) :
    token = token' := by
  rcases h.exists_builder with ⟨final, hgrows, hfinal⟩
  exact Option.some.inj ((hfinal hknows).symm.trans (hgrows.kept hstart))

theorem Written.knows_fresh (h : reference.Written catalog start n m)
    (hstart : start.token? name = none) (hknows : reference.Knows catalog name token) :
    n ≤ token.number ∧ token.number < m := by
  rcases h.exists_builder with ⟨final, hgrows, hfinal⟩
  exact hgrows.fresh hstart (hfinal hknows)

theorem Written.name_unique (h : reference.Written catalog start n m)
    (hstart : start.token? name = none) (hstart' : start.token? other = none)
    (hknows : reference.Knows catalog name token) (hother : reference.Knows catalog other token) :
    name = other := by
  rcases h.exists_builder with ⟨final, hgrows, hfinal⟩
  exact hgrows.apart hstart hstart' (hfinal hknows) (hfinal hother)

end Reference

namespace Forest

variable {catalog : Catalog} {forest next : Forest} {reference far : Reference}
  {name other : String} {token token' : Token}

/-- The links of a relation and the tokens that its handle shares go together: each far column is
known by the token of the near one. -/
theorem Orderly.shared_links (h : forest.Orderly catalog) (hreference : reference ∈ forest.built)
    {index target : Nat} {column : Column} {relation : Relation} {shared : List (String × Token)}
    (hcolumn : (catalog.table reference.table).columns[index]? = some column)
    (hrelation : column.relation = some relation)
    (hhandle : reference.handles[index]? = some (.relation token shared target)) :
    List.Forall₂ (fun link pair => pair.1 = link.1 ∧ reference.Knows catalog link.2 pair.2)
      relation.links shared := by
  rcases h.origin reference hreference with ⟨-, -, -, -, ⟨-, final, -, hfollows⟩, -⟩
  rcases Handle.exists_handle hfollows hcolumn with ⟨handle, hsame, hfollow⟩
  rcases hfollow.eq_relation hrelation with ⟨own, shared', rfl, hshared⟩
  cases hhandle.symm.trans hsame
  rcases List.forall₂_iff_zip.1 hshared with ⟨hlength, hshares⟩
  exact List.forall₂_iff_zip.2 ⟨hlength, fun hpair =>
    ⟨(hshares hpair).1, .link hcolumn hrelation hhandle hpair⟩⟩

/-- What a relation shares under a name, it shares for the first link of that name. -/
theorem token?_shared (own : Token) {links : List (String × String)}
    {shared : List (String × Token)}
    (h : List.Forall₂ (fun link pair => pair.1 = link.1 ∧ reference.Knows catalog link.2 pair.2)
      links shared) (name : String) :
    match links.find? (·.1 == name) with
    | some link => ∃ token, (⟨own, shared⟩ : RefBuilder).token? name = some token ∧
        reference.Knows catalog link.2 token
    | none => (⟨own, shared⟩ : RefBuilder).token? name = none := by
  unfold RefBuilder.token?
  induction h with
  | nil => rfl
  | @cons link pair links shared hpair hrest ih =>
      rcases hpair with ⟨hname, hknows⟩
      rw [List.find?_cons, List.find?_cons, hname]
      cases link.1 == name with
      | true => exact ⟨pair.2, rfl, hknows⟩
      | false => exact ih

/-! ## Tokens of its own -/

/-- The token of a name that a reference starts with was known to the one that it hangs off. -/
theorem Orderly.knows_start (h : forest.Orderly catalog) {start : RefBuilder}
    (horigin : reference.Origin forest start) (htoken : start.token? name = some token) :
    ∃ parent ∈ forest.built, ∃ near column, parent.Knows catalog near token ∧
      reference.place = parent.place.under column := by
  cases horigin with
  | planted hplace => cases htoken
  | @entered parent column own shared hparent hhandle hplace =>
      rcases h.origin parent hparent with ⟨-, -, -, -, ⟨-, final, -, hfollows⟩, -⟩
      rcases Handle.exists_column hfollows hhandle with ⟨near, hnear, hfollow⟩
      rcases hfollow.relation_eq with ⟨relation, hrelation, -, -, -⟩
      have hshared := token?_shared own
        (h.shared_links hparent hnear hrelation hhandle) name
      split at hshared
      · rename_i link _
        rcases hshared with ⟨found, hfound, hknows⟩
        cases hfound.symm.trans htoken
        exact ⟨parent, hparent, link.2, column, hknows, hplace⟩
      · cases hshared.symm.trans htoken

/-- What a reference starts with is told by its place. -/
theorem Orderly.token?_origin (h : forest.Orderly catalog) {start start' : RefBuilder}
    (hstart : reference.Origin forest start) (hstart' : reference.Origin forest start')
    (name : String) : start.token? name = start'.token? name := by
  cases hstart with
  | planted hplace =>
      cases hstart' with
      | planted _ => rfl
      | entered _ _ hplace' => simp [hplace', Place.under] at hplace
  | @entered parent column own shared hparent hhandle hplace =>
      cases hstart' with
      | planted hplace' => simp [hplace, Place.under] at hplace'
      | @entered parent' column' own' shared' hparent' hhandle' hplace' =>
          rcases Place.under_inj (hplace.symm.trans hplace') with ⟨hsame, rfl⟩
          cases h.places parent hparent parent' hparent' hsame
          cases hhandle.symm.trans hhandle'
          rfl

/-- The reference gives a name a token of its own, rather than sharing one. -/
def Issues (catalog : Catalog) (forest : Forest) (reference : Reference) (name : String)
    (token : Token) : Prop :=
  ∃ start, reference.Origin forest start ∧ start.token? name = none ∧
    reference.Knows catalog name token

/-- Tokens are told apart by the reference that has issued them, and the name. -/
structure Numbered (catalog : Catalog) (forest : Forest) : Prop where
  below : ∀ reference ∈ forest.built, ∀ {name token}, reference.Knows catalog name token →
    token.number < forest.supply
  unique : ∀ reference ∈ forest.built, ∀ far ∈ forest.built, ∀ {name other token},
    forest.Issues catalog reference name token → forest.Issues catalog far other token →
      reference = far ∧ name = other

theorem Numbered.add {start : RefBuilder} {n : TokenSupply} (h : forest.Numbered catalog)
    (horderly : forest.Orderly catalog) (hadds : Adds catalog forest reference start n next) :
    next.Numbered catalog := by
  have hnext := horderly.add hadds
  have hsupply : forest.supply ≤ next.supply := Nat.le_trans hadds.supply hadds.supply_le
  -- a reference of before has issued what it had issued before
  have hold : ∀ known ∈ forest.built, ∀ {name token}, next.Issues catalog known name token →
      forest.Issues catalog known name token := by
    rintro known hknown name token ⟨other, hother, hnone, hknows⟩
    rcases horderly.origin known hknown with ⟨first, -, -, -, -, hfirst⟩
    have hmono : known.Origin next first := hfirst.mono fun _ hmem => hadds.mem.2 (.inl hmem)
    exact ⟨first, hfirst, (hnext.token?_origin hmono hother name).trans hnone, hknows⟩
  -- the new one issues what is too new for the others
  have hfresh : ∀ {name token}, next.Issues catalog reference name token →
      start.token? name = none ∧ forest.supply ≤ token.number ∧ token.number < next.supply := by
    rintro name token ⟨other, hother, hnone, hknows⟩
    have hstart : start.token? name = none :=
      (hnext.token?_origin hadds.origin hother name).trans hnone
    have hbounds := hadds.written.knows_fresh hstart hknows
    exact ⟨hstart, Nat.le_trans hadds.supply hbounds.1, hbounds.2⟩
  have hnew : ∀ known ∈ forest.built, ∀ {name other token},
      next.Issues catalog known name token → ¬ next.Issues catalog reference other token := by
    intro known hknown name other token hissues hissues'
    rcases hissues with ⟨-, -, -, hknows⟩
    exact Nat.not_lt.2 (hfresh hissues').2.1 (h.below known hknown hknows)
  refine ⟨?_, ?_⟩
  · intro known hknown name token hknows
    rcases hadds.mem.1 hknown with hknown | rfl
    · exact Nat.lt_of_lt_of_le (h.below known hknown hknows) hsupply
    · cases hstart : start.token? name with
      | none => exact (hadds.written.knows_fresh hstart hknows).2
      | some first =>
          have hsame := hadds.written.knows_inherited hstart hknows
          rcases hnext.knows_start hadds.origin hstart with
            ⟨parent, hparent, near, column, hnear, hplace⟩
          rcases hadds.mem.1 hparent with hparent | rfl
          · rw [hsame]
            exact Nat.lt_of_lt_of_le (h.below parent hparent hnear) hsupply
          · -- nothing hangs off itself
            have hlength := congrArg (fun place : Place => place.steps.length) hplace
            simp [Place.under] at hlength
  · intro first hfirst second hsecond name other token hissues hissues'
    rcases hadds.mem.1 hfirst with hfirst | rfl
    · rcases hadds.mem.1 hsecond with hsecond | rfl
      · exact h.unique first hfirst second hsecond (hold first hfirst hissues)
          (hold second hsecond hissues')
      · exact absurd hissues' (hnew first hfirst hissues)
    · rcases hadds.mem.1 hsecond with hsecond | rfl
      · exact absurd hissues (hnew second hsecond hissues')
      · have hstart := (hfresh hissues).1
        have hstart' := (hfresh hissues').1
        rcases hissues with ⟨-, -, -, hknows⟩
        rcases hissues' with ⟨-, -, -, hknows'⟩
        exact ⟨rfl, hadds.written.name_unique hstart hstart' hknows hknows'⟩

theorem Grown.numbered (h : forest.Grown catalog) : forest.Numbered catalog := by
  induction h with
  | empty => exact ⟨by simp, by simp⟩
  | @issue forest supply _ hsupply ih =>
      -- whether a token is issued does not depend on the supply
      have hissues : ∀ {reference name token},
          Issues catalog { forest with supply := supply } reference name token →
            forest.Issues catalog reference name token := by
        rintro reference name token ⟨start, horigin, hnone, hknows⟩
        exact ⟨start, horigin.mono (List.Subset.refl _), hnone, hknows⟩
      refine ⟨fun reference hmem name token hknows => ?_, fun first hfirst second hsecond => ?_⟩
      · exact Nat.lt_of_lt_of_le (ih.below reference hmem hknows) hsupply
      · intro name other token hissues₁ hissues₂
        exact ih.unique first hfirst second hsecond (hissues hissues₁) (hissues hissues₂)
  | plant hgrown table ih =>
      exact ih.add hgrown.orderly (hgrown.orderly.adds_plant table)
  | enter hgrown hreference hhandle ih =>
      rcases (hgrown.orderly.enter_cases hreference hhandle).2 with ⟨-, hsame⟩ | hadds
      · rw [hsame]
        exact ih
      · exact ih.add hgrown.orderly hadds

/-! ## Along trails -/

/-- The relations of a trail lead to the reference. -/
inductive Along (catalog : Catalog) (forest : Forest) : Reference → Trail → Prop
  | planted {reference : Reference} (hmem : reference ∈ forest.built)
      (hplace : reference.place.steps = []) : Along catalog forest reference []
  | entered {parent reference : Reference} {trail : Trail} {index : Nat} {column : Column}
      {relation : Relation} (h : Along catalog forest parent trail)
      (hmem : reference ∈ forest.built)
      (hcolumn : (catalog.table parent.table).columns[index]? = some column)
      (hrelation : column.relation = some relation)
      (hplace : reference.place = parent.place.under index) :
      Along catalog forest reference ((index, relation) :: trail)

namespace Along

variable {trail trail' : Trail}

theorem mem (h : forest.Along catalog reference trail) : reference ∈ forest.built := by
  cases h <;> assumption

theorem steps_eq (h : forest.Along catalog reference trail) :
    reference.place.steps = Trail.steps trail := by
  induction h with
  | planted hmem hplace => exact hplace
  | @entered parent reference trail index column relation h hmem hcolumn hrelation hplace ih =>
      have hsteps : reference.place.steps = parent.place.steps ++ [index] :=
        congrArg Place.steps hplace
      simp [hsteps, ih, Trail.steps]

/-- What the forest builds besides does not matter. -/
theorem mono (h : forest.Along catalog reference trail) (hbuilt : forest.built ⊆ next.built) :
    next.Along catalog reference trail := by
  induction h with
  | planted hmem hplace => exact .planted (hbuilt hmem) hplace
  | entered _ hmem hcolumn hrelation hplace ih =>
      exact .entered ih (hbuilt hmem) hcolumn hrelation hplace

/-- The token that a name is known by has been issued for its canonical form. -/
theorem exists_issuer (h : forest.Along catalog reference trail) (horderly : forest.Orderly catalog)
    (hknows : reference.Knows catalog name token) :
    ∃ issuer ∈ forest.built,
      issuer.place = ⟨reference.place.root, (Trail.canonical trail name).steps⟩ ∧
        forest.Issues catalog issuer (Trail.canonical trail name).column token := by
  induction h generalizing name with
  | @planted reference hmem hplace =>
      refine ⟨reference, hmem, congrArg (Place.mk _) hplace, ?_⟩
      exact ⟨⟨reference.own, []⟩, .planted hplace, rfl, hknows⟩
  | @entered parent reference trail index column relation h hmem hcolumn hrelation hplace ih =>
      have hsteps := (Along.entered h hmem hcolumn hrelation hplace).steps_eq
      have hroot : reference.place.root = parent.place.root := by rw [hplace, Place.under]
      rcases horderly.linked h.mem hmem hcolumn hrelation hplace with
        ⟨htable, ⟨shared, target, hhandle⟩, -⟩
      have hlinks := horderly.shared_links h.mem hcolumn hrelation hhandle
      rcases horderly.written_under h.mem hmem hhandle hplace with ⟨htarget, n, m, hwritten⟩
      have hshared := token?_shared reference.own hlinks name
      rw [Trail.canonical]
      cases hlink : relation.links.find? (·.1 == name) with
      | some link =>
          -- the token comes from the near end of the link
          rw [hlink] at hshared
          rcases hshared with ⟨found, hfound, hnear⟩
          rw [← hwritten.knows_inherited hfound hknows] at hnear
          rw [hroot]
          exact ih hnear
      | none =>
          rw [hlink] at hshared
          refine ⟨reference, hmem, congrArg (Place.mk _) hsteps, ?_⟩
          refine ⟨⟨reference.own, shared⟩, .entered h.mem ?_ hplace, hshared, hknows⟩
          rw [htarget]
          exact hhandle

/-- Two names are known by one token just if they stand under one root and have one canonical
form. -/
theorem token_eq_iff (h : forest.Along catalog reference trail)
    (hfar : forest.Along catalog far trail') (hgrown : forest.Grown catalog)
    (hknows : reference.Knows catalog name token) (hother : far.Knows catalog other token') :
    token = token' ↔ reference.place.root = far.place.root ∧
      Trail.canonical trail name = Trail.canonical trail' other := by
  have horderly := hgrown.orderly
  rcases h.exists_issuer horderly hknows with ⟨issuer, hmem, hplace, hissues⟩
  rcases hfar.exists_issuer horderly hother with ⟨issuer', hmem', hplace', hissues'⟩
  constructor
  · rintro rfl
    rcases hgrown.numbered.unique issuer hmem issuer' hmem' hissues hissues' with ⟨rfl, hcolumn⟩
    have hsame := hplace.symm.trans hplace'
    simp only [Place.mk.injEq] at hsame
    refine ⟨hsame.1, ?_⟩
    cases hform : Trail.canonical trail name
    cases hform' : Trail.canonical trail' other
    rw [hform, hform'] at hcolumn hsame
    exact congrArg₂ FieldPath.mk hsame.2 hcolumn
  · rintro ⟨hroot, hform⟩
    have hsame : issuer.place = issuer'.place := by rw [hplace, hplace', hroot, hform]
    cases horderly.places issuer hmem issuer' hmem' hsame
    rw [← hform] at hissues'
    rcases horderly.origin issuer hmem with ⟨start, n, m, -, hwritten, -⟩
    rcases hissues with ⟨-, -, -, hknown⟩
    rcases hissues' with ⟨-, -, -, hknown'⟩
    exact hwritten.knows_unique hknown hknown'

end Along

/-! ## Following paths -/

/-- How a forest goes on: tokens are taken, references are planted, relations are entered. -/
inductive GrowsInto (catalog : Catalog) (forest : Forest) : Forest → Prop
  | refl : GrowsInto catalog forest forest
  | issue {next : Forest} {supply : TokenSupply} (h : GrowsInto catalog forest next)
      (hsupply : next.supply ≤ supply) : GrowsInto catalog forest { next with supply := supply }
  | plant {next : Forest} (h : GrowsInto catalog forest next) (table : Nat) :
      GrowsInto catalog forest (next.plant catalog table).2
  | enter {next : Forest} {reference : Reference} {column target : Nat} {token : Token}
      {shared : List (String × Token)} (h : GrowsInto catalog forest next)
      (hreference : reference ∈ next.built)
      (hhandle : reference.handles[column]? = some (.relation token shared target)) :
      GrowsInto catalog forest (next.enter catalog reference column token shared target).2

namespace GrowsInto

theorem trans {last : Forest} (h : forest.GrowsInto catalog next)
    (h' : next.GrowsInto catalog last) : forest.GrowsInto catalog last := by
  induction h' with
  | refl => exact h
  | issue _ hsupply ih => exact .issue ih hsupply
  | plant _ table ih => exact .plant ih table
  | enter _ hreference hhandle ih => exact .enter ih hreference hhandle

theorem grown (h : forest.GrowsInto catalog next) (hgrown : forest.Grown catalog) :
    next.Grown catalog := by
  induction h with
  | refl => exact hgrown
  | issue _ hsupply ih => exact .issue ih hsupply
  | plant _ table ih => exact .plant ih table
  | enter _ hreference hhandle ih => exact .enter ih hreference hhandle

/-- What is built stays. -/
theorem built (h : forest.GrowsInto catalog next) (hgrown : forest.Grown catalog) :
    forest.built ⊆ next.built := by
  induction h with
  | refl => exact List.Subset.refl _
  | issue _ _ ih => exact ih
  | plant _ _ ih => exact fun _ hmem => List.mem_append_left _ (ih hmem)
  | enter h hreference hhandle ih =>
      intro known hmem
      rcases ((h.grown hgrown).orderly.enter_cases hreference hhandle).2 with ⟨-, hsame⟩ | hadds
      · rw [hsame]
        exact ih hmem
      · exact hadds.mem.2 (.inl (ih hmem))

end GrowsInto

/-- The handle that a field's name stands for is that of the name's first column. -/
theorem Orderly.column?_eq_some (h : forest.Orderly catalog) (hmem : reference ∈ forest.built)
    {field : String} {index : Nat} {column : Column} :
    catalog.columnOf? reference.table field = some (index, column) ↔ ∃ handle,
      column? catalog reference field = some (index, handle) ∧
        (catalog.table reference.table).columns[index]? = some column ∧
        reference.handles[index]? = some handle := by
  rcases h.origin reference hmem with ⟨-, -, -, -, ⟨-, final, -, hfollows⟩, -⟩
  rw [Catalog.columnOf?_eq_some]
  constructor
  · rintro ⟨hindex, hcolumn⟩
    rcases Handle.exists_handle hfollows hcolumn with ⟨handle, hhandle, -⟩
    exact ⟨handle, by simp [column?, hindex, hhandle], hcolumn, hhandle⟩
  · rintro ⟨handle, hfound, hcolumn, hhandle⟩
    refine ⟨?_, hcolumn⟩
    simp only [column?, bind, Option.bind_eq_some_iff, pure, Option.some.injEq,
      Prod.mk.injEq] at hfound
    rcases hfound with ⟨found, hindex, -, -, rfl, -⟩
    exact hindex

theorem Orderly.exists_columnOf? (h : forest.Orderly catalog) (hmem : reference ∈ forest.built)
    {field : String} {index : Nat} {handle : Handle}
    (hfound : column? catalog reference field = some (index, handle)) :
    ∃ column, catalog.columnOf? reference.table field = some (index, column) ∧
      (catalog.table reference.table).columns[index]? = some column ∧
      reference.handles[index]? = some handle := by
  rcases h.origin reference hmem with ⟨-, -, -, -, ⟨-, final, -, hfollows⟩, -⟩
  have hhandle : reference.handles[index]? = some handle := by
    simp only [column?, bind, Option.bind_eq_some_iff, pure, Option.some.injEq,
      Prod.mk.injEq] at hfound
    rcases hfound with ⟨found, -, own, hhandle, rfl, rfl⟩
    exact hhandle
  rcases Handle.exists_column hfollows hhandle with ⟨column, hcolumn, -⟩
  exact ⟨column, (h.column?_eq_some hmem).2 ⟨handle, hfound, hcolumn, hhandle⟩, hcolumn, hhandle⟩

/-- The column of a relation's handle is that relation. -/
theorem Orderly.relation_of_handle (h : forest.Orderly catalog) (hmem : reference ∈ forest.built)
    {index target : Nat} {column : Column} {shared : List (String × Token)}
    (hcolumn : (catalog.table reference.table).columns[index]? = some column)
    (hhandle : reference.handles[index]? = some (.relation token shared target)) :
    ∃ relation, column.relation = some relation ∧ relation.target = target := by
  rcases h.origin reference hmem with ⟨-, -, -, -, ⟨-, final, -, hfollows⟩, -⟩
  rcases Handle.exists_handle hfollows hcolumn with ⟨handle, hsame, hfollow⟩
  cases hhandle.symm.trans hsame
  rcases hfollow.relation_eq with ⟨relation, hrelation, htarget, -⟩
  exact ⟨relation, hrelation, htarget⟩

theorem Orderly.handle_of_relation (h : forest.Orderly catalog) (hmem : reference ∈ forest.built)
    {index : Nat} {column : Column} {relation : Relation} {handle : Handle}
    (hcolumn : (catalog.table reference.table).columns[index]? = some column)
    (hrelation : column.relation = some relation)
    (hhandle : reference.handles[index]? = some handle) :
    ∃ token shared, handle = .relation token shared relation.target := by
  rcases h.origin reference hmem with ⟨-, -, -, -, ⟨-, final, -, hfollows⟩, -⟩
  rcases Handle.exists_handle hfollows hcolumn with ⟨found, hsame, hfollow⟩
  cases hhandle.symm.trans hsame
  rcases hfollow.eq_relation hrelation with ⟨token, shared, hfound, -⟩
  exact ⟨token, shared, hfound⟩

/-- A reference that is built is what its relation leads to from then on. -/
theorem Orderly.enter_built (h : forest.Orderly catalog) (hfar : far ∈ forest.built) {index : Nat}
    (hplace : far.place = reference.place.under index) (token : Token)
    (shared : List (String × Token)) (target : Nat) :
    forest.enter catalog reference index token shared target = (far, forest) := by
  have hfound : forest.built.find? (·.place == reference.place.under index) = some far := by
    cases hfound : forest.built.find? (·.place == reference.place.under index) with
    | none =>
        have hnone := List.find?_eq_none.1 hfound far hfar
        simp [hplace] at hnone
    | some known =>
        have hsame : known.place = reference.place.under index := by
          simpa using List.find?_some hfound
        exact congrArg some
          (h.places known (List.mem_of_find?_eq_some hfound) far hfar (hsame.trans hplace.symm))
  rw [enter_eq, hfound]

/-- What entering a relation comes to. -/
structure Enters (catalog : Catalog) (forest : Forest) (reference : Reference) (index : Nat)
    (relation : Relation) (trail : Trail) (far : Reference) (next : Forest) : Prop where
  grows : forest.GrowsInto catalog next
  along : next.Along catalog far ((index, relation) :: trail)
  place : far.place = reference.place.under index
  table : far.table = relation.target

theorem Along.enter {trail : Trail} (h : forest.Along catalog reference trail)
    (hgrown : forest.Grown catalog) {index : Nat} {column : Column} {relation : Relation}
    {shared : List (String × Token)}
    (hcolumn : (catalog.table reference.table).columns[index]? = some column)
    (hrelation : column.relation = some relation)
    (hhandle : reference.handles[index]? = some (.relation token shared relation.target)) :
    let entered := forest.enter catalog reference index token shared relation.target
    Enters catalog forest reference index relation trail entered.1 entered.2 := by
  intro entered
  have hgrows : forest.GrowsInto catalog entered.2 := .enter .refl h.mem hhandle
  have hbuilt := hgrows.built hgrown
  rcases hgrown.orderly.enter_cases h.mem hhandle with ⟨hplace, hentered⟩
  have hmem : entered.1 ∈ entered.2.built := by
    rcases hentered with ⟨hmem, -⟩ | hadds
    · exact hbuilt hmem
    · exact hadds.mem.2 (.inr rfl)
  have htable := ((hgrows.grown hgrown).orderly.written_under (hbuilt h.mem) hmem hhandle hplace).1
  exact ⟨hgrows, .entered (h.mono hbuilt) hmem hcolumn hrelation hplace, hplace, htable⟩

/-- A path has come to a handle at the end of a trail. -/
structure Lands (catalog : Catalog) (forest next : Forest) (root : Nat) (trail : Trail)
    (name : String) (far : Reference) (handle : Handle) : Prop where
  grows : forest.GrowsInto catalog next
  along : next.Along catalog far trail
  root : far.place.root = root
  knows : far.Knows catalog name handle.token

/-- A path that the catalog has relations and a column for leads to a handle. -/
theorem Along.resolve? : ∀ {path : List String} {forest : Forest} {reference : Reference}
    {trail outer : Trail} {name : String}, forest.Along catalog reference trail →
    forest.Grown catalog → catalog.trail? path reference.table trail = some (outer, name) →
    ∃ far index handle next,
      Forest.resolve? catalog path reference forest = some (.handle far index handle, next) ∧
        Lands catalog forest next reference.place.root outer name far handle
  | [], _, _, _, _, _, _, _, htrail => by cases htrail
  | [field], forest, reference, trail, outer, name, h, hgrown, htrail => by
      rw [Catalog.trail?, Option.map_eq_some_iff] at htrail
      rcases htrail with ⟨⟨index, column⟩, hcolumn, hends⟩
      cases hends
      rcases (hgrown.orderly.column?_eq_some h.mem).1 hcolumn with
        ⟨handle, hfound, hcolumns, hhandle⟩
      refine ⟨reference, index, handle, forest, ?_, ⟨.refl, h, rfl, .column hcolumns hhandle⟩⟩
      rw [Forest.resolve?, hfound]
      rfl
  | field :: second :: rest, forest, reference, trail, outer, name, h, hgrown, htrail => by
      rw [Catalog.trail?] at htrail
      split at htrail
      · rename_i index column hcolumn
        split at htrail
        · rename_i relation hrelation
          rcases (hgrown.orderly.column?_eq_some h.mem).1 hcolumn with
            ⟨handle, hfound, hcolumns, hhandle⟩
          rcases hgrown.orderly.handle_of_relation h.mem hcolumns hrelation hhandle with
            ⟨token, shared, rfl⟩
          have hentered := h.enter hgrown hcolumns hrelation hhandle
          rw [← hentered.table] at htrail
          rcases hentered.along.resolve? (hentered.grows.grown hgrown) htrail with
            ⟨far, last, own, next, hresolve, hlands⟩
          refine ⟨far, last, own, next, ?_, ⟨hentered.grows.trans hlands.grows, hlands.along,
            hlands.root.trans ?_, hlands.knows⟩⟩
          · rw [Forest.resolve?, hfound]
            exact hresolve
          · rw [hentered.place]
            rfl
        · cases htrail
      · cases htrail

/-- A path that leads to a handle has relations and a column in the catalog. -/
theorem Along.isSome_trail? : ∀ {path : List String} {forest next : Forest} {reference far : Reference}
    {trail : Trail} {index : Nat} {handle : Handle}, forest.Along catalog reference trail →
    forest.Grown catalog →
    Forest.resolve? catalog path reference forest = some (.handle far index handle, next) →
    (catalog.trail? path reference.table trail).isSome
  | [], _, _, _, _, _, _, _, _, _, hresolve => by cases hresolve
  | [field], forest, next, reference, far, trail, index, handle, h, hgrown, hresolve => by
      rw [Forest.resolve?, Option.map_eq_some_iff] at hresolve
      rcases hresolve with ⟨⟨found, own⟩, hfound, -⟩
      rcases hgrown.orderly.exists_columnOf? h.mem hfound with ⟨column, hcolumn, -⟩
      simp [Catalog.trail?, hcolumn]
  | field :: second :: rest, forest, next, reference, far, trail, index, handle, h, hgrown,
      hresolve => by
      rw [Forest.resolve?] at hresolve
      split at hresolve
      · rename_i found token shared target hfound
        rcases hgrown.orderly.exists_columnOf? h.mem hfound with
          ⟨column, hcolumn, hcolumns, hhandle⟩
        rcases hgrown.orderly.relation_of_handle h.mem hcolumns hhandle with
          ⟨relation, hrelation, rfl⟩
        have hentered := h.enter hgrown hcolumns hrelation hhandle
        have hlater := hentered.along.isSome_trail? (hentered.grows.grown hgrown) hresolve
        rw [hentered.table] at hlater
        simpa [Catalog.trail?, hcolumn, hrelation] using hlater
      · cases hresolve

/-- Wherever a path leads, it lands there. -/
theorem Along.resolve?_lands {path : List String} {trail : Trail} {index : Nat} {handle : Handle}
    (h : forest.Along catalog reference trail) (hgrown : forest.Grown catalog)
    (hresolve : Forest.resolve? catalog path reference forest = some (.handle far index handle, next)) :
    ∃ outer name, catalog.trail? path reference.table trail = some (outer, name) ∧
      Lands catalog forest next reference.place.root outer name far handle := by
  rcases Option.isSome_iff_exists.1 (h.isSome_trail? hgrown hresolve) with ⟨⟨outer, name⟩, htrail⟩
  rcases h.resolve? hgrown htrail with ⟨last, own, found, after, hfound, hlands⟩
  cases hfound.symm.trans hresolve
  exact ⟨outer, name, htrail, hlands⟩

/-- A path that has been followed leads to the same end from then on, and nothing is built anew. -/
theorem Along.resolve?_again : ∀ {path : List String} {forest next later : Forest}
    {reference far : Reference} {trail : Trail} {index : Nat} {handle : Handle},
    forest.Along catalog reference trail → forest.Grown catalog →
    Forest.resolve? catalog path reference forest = some (.handle far index handle, next) →
    next.GrowsInto catalog later →
    Forest.resolve? catalog path reference later = some (.handle far index handle, later)
  | [], _, _, _, _, _, _, _, _, _, _, hresolve, _ => by cases hresolve
  | [field], forest, next, later, reference, far, trail, index, handle, h, hgrown, hresolve, _ => by
      rw [Forest.resolve?, Option.map_eq_some_iff] at hresolve ⊢
      rcases hresolve with ⟨found, hfound, hends⟩
      refine ⟨found, hfound, ?_⟩
      cases hends
      rfl
  | field :: second :: rest, forest, next, later, reference, far, trail, index, handle, h, hgrown,
      hresolve, hlater => by
      rw [Forest.resolve?] at hresolve ⊢
      split at hresolve
      · rename_i found token shared target hfound
        rcases hgrown.orderly.exists_columnOf? h.mem hfound with
          ⟨column, hcolumn, hcolumns, hhandle⟩
        rcases hgrown.orderly.relation_of_handle h.mem hcolumns hhandle with
          ⟨relation, hrelation, rfl⟩
        have hentered := h.enter hgrown hcolumns hrelation hhandle
        have hentered' := hentered.grows.grown hgrown
        rcases hentered.along.resolve?_lands hentered' hresolve with ⟨outer, name, -, hlands⟩
        have hgrows := hlands.grows.trans hlater
        have hbuilt := hgrows.built hentered' hentered.along.mem
        have hsame := (hgrows.grown hentered').orderly.enter_built hbuilt hentered.place
          token shared relation.target
        simp only [hsame]
        exact hentered.along.resolve?_again hentered' hresolve hlater
      · cases hresolve

/-- The paths from a planted reference that lead to a handle are those with a canonical form. -/
theorem Grown.isSome_canonical?_iff (h : forest.Grown catalog) (hroot : reference ∈ forest.built)
    (hplanted : reference.place.steps = []) {path : List String} :
    (catalog.canonical? reference.table path).isSome ↔ ∃ far index handle next,
      Forest.resolve? catalog path reference forest = some (.handle far index handle, next) := by
  have halong : forest.Along catalog reference [] := .planted hroot hplanted
  rw [Catalog.canonical?, Option.isSome_map]
  constructor
  · intro hsome
    rcases Option.isSome_iff_exists.1 hsome with ⟨⟨outer, name⟩, htrail⟩
    rcases halong.resolve? h htrail with ⟨far, index, handle, next, hresolve, -⟩
    exact ⟨far, index, handle, next, hresolve⟩
  · rintro ⟨far, index, handle, next, hresolve⟩
    exact halong.isSome_trail? h hresolve

/-- Planted references are told apart by their roots. -/
theorem Orderly.eq_of_root (h : forest.Orderly catalog) (hreference : reference ∈ forest.built)
    (hfar : far ∈ forest.built) (hplanted : reference.place.steps = [])
    (hplanted' : far.place.steps = []) (hroot : reference.place.root = far.place.root) :
    reference = far := by
  have hplace : reference.place = far.place := by
    rw [Place.mk.injEq]
    exact ⟨hroot, hplanted.trans hplanted'.symm⟩
  exact h.places reference hreference far hfar hplace

/-- Two handles have one token just if the paths to them start at one planted reference and have one
canonical form, whatever is built between the two; and whatever is built after them, the paths lead
to the same handles again. -/
theorem Grown.same_token_iff (h : forest.Grown catalog) {root other near : Reference}
    {next later last : Forest} {path path' : List String} {index index' : Nat}
    {handle handle' : Handle} (hroot : root ∈ forest.built) (hplanted : root.place.steps = [])
    (hresolve : resolve? catalog path root forest = some (.handle near index handle, next))
    (hlater : next.GrowsInto catalog later) (hother : other ∈ later.built)
    (hplanted' : other.place.steps = [])
    (hresolve' : resolve? catalog path' other later = some (.handle far index' handle', last)) :
    (∃ form form', catalog.canonical? root.table path = some form ∧
      catalog.canonical? other.table path' = some form' ∧
      (handle.token = handle'.token ↔ root = other ∧ form = form')) ∧
    ∀ final, last.GrowsInto catalog final →
      resolve? catalog path root final = some (.handle near index handle, final) ∧
        resolve? catalog path' other final = some (.handle far index' handle', final) := by
  have hstart : forest.Along catalog root [] := .planted hroot hplanted
  rcases hstart.resolve?_lands h hresolve with ⟨trail, name, htrail, hlands⟩
  have hnext := hlands.grows.grown h
  have hgrown := hlater.grown hnext
  have hstart' : later.Along catalog other [] := .planted hother hplanted'
  rcases hstart'.resolve?_lands hgrown hresolve' with ⟨trail', name', htrail', hlands'⟩
  have hlast := hlater.trans hlands'.grows
  refine ⟨⟨_, _, by rw [Catalog.canonical?, htrail]; rfl, by rw [Catalog.canonical?, htrail']; rfl,
    ?_⟩, fun final hfinal => ?_⟩
  · -- both handles are known in the last forest
    have halong := hlands.along.mono (hlast.built hnext)
    have hsame := halong.token_eq_iff hlands'.along (hlast.grown hnext) hlands.knows hlands'.knows
    rw [hlands.root, hlands'.root] at hsame
    refine hsame.trans (and_congr_left fun _ => ?_)
    have hbuilt := (hlands.grows.trans hlater).built h hroot
    exact ⟨hgrown.orderly.eq_of_root hbuilt hother hplanted hplanted', fun heq => heq ▸ rfl⟩
  · exact ⟨hstart.resolve?_again h hresolve (hlast.trans hfinal),
      hstart'.resolve?_again hgrown hresolve' hfinal⟩

end Forest

namespace Guilds

def key : Column :=
  { name := "id", field := "id", primaryKey := true }

def foreignKey : Column :=
  { name := "guild_id", field := "guild_id" }

def members : Column :=
  ({ name := "members", field := "members" } : Column).withRelation
    (.hasMany 1 "members_" "guild_id" "id")

/-- Guilds have members, whose mentors are members of the same guild. -/
def catalog : Catalog :=
  ⟨[{ name := "guilds", columns := [key, members] },
    { name := "members",
      columns := [key, foreignKey, { name := "mentor_id", field := "mentor_id" },
        ({ name := "guild", field := "guild" } : Column).withRelation
          (.belongsTo 0 "guild_" "id" "guild_id"),
        ({ name := "mentor", field := "mentor" } : Column).withRelation
          ⟨.belongsTo, 1, "mentor_", [("id", "mentor_id"), ("guild_id", "guild_id")]⟩] }]⟩

def first : Reference × Forest :=
  ({} : Forest).plant catalog 0

theorem grown : first.2.Grown catalog :=
  .plant .empty 0

/-- The key of the guild that a member's mentor belongs to. -/
def mentorGuild : List String :=
  ["members", "mentor", "guild", "id"]

/-- The forest once the path has been followed. -/
def followed (planted : Reference × Forest) : Forest :=
  (Forest.resolve? catalog mentorGuild planted.1 planted.2).elim {} (·.2)

def second : Reference × Forest :=
  (followed first).plant catalog 0

/-- Where the path leads from the first guild. -/
def mentored : Reference :=
  ⟨⟨0, [1, 4, 3]⟩, 0, ⟨9⟩, [.field ⟨2⟩, .relation ⟨11⟩ [("guild_id", ⟨2⟩)] 1]⟩

/-- Where it leads from the second one. -/
def mentoredElsewhere : Reference :=
  ⟨⟨1, [1, 4, 3]⟩, 0, ⟨20⟩, [.field ⟨13⟩, .relation ⟨22⟩ [("guild_id", ⟨13⟩)] 1]⟩

/-- The mentor's guild is the guild itself, by three links; that of another guild is not, although the
path is the same. -/
theorem same_token_mentorGuild : first.1 ∈ first.2.built ∧ second.1 ∈ second.2.built ∧
    ∃ near key far handle handle' handle'',
      Forest.resolve? catalog mentorGuild first.1 first.2 =
        some (.handle near 0 handle, followed first) ∧
      Forest.resolve? catalog ["id"] first.1 (followed first) =
        some (.handle key 0 handle', followed first) ∧
      Forest.resolve? catalog mentorGuild second.1 second.2 =
        some (.handle far 0 handle'', followed second) ∧
      handle.token = handle'.token ∧ handle.token ≠ handle''.token := by
  have hfirst : first.1 ∈ first.2.built := by decide
  have hmentor : Forest.resolve? catalog mentorGuild first.1 first.2 =
      some (.handle mentored 0 (.field ⟨2⟩), followed first) := rfl
  have hkey : Forest.resolve? catalog ["id"] first.1 (followed first) =
      some (.handle first.1 0 (.field ⟨2⟩), followed first) := rfl
  have hstill : first.1 ∈ (followed first).built := by decide
  have hsecond : second.1 ∈ second.2.built := by decide
  have helsewhere : Forest.resolve? catalog mentorGuild second.1 second.2 =
      some (.handle mentoredElsewhere 0 (.field ⟨13⟩), followed second) := rfl
  have hsame := Forest.Grown.same_token_iff grown hfirst rfl hmentor .refl hstill rfl hkey
  have hapart := Forest.Grown.same_token_iff grown hfirst rfl hmentor (.plant .refl 0) hsecond rfl
    helsewhere
  rcases hsame.1 with ⟨form, form', hform, hform', hsame⟩
  rcases hapart.1 with ⟨_, _, -, -, hapart⟩
  cases hform
  cases hform'
  have hroots : first.1 ≠ second.1 := by decide
  exact ⟨hfirst, hsecond, _, _, _, _, _, _, hmentor, hkey, helsewhere, hsame.2 ⟨rfl, by decide⟩,
    fun htoken => hroots (hapart.1 htoken).1⟩

end Guilds

end FieldQuery
