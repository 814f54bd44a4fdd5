import FieldQuery.Proofs.Decoding.OverlaidRows

/-!
# What a row holds of a column of its root

A value that a row has for a column of the root is put into the column's field.  It is what the field
holds in the end if and only if the last write that leads into the field puts a value of that alias
there, and no list lies at the field or behind it.  A lazy join may stand for a column that is a
relation; where that leads to many models its field is taken for a list, although no related models
were selected, and the list is empty whatever the join has brought.

Main definitions:

- `aliasedRoutes`: the writes into a row, with the aliases of their values.
- `SettledBy`: the last write into a field puts a value of some alias there, and no list changes it.

Main statement: `Query.On.root_values_kept`.
-/

namespace FieldQuery

/-! ## Writes and the aliases of their values -/

/-- The value that a row holds under an alias, unless it is null. -/
def Record.value? (record : Record) (label : String) : Option Json :=
  match record.get? label with
  | some value => if value.isNull then none else some value
  | none => none

/-- The writes into a row: the alias of each value, and the path to where it is put. -/
def aliasedRoutes (entries : List Entry) : List (String × List PathStep) :=
  entries.map (fun entry => (entry.label, entry.path)) ++
    entries.flatMap fun entry => entry.copies.map fun path => (entry.label, path)

theorem aliasedRoutes_snd (entries : List Entry) :
    (aliasedRoutes entries).map (·.2) = routes entries := by
  simp [aliasedRoutes, routes, List.map_flatMap, Function.comp_def]

theorem writes_overlay (entries : List Entry) (record : Record) :
    (overlay entries record).own ++ (overlay entries record).copies =
      (aliasedRoutes entries).map fun route => ⟨record.value? route.1, route.2⟩ := by
  simp only [overlay, aliasedRoutes, List.map_append, List.map_map, List.map_flatMap]
  rfl

/-- A path leads into a field. -/
def leadsInto (field : String) (path : List PathStep) : Bool :=
  path.head?.any (·.field == field)

theorem leadsInto_iff {field : String} {path : List PathStep} :
    leadsInto field path = true ↔ ∃ step rest, path = step :: rest ∧ step.field = field := by
  cases path with
  | nil => simp [leadsInto]
  | cons step rest => simp [leadsInto]

theorem Write.avoids_of_leadsInto {field : String} {write : Write}
    (h : leadsInto field write.path = false) : write.Avoids field := by
  refine Write.avoids_of_path fun step rest hpath hfield => ?_
  rw [leadsInto_iff.2 ⟨step, rest, hpath, hfield⟩] at h
  cases h

/-! ## Values that do not stay -/

/-- Objects around an empty one, in which a value at the end of a path would be found. -/
def hollow : List PathStep → Json
  | step :: next :: rest => (Json.obj []).set step.field (hollow (next :: rest))
  | _ => .obj []

theorem placeCopy_ne_hollow (value : Json) {path : List PathStep} (hne : path ≠ []) (item : Json) :
    placeCopy value item path ≠ hollow path := by
  induction path generalizing item with
  | nil => exact absurd rfl hne
  | cons step rest ih =>
      intro heq
      cases rest with
      | nil =>
          rw [placeCopy_single] at heq
          by_cases hobject : item.isObject = true
          · -- the copy is in the object
            rw [if_pos hobject] at heq
            have hget := congrArg (Json.get? · step.field) heq
            rw [Json.get?_set_self] at hget
            cases hget
          · rw [if_neg hobject] at heq
            exact hobject (heq ▸ rfl)
      | cons next rest =>
          rw [placeCopy_cons_cons] at heq
          have hget := congrArg (Json.get? · step.field) heq
          rw [hollow, Json.get?_update_self, Json.get?_set_self] at hget
          rcases Option.map_eq_some_iff.1 hget with ⟨held, -, hheld⟩
          exact ih (List.cons_ne_nil _ _) held hheld

theorem place_ne_hollow (value : Json) {path : List PathStep} (hne : path ≠ []) (item : Json) :
    place value path item ≠ hollow path := by
  induction path generalizing item with
  | nil => exact absurd rfl hne
  | cons step rest ih =>
      intro heq
      have hget := congrArg (Json.get? · step.field) heq
      cases rest with
      | nil =>
          rw [place, Json.get?_set_self] at hget
          cases hget
      | cons next rest =>
          rw [place_cons_cons, hollow, Json.get?_set_self, Json.get?_set_self] at hget
          exact ih (List.cons_ne_nil _ _) _ (Option.some.inj hget)

/-- A value that is put or copied behind a field as the last may not be what the field holds. -/
theorem get?_last_ne_hollow {own copies front back : List Write} {step next : PathStep}
    {rest : List PathStep} (hsplit : own ++ copies =
      front ++ ⟨some (hollow (next :: rest)), step :: next :: rest⟩ :: back)
    (hback : ∀ other ∈ back, other.Avoids step.field) (row : Json) :
    (copies.foldl Write.copy (own.foldl Write.put row)).get? step.field ≠
      some (hollow (next :: rest)) := by
  intro heq
  rcases get?_last_write hsplit hback row with ⟨before, hput | ⟨-, hcopy⟩⟩
  · have hplaced : (place (hollow (next :: rest)) (step :: next :: rest) before).get? step.field =
        some (hollow (next :: rest)) := hput.symm.trans heq
    rw [place_cons_cons, Json.get?_set_self] at hplaced
    exact place_ne_hollow _ (List.cons_ne_nil _ _) _ (Option.some.inj hplaced)
  · have hcopied : (placeCopy (hollow (next :: rest)) before (step :: next :: rest)).get?
        step.field = some (hollow (next :: rest)) := hcopy.symm.trans heq
    rw [placeCopy_cons_cons, Json.get?_update_self] at hcopied
    rcases Option.map_eq_some_iff.1 hcopied with ⟨held, -, hheld⟩
    exact placeCopy_ne_hollow _ (List.cons_ne_nil _ _) held hheld

/-- Objects around a text, where a list would be at the end of a path. -/
def textual : List String → Json
  | [] => .str ""
  | field :: rest => (Json.obj []).set field (textual rest)

theorem update_enlisted_ne_textual (filled : Bool) (path : List String) (item : Json) :
    Json.update (enlisted filled) path item ≠ textual path := by
  induction path generalizing item with
  | nil =>
      show enlisted filled item ≠ .str ""
      unfold enlisted
      split <;> simp
  | cons field rest ih =>
      intro heq
      -- one object less on both sides
      rw [Json.update_cons] at heq
      have hget := congrArg (Json.get? · field) heq
      rw [textual, Json.get?_update_self, Json.get?_set_self] at hget
      rcases Option.map_eq_some_iff.1 hget with ⟨held, -, hheld⟩
      exact ih held hheld

/-- If a list lies at a field or behind it, some value does not outlast the last pass. -/
theorem exists_not_enlisted {lists : List (List String)} (hne : ∀ path ∈ lists, path ≠ [])
    {field : String} {tail : List String} (hmem : field :: tail ∈ lists) :
    ∃ value : Json, value.isNull = false ∧ ∀ (filled : List (List String)) (row : Json),
      (lists.foldr (fun path row => enlist filled row path) row).get? field ≠ some value := by
  -- the list that is made last has the last word: the first one of the field
  have hfound : (lists.find? (·.head? == some field)).isSome := by
    rw [List.find?_isSome]
    exact ⟨_, hmem, by simp⟩
  rcases Option.isSome_iff_exists.1 hfound with ⟨path, hpath⟩
  rcases List.find?_eq_some_iff_append.1 hpath with ⟨hhead, later, earlier, rfl, hlater⟩
  rw [beq_iff_eq, List.head?_eq_some_iff] at hhead
  rcases hhead with ⟨last, rfl⟩
  refine ⟨textual last, by cases last <;> rfl, fun filled row heq => ?_⟩
  have hskip : ∀ path ∈ later, ∃ key rest, path = key :: rest ∧ key ≠ field := by
    intro path hmem
    rcases List.exists_cons_of_ne_nil (hne path (List.mem_append_left _ hmem)) with ⟨key, rest, rfl⟩
    exact ⟨key, rest, rfl, by simpa using hlater _ hmem⟩
  rw [List.foldr_append, get?_foldr_enlist_of_ne hskip, List.foldr_cons, enlist_eq,
    Json.update_cons, Json.get?_update_self] at heq
  rcases Option.map_eq_some_iff.1 heq with ⟨held, -, hheld⟩
  exact update_enlisted_ne_textual _ _ _ hheld

/-! ## Fields that keep their values -/

/-- A field is settled by the values under an alias: the last write that leads into the field puts one
of them there, and no list lies at the field or behind it. -/
structure SettledBy (entries : List Entry) (field label : String) : Prop where
  last : ∃ front step back, aliasedRoutes entries = front ++ (label, [step]) :: back ∧
    step.field = field ∧ ∀ route ∈ back, leadsInto field route.2 = false
  lists : ∀ tail, field :: tail ∉ listPaths entries

section Fields

variable {entries : List Entry} {entry : Entry} {record : Record} {fresh value : Json}
  {step : PathStep} {field label : String}

theorem assemble_eq_enlisted (entries : List Entry) (fresh : Json) (record : Record) :
    assemble entries fresh record = (listPaths entries).foldr
      (fun path row => enlist (overlay entries record).filled row path)
        (placed entries fresh record) := by
  rw [assemble_eq_apply, placed_eq]
  rfl

theorem get?_assemble_of_not_list (h : ∀ tail, field :: tail ∉ listPaths entries) (fresh : Json)
    (record : Record) :
    (assemble entries fresh record).get? field = (placed entries fresh record).get? field := by
  rw [assemble_eq_enlisted]
  exact Overlay.get?_lists (listsSorted_overlay entries record) h _

/-- A value is put into an object. -/
theorem isObject_own (hentry : entry ∈ entries) (hpath : entry.path ≠ [])
    (hvalue : entry.value? record = some value) (fresh : Json) :
    ((overlay entries record).own.foldl Write.put fresh).isObject = true := by
  have hmem : ⟨some value, entry.path⟩ ∈ (overlay entries record).own :=
    mem_own_overlay.2 ⟨entry, hentry, hvalue, rfl⟩
  rcases List.append_of_mem hmem with ⟨front, back, hsplit⟩
  rw [hsplit, List.foldl_append, List.foldl_cons]
  exact isObject_foldl_put (isObject_place value hpath _) back

/-- The writes of a row, at one of them. -/
theorem writes_split {front back : List (String × List PathStep)} {path : List PathStep}
    (hsplit : aliasedRoutes entries = front ++ (label, path) :: back)
    (hback : ∀ route ∈ back, leadsInto field route.2 = false)
    (hvalue : record.value? label = some value) : ∃ before after,
      (overlay entries record).own ++ (overlay entries record).copies =
        before ++ ⟨some value, path⟩ :: after ∧ ∀ other ∈ after, other.Avoids field := by
  refine ⟨front.map fun route => ⟨record.value? route.1, route.2⟩,
    back.map fun route => ⟨record.value? route.1, route.2⟩, ?_, fun other hother => ?_⟩
  · rw [writes_overlay, hsplit, List.map_append, List.map_cons, hvalue]
  · rcases List.mem_map.1 hother with ⟨route, hroute, rfl⟩
    exact Write.avoids_of_leadsInto (hback route hroute)

/-- A value that is written into a field as the last is what the first two passes leave there. -/
theorem get?_placed {front back : List (String × List PathStep)}
    (hsplit : aliasedRoutes entries = front ++ (label, [step]) :: back)
    (hback : ∀ route ∈ back, leadsInto step.field route.2 = false)
    (hvalue : record.value? label = some value)
    (hobject : ((overlay entries record).own.foldl Write.put fresh).isObject = true) :
    (placed entries fresh record).get? step.field = some value := by
  rcases writes_split hsplit hback hvalue with ⟨before, after, hwrites, hafter⟩
  rw [placed_eq]
  exact get?_last_value hwrites hafter hobject

theorem SettledBy.get?_assemble (h : SettledBy entries field entry.label) (hentry : entry ∈ entries)
    (hpath : entry.path ≠ []) (hvalue : entry.value? record = some value) (fresh : Json) :
    (assemble entries fresh record).get? field = some value := by
  rcases h.last with ⟨front, step, back, hsplit, rfl, hback⟩
  rw [get?_assemble_of_not_list h.lists]
  exact get?_placed hsplit hback hvalue (isObject_own hentry hpath hvalue fresh)

/-! ## Fields that lose values -/

/-- There are rows with any two values under two aliases. -/
theorem exists_record {other : Json} (label name : String) (hvalue : value.isNull = false)
    (hother : other.isNull = false) (hsame : label = name → value = other) :
    ∃ record : Record, record.value? label = some value ∧ record.value? name = some other := by
  refine ⟨⟨[(label, value), (name, other)]⟩, ?_, ?_⟩
  · simp [Record.value?, Record.get?, hvalue]
  · by_cases heq : label = name
    · cases hsame heq
      simp [Record.value?, Record.get?, heq, hvalue]
    · simp [Record.value?, Record.get?, heq, hother]

/-- Some write into a field is the last. -/
theorem exists_last_route (h : ∃ route ∈ aliasedRoutes entries, leadsInto field route.2 = true) :
    ∃ front name step rest back,
      aliasedRoutes entries = front ++ (name, step :: rest) :: back ∧ step.field = field ∧
        ∀ route ∈ back, leadsInto field route.2 = false := by
  have hfound : ((aliasedRoutes entries).reverse.find? (leadsInto field ·.2)).isSome := by
    rw [List.find?_isSome]
    rcases h with ⟨route, hroute, hleads⟩
    exact ⟨route, List.mem_reverse.2 hroute, hleads⟩
  rcases Option.isSome_iff_exists.1 hfound with ⟨⟨name, path⟩, hlast⟩
  rcases List.find?_eq_some_iff_append.1 hlast with ⟨hleads, back, front, hreverse, hback⟩
  rcases leadsInto_iff.1 hleads with ⟨step, rest, rfl, hfield⟩
  refine ⟨front.reverse, name, step, rest, back.reverse, ?_, hfield, fun route hroute => ?_⟩
  · rw [← List.reverse_reverse (aliasedRoutes entries), hreverse]
    simp
  · simpa using hback route (List.mem_reverse.1 hroute)

/-- A field that holds every value under an alias is settled by them. -/
theorem settled_of_kept (hentry : entry ∈ entries) (hpath : entry.path = [step])
    (h : ∀ record value, entry.value? record = some value →
      (assemble entries fresh record).get? step.field = some value) :
    SettledBy entries step.field entry.label := by
  have hlists : ∀ tail, step.field :: tail ∉ listPaths entries := by
    intro tail hmem
    -- some value would not outlast the list
    rcases exists_not_enlisted (fun path => ne_nil_of_mem_listPaths) hmem with
      ⟨value, hnull, hnone⟩
    rcases exists_record entry.label entry.label hnull hnull fun _ => rfl with ⟨record, hvalue, -⟩
    have hkept := h record value hvalue
    rw [assemble_eq_enlisted] at hkept
    exact hnone _ _ hkept
  have hplaced : ∀ record value, record.value? entry.label = some value →
      (placed entries fresh record).get? step.field = some value := by
    intro record value hvalue
    rw [← get?_assemble_of_not_list hlists]
    exact h record value hvalue
  have hroute : ∃ route ∈ aliasedRoutes entries, leadsInto step.field route.2 = true := by
    refine ⟨(entry.label, entry.path), List.mem_append_left _ (List.mem_map_of_mem hentry), ?_⟩
    rw [hpath]
    exact leadsInto_iff.2 ⟨step, [], rfl, rfl⟩
  -- whatever the last write is, it must put a value of this alias into the field itself
  rcases exists_last_route hroute with ⟨front, name, last, rest, back, hsplit, hfield, hback⟩
  rw [← hfield] at hback hplaced
  refine ⟨?_, hlists⟩
  cases rest with
  | nil =>
      by_cases hname : entry.label = name
      · exact ⟨front, last, back, hname ▸ hsplit, hfield, hfield ▸ hback⟩
      · -- the value under the other alias replaces this one
        have hnull : (Json.bool true).isNull = false ∧ (Json.arr []).isNull = false := ⟨rfl, rfl⟩
        rcases exists_record entry.label name hnull.1 hnull.2 fun heq => absurd heq hname with
          ⟨record, hkept, hlost⟩
        have hobject := isObject_own hentry (hpath ▸ List.cons_ne_nil _ _) hkept fresh
        have hlast := get?_placed hsplit hback hlost hobject
        rw [hplaced record _ hkept] at hlast
        cases hlast
  | cons next rest =>
      have hnull : (hollow (next :: rest)).isNull = false := by
        cases rest <;> rfl
      rcases exists_record entry.label name hnull hnull fun _ => rfl with ⟨record, hkept, hlast⟩
      rcases writes_split hsplit hback hlast with ⟨before, after, hwrites, hafter⟩
      -- neither putting nor copying this value would leave it in the field
      have hlost := get?_last_ne_hollow hwrites hafter fresh
      rw [← placed_eq] at hlost
      exact absurd (hplaced record _ hkept) hlost

/-- Where nothing else is written into a field, a path that leads into it is the column's. -/
theorem path_of_only {path : List PathStep}
    (honly : (routes entries).filter (leadsInto field) = [path]) (hentry : entry ∈ entries)
    (hleads : leadsInto field entry.path = true) : entry.path = path := by
  have hmem : entry.path ∈ (routes entries).filter (leadsInto field) :=
    List.mem_filter.2 ⟨List.mem_append_left _ (List.mem_map_of_mem hentry), hleads⟩
  rw [honly] at hmem
  exact List.mem_singleton.1 hmem

/-- Where nothing else is written into a field, the write of the column is the last. -/
theorem last_of_only (hentry : entry ∈ entries) (hpath : entry.path = [step])
    (honly : (routes entries).filter (leadsInto step.field) = [entry.path]) :
    ∃ front back, aliasedRoutes entries = front ++ (entry.label, [step]) :: back ∧
      ∀ route ∈ back, leadsInto step.field route.2 = false := by
  have hroutes : ((aliasedRoutes entries).filter (leadsInto step.field ·.2)).map (·.2) =
      [[step]] := by
    rw [← aliasedRoutes_snd, List.filter_map, hpath] at honly
    exact honly
  rcases List.map_eq_singleton_iff.1 hroutes with ⟨⟨label, path⟩, hfilter, rfl⟩
  -- the only write that leads into the field is that of the column itself
  have hmem : (entry.label, [step]) ∈ (aliasedRoutes entries).filter (leadsInto step.field ·.2) := by
    refine List.mem_filter.2 ⟨List.mem_append_left _ ?_, leadsInto_iff.2 ⟨step, [], rfl, rfl⟩⟩
    rw [← hpath]
    exact List.mem_map_of_mem hentry
  rw [hfilter, List.mem_singleton] at hmem
  cases hmem
  rcases List.filter_eq_cons_iff.1 hfilter with ⟨front, back, hsplit, -, -, hback⟩
  refine ⟨front, back, hsplit, fun route hroute => ?_⟩
  rw [← Bool.not_eq_true]
  exact List.filter_eq_nil_iff.1 hback route hroute

/-- Then it is settled, unless it is taken for a list. -/
theorem settled_of_only (hentry : entry ∈ entries) (hpath : entry.path = [step])
    (honly : (routes entries).filter (leadsInto step.field) = [entry.path])
    (hplain : step.many = false) : SettledBy entries step.field entry.label where
  last := by
    rcases last_of_only hentry hpath honly with ⟨front, back, hsplit, hback⟩
    exact ⟨front, step, back, hsplit, rfl, hback⟩
  lists := by
    intro tail hmem
    rcases mem_listPaths.1 hmem with ⟨other, hother, hmany⟩
    have hleads := leadsInto_iff.2 (head_of_mem_manyPaths hmany)
    rw [path_of_only honly hother hleads, hpath, manyPaths, hplain] at hmany
    cases hmany

/-- A list that no related models were selected for is empty. -/
theorem get?_assemble_of_many (hentry : entry ∈ entries) (hpath : entry.path = [step])
    (honly : (routes entries).filter (leadsInto step.field) = [entry.path])
    (hmany : step.many = true) (hvalue : entry.value? record = some value) (fresh : Json) :
    (assemble entries fresh record).get? step.field = some (.arr []) := by
  rcases last_of_only hentry hpath honly with ⟨front, back, hsplit, hback⟩
  have hobject := isObject_own hentry (hpath ▸ List.cons_ne_nil _ _) hvalue fresh
  have hplaced := get?_placed hsplit hback hvalue hobject
  have hlist : [step.field] ∈ listPaths entries :=
    mem_listPaths.2 ⟨entry, hentry, singleton_mem_manyPaths.2 ⟨step, [], hpath, hmany, rfl⟩⟩
  -- the column's own path leads to nothing behind the field
  have hempty : (overlay entries record).filled.contains [step.field] = false := by
    rw [← Bool.not_eq_true, filled_overlay, List.contains_iff_mem, filledPaths, List.mem_flatMap]
    rintro ⟨other, hother, hfilled⟩
    rcases singleton_mem_manyPaths.1 hfilled with ⟨first, rest, hfront, -, hfield⟩
    have hleads : leadsInto step.field other.path = true := by
      rcases List.dropLast_prefix other.path with ⟨last, hwhole⟩
      rw [hfront] at hwhole
      exact leadsInto_iff.2 ⟨first, rest ++ last, hwhole.symm, hfield⟩
    rw [path_of_only honly (List.mem_filter.1 hother).1 hleads, hpath] at hfront
    cases hfront
  have hsorted := listsSorted_overlay entries record
  have hpasses := get?_foldr_enlist ((overlay entries record).contains_filled_under step.field)
    hsorted.ne_nil hsorted.sorted hsorted.nodup (placed entries fresh record)
  rw [hplaced, Option.map_some, hempty] at hpasses
  rw [assemble_eq_enlisted]
  exact hpasses.trans (congrArg some (if_pos hlist))

end Fields

/-! ## Columns of the root -/

namespace Query

variable {root : ModelTarget} {query : Query} {entry : Entry} {column : Column}

/-- The root is mapped into an empty plan. -/
theorem On.maps (h : query.On (.model root)) :
    ∃ before, query.Maps root before ∧ before.columns = {} := by
  induction h with
  | start => exact ⟨_, .root, rfl⟩
  | call _ hnext ih =>
      rcases ih with ⟨before, hmaps, hempty⟩
      exact ⟨before, hmaps.later hnext, hempty⟩

/-- A column of the root has its field for a path, which is a list if the column is a relation to
many. -/
theorem On.path_root (h : query.On (.model root)) (herrors : query.plan.errors = [])
    (hentry : entry ∈ query.plan.columns.entries)
    (hcolumn : root.columnOf? entry.token = some column) :
    ∃ step, entry.path = [step] ∧ step.field = column.field ∧
      step.many = column.relation.any (·.isMany) := by
  rcases h.maps with ⟨before, hmaps, hempty⟩
  have hnew : before.columns.contains entry.token = false := by
    rw [hempty]
    rfl
  rcases hmaps.first herrors hnew hcolumn with ⟨found, hfound, hfixed⟩
  rw [h.distinct.find? hentry, Option.some.injEq] at hfound
  subst hfound
  -- no relation leads to the root, so its columns are mapped under no path
  have hparent : before.parentOf root = none := by
    unfold Plan.parentOf
    rw [hempty]
    cases root.own <;> rfl
  have hpath : entry.path = ((before.scopeOf root).entry column entry.token).path :=
    (congrArg Entry.path hfixed :)
  have hbase : (before.scopeOf root).basePath = [] := by
    unfold MappingScope.basePath Plan.scopeOf
    rw [hparent]
  rw [hpath, MappingScope.entry, hbase, List.nil_append]
  cases column.relation with
  | none => exact ⟨_, rfl, rfl, rfl⟩
  | some relation => exact ⟨_, rfl, rfl, rfl⟩

/-- The field of a column of the root holds every value that a row has for the column if and only if
the field is settled by them.  A column that is a relation to many never is, and where nothing else
is written into its field, all its values give way to an empty list; other columns keep theirs
then. -/
theorem On.root_values_kept (h : query.On (.model root)) (herrors : query.plan.errors = [])
    (hentry : entry ∈ query.plan.columns.selected)
    (hcolumn : root.columnOf? entry.token = some column) (fresh : Json) :
    ((∀ record value, entry.value? record = some value →
        (assemble query.plan.columns.selected fresh record).get? column.field = some value) ↔
      SettledBy query.plan.columns.selected column.field entry.label) ∧
    (column.relation.any (·.isMany) = true →
      ¬ SettledBy query.plan.columns.selected column.field entry.label) ∧
    ((routes query.plan.columns.selected).filter (leadsInto column.field) = [entry.path] →
      ∀ record value, entry.value? record = some value →
        (assemble query.plan.columns.selected fresh record).get? column.field =
          some (if column.relation.any (·.isMany) then .arr [] else value)) := by
  have hmem : entry ∈ query.plan.columns.entries := (List.mem_filter.1 hentry).1
  rcases h.path_root herrors hmem hcolumn with ⟨step, hpath, hfield, hmany⟩
  have hne : entry.path ≠ [] := by
    rw [hpath]
    exact List.cons_ne_nil _ _
  rw [← hfield, ← hmany]
  refine ⟨⟨settled_of_kept hentry hpath, ?_⟩, ?_, ?_⟩
  · intro hsettled record value hvalue
    exact hsettled.get?_assemble hentry hne hvalue fresh
  · -- the last step of the column's own path makes it a list
    intro hlist hsettled
    refine hsettled.lists [] (mem_listPaths.2 ⟨entry, hentry, ?_⟩)
    exact singleton_mem_manyPaths.2 ⟨step, [], hpath, hlist, rfl⟩
  · intro honly record value hvalue
    cases hlist : step.many with
    | true => exact get?_assemble_of_many hentry hpath honly hlist hvalue fresh
    | false =>
        have hsettled := settled_of_only hentry hpath honly hlist
        exact hsettled.get?_assemble hentry hne hvalue fresh

end Query

namespace Squads

/-- The players of a team, as they are listed elsewhere. -/
def rosterRule : JoinRule where
  table := "teams"
  column := "players"
  join site := ⟨.leftOuter, "\"rosters\"", some "\"r\"",
    "\"r\".\"team\" = " ++ site.quotedTable ++ ".\"id\"", "\"r\".\"players\""⟩

def unlisted : Query :=
  .start .postgres catalog false [rosterRule] (.model (planted.1.target catalog))

/-- The players are asked for, but not joined. -/
def rostered : Query :=
  ⟨.selecting, unlisted.plan.apply (.addField ⟨3⟩)⟩

def ann : Json :=
  .obj [("id", .ofInt 7)]

/-- The row of a team, with the players that the lazy join has brought. -/
def roster : Record :=
  ⟨[("id", .ofInt 1), ("players", .arr [ann])]⟩

/-- The players that the lazy join has brought are lost. -/
theorem root_values_kept_rostered : ∃ entry ∈ rostered.plan.columns.selected,
    entry.selectTarget = some "\"r\".\"players\"" ∧ entry.value? roster = some (.arr [ann]) ∧
      (assemble rostered.plan.columns.selected (.obj []) roster).get? "players" = some (.arr []) ∧
      ¬ SettledBy rostered.plan.columns.selected "players" entry.label := by
  have hnext : unlisted.call? (.addField ⟨3⟩) = some rostered := rfl
  have hon : rostered.On (.model (planted.1.target catalog)) := .call .start hnext
  have hentry : ∃ entry, rostered.plan.columns.selected[1]? = some entry ∧ entry.token = ⟨3⟩ ∧
      entry.selectTarget = some "\"r\".\"players\"" ∧ entry.value? roster = some (.arr [ann]) ∧
      (routes rostered.plan.columns.selected).filter (leadsInto "players") = [entry.path] :=
    ⟨_, rfl, rfl, rfl, rfl, rfl⟩
  rcases hentry with ⟨entry, hmem, htoken, htarget, hvalue, honly⟩
  have hcolumn : (planted.1.target catalog).columnOf? entry.token = some squad := by
    rw [htoken]
    rfl
  have hselected := List.mem_of_getElem? hmem
  rcases hon.root_values_kept rfl hselected hcolumn (.obj []) with ⟨-, hmany, hlost⟩
  exact ⟨entry, hselected, htarget, hvalue, hlost honly roster _ hvalue, hmany rfl⟩

end Squads

end FieldQuery
