import FieldQuery.Proofs.Distinct
import FieldQuery.Proofs.Plan.Links
import FieldQuery.Proofs.Reference.Spelling
import FieldQuery.Record

/-!
# Aliases

A selected field is known by its alias in the rows of a query.  The alias of a field of the primary
table, or of one that a chain of relations leads to from there, spells the field.  So aliases are
told apart where the catalog is unambiguous, and a row gives each field its own value.

Main definitions:

- `Query.Rooted`: a query, and the tokens that its root or a chain of relations from there brought
  in.
- `Entry.Named`: an entry whose alias spells its field.
- `ColumnMap.row`: a row with one value for each selected field.

Main statements: `Query.Rooted.names` and `Query.Rooted.labels_apart`.
-/

namespace FieldQuery

theorem trimStem_underscore (stem : String) : trimStem (stem ++ "_") = stem := by
  have hreverse : (stem ++ "_").toList.reverse = '_' :: stem.toList.reverse := by simp
  unfold trimStem
  rw [hreverse]
  simp

theorem append_underscore_ne_detachedStem (stem : String) : stem ++ "_" ≠ detachedStem := by
  intro h
  have htrim := congrArg trimStem h
  rw [trimStem_underscore] at htrim
  rw [htrim] at h
  exact absurd h (by decide)

/-- What is spelled from a reference is spelled from the root behind a stem. -/
def Forest.Opens (catalog : Catalog) (forest : Forest) (root : Reference) (stem : String)
    (reference : Reference) : Prop :=
  ∀ text token, forest.Spells catalog reference text token →
    forest.Spells catalog root (stem ++ text) token

theorem Forest.Opens.root (catalog : Catalog) (forest : Forest) (root : Reference) :
    forest.Opens catalog root "" root := by
  intro text token hspells
  simpa using hspells

theorem Forest.Opens.under {catalog : Catalog} {forest : Forest} {root near far : Reference}
    {stem : String} (h : forest.Opens catalog root stem near) {index : Nat} {column : Column}
    {relation : Relation} (hcolumn : (catalog.table near.table).columns[index]? = some column)
    (hrelation : column.relation = some relation) (hfar : far ∈ forest.built)
    (hplace : far.place = near.place.under index) :
    forest.Opens catalog root (stem ++ relation.joinPrefix) far := by
  intro text token hspells
  rw [String.append_assoc]
  exact h _ _ (.relation hcolumn hrelation hfar hplace hspells)

/-- An entry for a column of a reference, spelled from the root. -/
def Entry.Named (catalog : Catalog) (forest : Forest) (root : Reference) (entry : Entry) : Prop :=
  ∃ near ∈ forest.built, ∃ (index : Nat) (stem : String),
    forest.Opens catalog root stem near ∧
    (catalog.table near.table).columns[index]? = some entry.column ∧
    near.columnTokens[index]? = some entry.token ∧
    entry.label = stem ++ entry.column.spelling ∧
    ∀ relation, entry.column.relation = some relation →
      entry.stem = stem ++ relation.joinPrefix

namespace Entry.Named

variable {catalog : Catalog} {forest : Forest} {root : Reference} {entry later : Entry}

theorem spells (h : entry.Named catalog forest root) :
    forest.Spells catalog root entry.label entry.token := by
  rcases h with ⟨near, -, index, stem, hopens, hcolumn, htoken, hlabel, -⟩
  rw [hlabel]
  exact hopens _ _ (.column hcolumn htoken)

theorem of_eq (h : entry.Named catalog forest root) (htoken : later.token = entry.token)
    (hcolumn : later.column = entry.column) (hlabel : later.label = entry.label)
    (hstem : later.stem = entry.stem) : later.Named catalog forest root := by
  unfold Entry.Named
  rw [htoken, hcolumn, hlabel, hstem]
  exact h

theorem of_fixed (h : entry.Named catalog forest root) (hfixed : later.fixed = entry.fixed) :
    later.Named catalog forest root :=
  h.of_eq (congrArg Entry.token hfixed :) (congrArg Entry.column hfixed :)
    (congrArg Entry.label hfixed :) (congrArg Entry.stem hfixed :)

/-- A column that is entered where the stem is not that of detached targets. -/
theorem of_scope (hcatalog : catalog.Unambiguous) {scope : MappingScope} {near : Reference}
    (hnear : near ∈ forest.built) (hopens : forest.Opens catalog root scope.stem near)
    (hstem : scope.stem ≠ detachedStem) {index : Nat} {column : Column} {token : Token}
    (hcolumn : (catalog.table near.table).columns[index]? = some column)
    (htoken : near.columnTokens[index]? = some token) :
    (scope.entry column token).Named catalog forest root := by
  refine ⟨near, hnear, index, scope.stem, hopens, hcolumn, htoken, ?_, ?_⟩
  · cases hrelation : column.relation with
    | none => simp [MappingScope.entry, hrelation, hstem, Column.spelling]
    | some relation =>
        have hstandard := hcatalog.joinPrefix (List.mem_of_getElem? hcolumn) hrelation
        have htrim : trimStem (scope.stem ++ relation.joinPrefix) = scope.stem ++ column.field := by
          rw [hstandard, ← String.append_assoc, trimStem_underscore]
        simp [MappingScope.entry, hrelation, Column.spelling, htrim]
  · intro relation hrelation
    have hcolumn' : column.relation = some relation := hrelation
    simp [MappingScope.entry, hcolumn']

end Entry.Named

namespace ColumnMap

def tokens (columns : ColumnMap) : List Token :=
  columns.entries.map (·.token)

/-- The tokens of a later column map that an earlier one does not know. -/
def added (columns next : ColumnMap) : List Token :=
  next.tokens.filter fun token => !columns.contains token

/-- Some of the tokens have entries that are spelled from the root. -/
structure Names (catalog : Catalog) (forest : Forest) (root : Reference) (tokens : List Token)
    (columns : ColumnMap) : Prop where
  distinct : columns.Distinct
  known : ∀ token ∈ tokens, columns.contains token = true
  named : ∀ entry ∈ columns.entries, entry.token ∈ tokens → entry.Named catalog forest root

variable {catalog : Catalog} {forest : Forest} {root : Reference} {tokens : List Token}
  {columns next : ColumnMap}

theorem Names.extends (h : columns.Names catalog forest root tokens)
    (hextends : columns.Extends next) : next.Names catalog forest root tokens where
  distinct := hextends.distinct h.distinct
  known := fun token hmem => hextends.contains (h.known token hmem)
  named := by
    intro later hlater hmem
    rcases hextends.known h.distinct hlater (h.known later.token hmem) with
      ⟨entry, hentry, htoken, hfixed⟩
    exact (h.named entry hentry (by rw [htoken]; exact hmem)).of_fixed hfixed

/-- What comes in is spelled from the root as well. -/
theorem Names.add (h : columns.Names catalog forest root tokens) (hextends : columns.Extends next)
    (hnew : ∀ entry ∈ next.entries, columns.contains entry.token = false →
      entry.Named catalog forest root) :
    next.Names catalog forest root (tokens ++ columns.added next) where
  distinct := hextends.distinct h.distinct
  known := by
    intro token hmem
    rcases List.mem_append.1 hmem with hold | hadded
    · exact hextends.contains (h.known token hold)
    · have htoken : token ∈ next.tokens := (List.mem_filter.1 hadded).1
      rcases List.mem_map.1 htoken with ⟨entry, hentry, rfl⟩
      exact contains_iff.2 ⟨entry, hentry, rfl⟩
  named := by
    intro entry hentry hmem
    rcases List.mem_append.1 hmem with hold | hadded
    · exact (h.extends hextends).named entry hentry hold
    · exact hnew entry hentry (by simpa using (List.mem_filter.1 hadded).2)

theorem Names.of_entries (hdistinct : columns.Distinct)
    (hnamed : ∀ entry ∈ columns.entries, entry.Named catalog forest root) :
    columns.Names catalog forest root columns.tokens where
  distinct := hdistinct
  known := by
    intro token hmem
    rcases List.mem_map.1 hmem with ⟨entry, hentry, rfl⟩
    exact contains_iff.2 ⟨entry, hentry, rfl⟩
  named := fun entry hentry _ => hnamed entry hentry

end ColumnMap

/-- What a reference brings in is spelled from the root, if the stem is what it is spelled behind. -/
theorem Plan.named_mappedColumns {catalog : Catalog} {forest : Forest} {root near : Reference}
    (hcatalog : catalog.Unambiguous) {plan : Plan} (hnear : near ∈ forest.built)
    (hopens : forest.Opens catalog root (plan.scopeOf (near.target catalog)).stem near)
    (hstem : (plan.scopeOf (near.target catalog)).stem ≠ detachedStem) {entry : Entry}
    (hentry : entry ∈ (plan.mappedColumns (near.target catalog)).1.entries)
    (hnew : plan.columns.contains entry.token = false) : entry.Named catalog forest root := by
  rcases MappingScope.fixed_mapColumns hentry with ⟨known, hknown, hfixed⟩ | ⟨pair, hpair, hfixed⟩
  · -- what was known before has no new token
    have htoken : known.token = entry.token := (congrArg Entry.token hfixed.symm :)
    rw [ColumnMap.contains_iff.2 ⟨known, hknown, htoken⟩] at hnew
    cases hnew
  · rcases List.getElem?_of_mem hpair with ⟨index, hindex⟩
    rcases List.getElem?_zip_eq_some.1 hindex with ⟨hcolumn, htoken⟩
    exact (Entry.Named.of_scope hcatalog hnear hopens hstem hcolumn htoken).of_fixed hfixed

namespace Query

/-- A query, and the tokens that its root or a chain of relations from there brought in.  What any
other call brings in is not among them. -/
inductive Rooted (catalog : Catalog) (forest : Forest) (root : Reference) :
    Query → List Token → Prop
  | model {dialect : Dialect} {cacheable : Bool} {lazyJoins : List JoinRule} {query : Query}
      (hquery : query = .start dialect catalog cacheable lazyJoins (.model (root.target catalog))) :
      Rooted catalog forest root query query.plan.columns.tokens
  | raw {dialect : Dialect} {cacheable : Bool} {lazyJoins : List JoinRule} {written : RawQuery}
      {query : Query} (hquery : query =
        .start dialect catalog cacheable lazyJoins (.raw (root.target catalog) written)) :
      Rooted catalog forest root query query.plan.columns.tokens
  | plan {dialect : Dialect} {cacheable : Bool} {lazyJoins : List JoinRule} {sub : Query}
      {tokens : List Token} (h : Rooted catalog forest root sub tokens) :
      Rooted catalog forest root (.start dialect catalog cacheable lazyJoins (.plan sub.plan)) tokens
  | relation {query next : Query} {tokens : List Token} {kind : JoinKind} {far : Reference}
      {parent : Entry} (h : Rooted catalog forest root query tokens) (hfar : far ∈ forest.built)
      (hparent : query.plan.parentOf (far.target catalog) = some parent)
      (hmem : parent.token ∈ tokens)
      (hnext : query.call? (.join kind (.model (far.target catalog))) = some next) :
      Rooted catalog forest root next (tokens ++ query.plan.columns.added next.plan.columns)
  | call {query next : Query} {tokens : List Token} {call : Call}
      (h : Rooted catalog forest root query tokens) (hnext : query.call? call = some next) :
      Rooted catalog forest root next tokens

variable {catalog : Catalog} {forest : Forest} {root : Reference}

/-- The fields of a primary reference. -/
theorem named_model (hcatalog : catalog.Unambiguous) (hroot : root ∈ forest.built)
    {dialect : Dialect} {cacheable : Bool} {lazyJoins : List JoinRule}
    (herrors : (start dialect catalog cacheable lazyJoins
      (.model (root.target catalog))).plan.errors = []) {entry : Entry}
    (hentry : entry ∈ (start dialect catalog cacheable lazyJoins
      (.model (root.target catalog))).plan.columns.entries) : entry.Named catalog forest root := by
  have hcolumns := Plan.columns_mapRoot herrors
  have hmapped := hentry
  rw [start, Plan.start, hcolumns] at hmapped
  have hstem : ("" : String) ≠ detachedStem := by decide
  refine Plan.named_mappedColumns hcatalog hroot ?_ ?_ hmapped rfl
  · exact Forest.Opens.root catalog forest root
  · exact hstem

/-- The fields of a primary query that is written by hand: all are stored, so none is a relation. -/
theorem named_raw (hcatalog : catalog.Unambiguous) (hroot : root ∈ forest.built)
    {dialect : Dialect} {cacheable : Bool} {lazyJoins : List JoinRule} {written : RawQuery}
    (herrors : (start dialect catalog cacheable lazyJoins
      (.raw (root.target catalog) written)).plan.errors = []) {entry : Entry}
    (hentry : entry ∈ (start dialect catalog cacheable lazyJoins
      (.raw (root.target catalog) written)).plan.columns.entries) :
    entry.Named catalog forest root := by
  rcases Plan.mapTarget_of_mapRoot herrors with ⟨next, mapped, hmap, -⟩
  have hmapped := hentry
  rw [start, Plan.start, Plan.mapRoot_of_ok hmap] at hmapped
  rcases Plan.mem_mapRaw hmap hmapped with hnone | ⟨⟨column, token⟩, hpair, hstored, hraw⟩
  · cases hnone
  · rcases List.getElem?_of_mem hpair with ⟨index, hindex⟩
    rcases List.getElem?_zip_eq_some.1 hindex with ⟨hcolumn, htoken⟩
    have hplain : column.relation = none := by
      cases hrelation : column.relation with
      | none => rfl
      | some relation =>
          have hmem : column ∈ (catalog.table root.table).columns := List.mem_of_getElem? hcolumn
          have htransient := (hcatalog.standard _ (Catalog.table_mem hmem) column hmem relation
            hrelation).2
          rw [htransient] at hstored
          cases hstored
    rw [hraw]
    refine ⟨root, hroot, index, "", Forest.Opens.root catalog forest root, hcolumn, htoken, ?_, ?_⟩
    · simp [Plan.rawEntry, Column.spelling, hplain]
    · intro relation hrelation
      have hcolumn' : column.relation = some relation := hrelation
      rw [hplain] at hcolumn'
      cases hcolumn'

/-- A plan as the primary target: its fields keep their tokens and aliases. -/
theorem names_plan {tokens : List Token} {sub : Plan}
    (h : sub.columns.Names catalog forest root tokens) {dialect : Dialect} {cacheable : Bool}
    {lazyJoins : List JoinRule} :
    (start dialect catalog cacheable lazyJoins (.plan sub)).plan.columns.Names
      catalog forest root tokens := by
  have hcolumns : (start dialect catalog cacheable lazyJoins (.plan sub)).plan.columns =
      (sub.columns.entries.map (Plan.importEntry dialect sub.quotedTable true)).foldl .push {} :=
    Plan.columns_mapPlan _ sub
  refine ⟨On.start.distinct, ?_, ?_⟩
  · intro token hmem
    rcases ColumnMap.contains_iff.1 (h.known token hmem) with ⟨entry, hentry, rfl⟩
    have himported :=
      List.mem_map_of_mem (f := Plan.importEntry dialect sub.quotedTable true) hentry
    rw [hcolumns]
    exact ColumnMap.contains_pushAll himported {}
  · intro later hlater hmem
    rw [hcolumns] at hlater
    rcases ColumnMap.mem_pushAll hlater with hnone | himported
    · cases hnone
    · rcases List.mem_map.1 himported with ⟨entry, hentry, rfl⟩
      exact (h.named entry hentry hmem).of_eq rfl rfl rfl rfl

/-- What a relation leads to is spelled behind the relation. -/
theorem names_relation (hcatalog : catalog.Unambiguous) (hgrown : forest.Grown catalog)
    {query next : Query} {tokens : List Token} {kind : JoinKind} {far : Reference} {parent : Entry}
    (h : query.plan.columns.Names catalog forest root tokens) (hfar : far ∈ forest.built)
    (hparent : query.plan.parentOf (far.target catalog) = some parent)
    (hmem : parent.token ∈ tokens)
    (hnext : query.call? (.join kind (.model (far.target catalog))) = some next)
    (herrors : next.plan.errors = []) :
    next.plan.columns.Names catalog forest root
      (tokens ++ query.plan.columns.added next.plan.columns) := by
  have hextends := (continues_call? hnext).columns
  rcases h.distinct.relation? hparent with ⟨hfound, hsome⟩
  have hentry : parent ∈ query.plan.columns.entries := List.mem_of_find?_eq_some hfound
  have hown : parent.token = far.own := by simpa using List.find?_some hfound
  rcases Option.isSome_iff_exists.1 hsome with ⟨relation, hrelation⟩
  rcases h.named parent hentry hmem with
    ⟨near, hnear, index, stem, hopens, hcolumn, htoken, -, hstem⟩
  -- the parent's token tells where the reference hangs
  have hleads : near.Leads index far.own := by
    rw [← hown]
    exact hgrown.orderly.leads hnear hcolumn hrelation htoken
  have hplace := hgrown.place_of_own hcatalog.toTellsRelations hnear hfar hleads
  have hbehind := hopens.under hcolumn hrelation hfar hplace
  rw [← hstem relation hrelation] at hbehind
  have hscope : (query.plan.closeJoin.scopeOf (far.target catalog)).stem = parent.stem := by
    have hparent' : query.plan.closeJoin.parentOf (far.target catalog) = some parent := hparent
    unfold Plan.scopeOf
    rw [hparent']
  have hdetached : parent.stem ≠ detachedStem := by
    rw [hstem relation hrelation, hcatalog.joinPrefix (List.mem_of_getElem? hcolumn) hrelation,
      ← String.append_assoc]
    exact append_underscore_ne_detachedStem _
  refine h.add hextends ?_
  intro entry hentry hnew
  rw [(mapped_join hnext herrors).1] at hentry
  exact Plan.named_mappedColumns hcatalog hfar (hscope ▸ hbehind) (hscope ▸ hdetached) hentry hnew

theorem Rooted.names (hcatalog : catalog.Unambiguous) (hgrown : forest.Grown catalog)
    (hroot : root ∈ forest.built) {query : Query} {tokens : List Token}
    (h : query.Rooted catalog forest root tokens) (herrors : query.plan.errors = []) :
    query.plan.columns.Names catalog forest root tokens := by
  -- on how the query was made; each step keeps the names of the known tokens
  induction h with
  | model hquery =>
      subst hquery
      exact .of_entries On.start.distinct fun _ hentry =>
        named_model hcatalog hroot herrors hentry
  | raw hquery =>
      subst hquery
      exact .of_entries On.start.distinct fun _ hentry =>
        named_raw hcatalog hroot herrors hentry
  | plan h ih =>
      rcases Plan.mapTarget_of_mapRoot herrors with ⟨next, mapped, hmap, hnext⟩
      have hclean := (Plan.maps_mapTarget hmap hnext).written.1
      exact names_plan (ih hclean)
  | relation h hfar hparent hmem hnext ih =>
      have hclean := (continues_call? hnext).errors_nil herrors
      exact names_relation hcatalog hgrown (ih hclean) hfar hparent hmem hnext herrors
  | call h hnext ih =>
      have hcontinues := continues_call? hnext
      exact (ih (hcontinues.errors_nil herrors)).extends hcontinues.columns

end Query

/-! ## Rows -/

/-- A row with one value for each selected field. -/
def ColumnMap.row (columns : ColumnMap) (values : List Json) : Record :=
  ⟨(columns.selected.map (·.label)).zip values⟩

/-- Where the aliases are told apart, each gives its own value. -/
theorem Record.get?_of_mem {record : Record} (h : (record.columns.map (·.1)).Nodup) {label : String}
    {value : Json} (hmem : (label, value) ∈ record.columns) : record.get? label = some value := by
  unfold get?
  rw [find?_of_nodup_keys h hmem]
  rfl

theorem ColumnMap.get?_row {columns : ColumnMap} (h : (columns.selected.map (·.label)).Nodup)
    {values : List Json} (hlength : values.length = columns.selected.length) {index : Nat}
    {entry : Entry} (hentry : columns.selected[index]? = some entry) :
    ∃ value, values[index]? = some value ∧ (columns.row values).get? entry.label = some value := by
  have hindex : index < values.length := by
    rw [hlength]
    exact (List.getElem?_eq_some_iff.1 hentry).1
  have hvalue : values[index]? = some values[index] := List.getElem?_eq_getElem hindex
  have hkeys : (columns.row values).columns.map (·.1) = columns.selected.map (·.label) :=
    List.map_fst_zip (by simp [hlength])
  have hmem : (entry.label, values[index]) ∈ (columns.row values).columns := by
    refine List.mem_of_getElem? (i := index) (List.getElem?_zip_eq_some.2 ⟨?_, hvalue⟩)
    simp [hentry]
  refine ⟨values[index], hvalue, Record.get?_of_mem ?_ hmem⟩
  rw [hkeys]
  exact h

/-- Named entries of one alias are one entry. -/
theorem ColumnMap.Names.nodup_labels {catalog : Catalog} {forest : Forest} {root : Reference}
    {tokens : List Token} {columns : ColumnMap} (h : columns.Names catalog forest root tokens)
    (hcatalog : catalog.Unambiguous) (hgrown : forest.Grown catalog) (hroot : root ∈ forest.built) :
    ((columns.selected.filter fun entry => entry.token ∈ tokens).map (·.label)).Nodup := by
  have hentries : columns.entries.Nodup := List.Nodup.of_map _ h.distinct
  refine List.Nodup.map_on ?_ ((hentries.filter _).filter _)
  intro entry hentry other hother hlabel
  have hmem : ∀ {entry : Entry},
      entry ∈ columns.selected.filter (fun entry => entry.token ∈ tokens) →
        entry ∈ columns.entries ∧ entry.token ∈ tokens := by
    intro entry hentry
    rcases List.mem_filter.1 hentry with ⟨hselected, htoken⟩
    exact ⟨(List.mem_filter.1 hselected).1, by simpa using htoken⟩
  -- two entries of one alias have one token, and a token has one entry
  have hspells := (h.named entry (hmem hentry).1 (hmem hentry).2).spells
  have hspells' := (h.named other (hmem hother).1 (hmem hother).2).spells
  rw [← hlabel] at hspells'
  have htoken := hspells.unique hcatalog hgrown.orderly hroot hspells'
  exact List.inj_on_of_nodup_map h.distinct (hmem hentry).1 (hmem hother).1 htoken

namespace Query.Rooted

variable {catalog : Catalog} {forest : Forest} {root : Reference} {query : Query}
  {tokens : List Token}

/-- Selected fields that the root or a chain of relations from there brought in have aliases of
their own; where nothing else is selected, a row gives each its own value. -/
theorem labels_apart (hcatalog : catalog.Unambiguous) (hgrown : forest.Grown catalog)
    (hroot : root ∈ forest.built) (h : query.Rooted catalog forest root tokens)
    (herrors : query.plan.errors = []) :
    ((query.plan.columns.selected.filter fun entry => entry.token ∈ tokens).map (·.label)).Nodup ∧
      ((∀ entry ∈ query.plan.columns.selected, entry.token ∈ tokens) →
        ∀ values : List Json, values.length = query.plan.columns.selected.length →
          ∀ (index : Nat) (entry : Entry), query.plan.columns.selected[index]? = some entry →
            ∃ value, values[index]? = some value ∧
              (query.plan.columns.row values).get? entry.label = some value) := by
  have hnodup := (h.names hcatalog hgrown hroot herrors).nodup_labels hcatalog hgrown hroot
  refine ⟨hnodup, fun hall values hlength index entry hentry => ?_⟩
  have hwhole : query.plan.columns.selected.filter (fun entry => entry.token ∈ tokens) =
      query.plan.columns.selected := by
    simpa using hall
  rw [hwhole] at hnodup
  exact ColumnMap.get?_row hnodup hlength hentry

end Query.Rooted

/-! ## Players and their team -/

namespace Rosters

def teamName : Column :=
  { name := "name", field := "name" }

/-- The players have a stored column besides their keys. -/
def catalog (stored : String) : Catalog :=
  ⟨[{ name := "teams", columns := [Squads.key, teamName] },
    { name := "players"
      columns := [Squads.key, { name := stored, field := stored }, Squads.foreignKey, Squads.home] }]⟩

def planted (stored : String) : Reference × Forest :=
  ({} : Forest).plant (catalog stored) 1

/-- The players' team. -/
def entered (stored : String) : Reference × Forest :=
  (planted stored).2.enter (catalog stored) (planted stored).1 3 ⟨5⟩ [("id", ⟨4⟩)] 0

def start (stored : String) : Query :=
  .start .postgres (catalog stored) false [] (.model ((planted stored).1.target (catalog stored)))

def joined (stored : String) : Query :=
  ⟨.joining, (start stored).plan.apply
    (.join .leftOuter (.model ((entered stored).1.target (catalog stored))))⟩

/-- The players with their team. -/
def listed (stored : String) : Query :=
  ⟨.joining, (joined stored).plan.apply .references⟩

/-- The keys are one field, so a row has four values. -/
def values : List Json :=
  [.num (.int 1), .str "Reds", .num (.int 7), .str "Red Sox"]

theorem unambiguous : (catalog "nick").Unambiguous where
  names := by decide
  links := by decide
  standard := by decide
  apart := by decide

theorem labels_apart_nick :
    (listed "nick").plan.columns.selected.map (·.label) = ["id", "nick", "team_id", "team_name"] ∧
      ((listed "nick").plan.columns.row values).get? "team_name" = some (.str "Red Sox") := by
  have hgrown : (entered "nick").2.Grown (catalog "nick") := .enter (.plant .empty 1) (by decide) rfl
  have hparent : ∃ parent, (start "nick").plan.parentOf
      ((entered "nick").1.target (catalog "nick")) = some parent ∧
        parent.token ∈ (start "nick").plan.columns.tokens := ⟨_, rfl, by decide⟩
  rcases hparent with ⟨parent, hparent, hmem⟩
  have hjoined : (joined "nick").Rooted (catalog "nick") (entered "nick").2 (planted "nick").1 _ :=
    .relation (.model rfl) (by decide) hparent hmem rfl
  have hreferences : (joined "nick").call? .references = some (listed "nick") := rfl
  have hlisted : (listed "nick").Rooted (catalog "nick") (entered "nick").2 (planted "nick").1 _ :=
    .call hjoined hreferences
  have hrow := (hlisted.labels_apart unambiguous hgrown (by decide) rfl).2 (by decide) values rfl
  rcases hrow 3 _ rfl with ⟨value, hvalue, hget⟩
  have hsame : value = .str "Red Sox" := by simpa [values] using hvalue.symm
  rw [hsame] at hget
  exact ⟨rfl, hget⟩

/-- A second reference to the players, which no relation leads to. -/
def unrelated : Reference × Forest :=
  (planted "nick").2.plant (catalog "nick") 1

def paired : Query :=
  ⟨.joining, (start "nick").plan.apply
    (.join .inner (.model (unrelated.1.target (catalog "nick"))))⟩

/-- The second key is asked for. -/
def picked : Query :=
  ⟨.selecting, paired.plan.apply (.addField ⟨7⟩)⟩

/-- A stored column that is spelled like the team's name takes its alias; and what no relation leads
to is selected under its bare name. -/
theorem labels_clash :
    (∀ stored ∈ ["team_name", "nick"], ∀ table ∈ (catalog stored).tables,
      ∀ column ∈ table.columns, ∀ relation ∈ column.relation,
        relation.joinPrefix = column.field ++ "_") ∧
    ((start "team_name").call? (.join .leftOuter
        (.model ((entered "team_name").1.target (catalog "team_name")))) =
          some (joined "team_name") ∧
      (joined "team_name").call? .references = some (listed "team_name") ∧
      (listed "team_name").plan.errors = [] ∧
      ¬ ((listed "team_name").plan.columns.selected.map (·.label)).Nodup ∧
      ∃ entry, (listed "team_name").plan.columns.selected[3]? = some entry ∧
        entry.column = teamName ∧ values[3]? = some (.str "Red Sox") ∧
        ((listed "team_name").plan.columns.row values).get? entry.label = some (.str "Reds")) ∧
    (start "nick").call? (.join .inner (.model (unrelated.1.target (catalog "nick")))) =
        some paired ∧
      paired.call? (.addField ⟨7⟩) = some picked ∧ picked.plan.errors = [] ∧
      ¬ (picked.plan.columns.selected.map (·.label)).Nodup := by
  have hrelated : ∃ entry, (listed "team_name").plan.columns.selected[3]? = some entry ∧
      entry.column = teamName ∧ values[3]? = some (.str "Red Sox") ∧
      ((listed "team_name").plan.columns.row values).get? entry.label = some (.str "Reds") :=
    ⟨_, rfl, rfl, rfl, rfl⟩
  exact ⟨by decide, ⟨rfl, rfl, rfl, by decide, hrelated⟩, rfl, rfl, rfl, by decide⟩

end Rosters

end FieldQuery
