import FieldQuery.Proofs.Plan.Entries

/-!
# What links name

The linked columns of a joined reference become conditions on the columns that share their tokens.
A token goes on standing for the column that was mapped first with it.  So the local column of a
link is the one of the row that the reference hangs off, unless its token had been mapped before:
then the condition names the column that was, further up the chain of relations.  That is what
happens to a key that leads up and down again.

Main definitions:

- `Query.Maps`: a query in which a reference is mapped.
- `RelationJoin`: a join of what a relation of a mapped reference leads to.

Main statement: `RelationJoin.links_name_first`.
-/

namespace FieldQuery

namespace Query

/-- A query in which a reference is mapped, and the plan that it was mapped into. -/
inductive Maps (target : ModelTarget) : Plan → Query → Prop
  | root {dialect : Dialect} {catalog : Catalog} {cacheable : Bool} {lazyJoins : List JoinRule} :
      Maps target
        { dialect := dialect, catalog := catalog, model := (Target.model target).toModel.table
          cacheable := cacheable, lazyJoins := lazyJoins }
        (.start dialect catalog cacheable lazyJoins (.model target))
  | join {query next : Query} {kind : JoinKind}
      (hnext : query.call? (.join kind (.model target)) = some next) :
      Maps target query.plan.closeJoin next
  | later {before : Plan} {query next : Query} {call : Call} (h : Maps target before query)
      (hnext : query.call? call = some next) : Maps target before next

/-- The reference is mapped without an error, and its fields go on being known. -/
theorem Maps.mapped {target : ModelTarget} {before : Plan} {query : Query}
    (h : query.Maps target before) (herrors : query.plan.errors = []) :
    query.plan.dialect = before.dialect ∧
      (before.mappedColumns target).1.Extends query.plan.columns := by
  induction h with
  | @root dialect catalog cacheable lazyJoins =>
      rcases Plan.mapTarget_of_mapRoot herrors with ⟨next, mapped, hmap, -⟩
      have hdialect := congrArg Grounds.dialect (Plan.continues_of_mapTarget hmap).grounds
      have hstart := congrArg Plan.dialect (Plan.mapRoot_of_ok hmap)
      refine ⟨hstart.trans hdialect, ?_⟩
      rw [← Plan.columns_mapRoot herrors]
      exact .refl _
  | @join query next kind hnext =>
      refine ⟨congrArg Grounds.dialect (continues_call? hnext).grounds, ?_⟩
      rw [(mapped_join hnext herrors).1]
      exact .refl _
  | later h hnext ih =>
      have hcontinues := continues_call? hnext
      rcases ih (hcontinues.errors_nil herrors) with ⟨hdialect, hextends⟩
      exact ⟨(congrArg Grounds.dialect hcontinues.grounds).trans hdialect,
        hextends.trans hcontinues.columns⟩

/-- A token that was new stands for the first column of the reference that has it. -/
theorem Maps.first {target : ModelTarget} {before : Plan} {query : Query}
    (h : query.Maps target before) (herrors : query.plan.errors = []) {token : Token}
    {column : Column} (hnew : before.columns.contains token = false)
    (hcolumn : target.columnOf? token = some column) :
    ∃ entry, query.plan.columns.find? token = some entry ∧
      entry.fixed = ((before.scopeOf target).entry column token).fixed := by
  rcases h.mapped herrors with ⟨-, hextends⟩
  rcases MappingScope.find?_mapColumns (before.columns, []) hnew
    (ModelTarget.columnOf?_eq_some.1 hcolumn) with ⟨entry, hentry, hfixed⟩
  rcases hextends.find? hentry with ⟨later, hlater, hsame⟩
  exact ⟨later, hlater, hsame.trans hfixed⟩

/-- A token that was known stands for what it stood for. -/
theorem Maps.earlier {target : ModelTarget} {before : Plan} {query : Query}
    (h : query.Maps target before) (herrors : query.plan.errors = []) {token : Token}
    {entry : Entry} (hfound : before.columns.find? token = some entry) :
    ∃ later, query.plan.columns.find? token = some later ∧ later.fixed = entry.fixed := by
  rcases h.mapped herrors with ⟨-, hextends⟩
  have hmapped : before.columns.Extends (before.mappedColumns target).1 :=
    MappingScope.extends_mapColumns _ _ (before.columns, [])
  exact (hmapped.trans hextends).find? hfound

end Query

/-- What a relation leads to is joined to a query that the relation is mapped in. -/
structure RelationJoin where
  catalog : Catalog
  forest : Forest
  grown : forest.Grown catalog
  /-- The reference that the relation belongs to. -/
  near : Reference
  near_built : near ∈ forest.built
  /-- The relation, and its place among the columns. -/
  index : Nat
  column : Column
  column_eq : (catalog.table near.table).columns[index]? = some column
  relation : Relation
  relation_eq : column.relation = some relation
  /-- The reference that the relation leads to. -/
  far : Reference
  far_built : far ∈ forest.built
  place_eq : far.place = near.place.under index
  root : Target
  query : Query
  on : query.On root
  /-- The relation's entry. -/
  parent : Entry
  parent_eq : query.plan.columns.relation? far.own = some parent
  parent_column : parent.column = column
  /-- The aliases of the joined columns start with a stem of their own. -/
  stem_ne : parent.stem ≠ "" ∧ parent.stem ≠ detachedStem
  kind : JoinKind
  next : Query
  joins : query.call? (.join kind (.model (far.target catalog))) = some next
  clean : next.plan.errors = []

namespace RelationJoin

variable (join : RelationJoin)

/-- The alias that the join opens. -/
def correlation : String :=
  join.query.plan.dialect.quote (trimStem join.parent.stem)

theorem clean_query : join.query.plan.errors = [] :=
  (Query.continues_call? join.joins).errors_nil join.clean

theorem relation?_own : join.query.plan.closeJoin.parentOf (join.far.target join.catalog) =
    some join.parent :=
  join.parent_eq

/-- What the far reference's columns are mapped under. -/
def scope : MappingScope :=
  join.query.plan.closeJoin.scopeOf (join.far.target join.catalog)

theorem stem_scope : join.scope.stem = join.parent.stem := by
  unfold scope Plan.scopeOf
  rw [join.relation?_own]

theorem isRelated_scope : join.scope.isRelated = true := by
  simp [MappingScope.isRelated, join.stem_scope, join.stem_ne.1, join.stem_ne.2]

theorem quotedTable_scope : join.scope.quotedTable = join.correlation := by
  rw [MappingScope.quotedTable, if_pos join.isRelated_scope, join.stem_scope]
  rfl

/-- A column that the relation links may become a condition. -/
theorem mayLink_scope {remote : Column} {link : String × String}
    (hlink : join.relation.links.find? (·.1 == remote.name) = some link) :
    join.scope.mayLink remote = true := by
  have hparent : join.scope.parent = some join.parent := join.relation?_own
  have hrelation : join.parent.column.relation = some join.relation := by
    rw [join.parent_column, join.relation_eq]
  have hlinked : join.relation.linksColumn remote.name = true :=
    List.any_eq_true.2 ⟨link, List.mem_of_find?_eq_some hlink, by simpa using List.find?_some hlink⟩
  simp [MappingScope.mayLink, join.isRelated_scope, hparent, hrelation, hlinked]

/-- The relation entry's source is that of every column that came in with it. -/
theorem quotedTable_parent {before : Plan}
    (hmaps : join.query.Maps (join.near.target join.catalog) before)
    (hnew : before.columns.contains join.far.own = false) :
    join.parent.quotedTable =
      (before.scopeOf (join.near.target join.catalog)).quotedTable := by
  rcases (join.grown.orderly.linked join.near_built join.far_built join.column_eq join.relation_eq
    join.place_eq).2.1 with ⟨shared, target, hhandle⟩
  have htoken : join.near.columnTokens[join.index]? = some join.far.own := by
    simp [Reference.columnTokens, hhandle, Handle.token]
  have hmem : (join.column, join.far.own) ∈
      (join.near.target join.catalog).table.columns.zip (join.near.target join.catalog).tokens :=
    ModelTarget.mem_zip join.column_eq htoken
  rcases ModelTarget.exists_columnOf? hmem with ⟨first, hfirst⟩
  rcases hmaps.first join.clean_query hnew hfirst with ⟨entry, hentry, hfixed⟩
  -- the relation entry is the only one of its token
  have hparent := (join.on.distinct.relation? join.parent_eq).1
  have hsame : entry = join.parent := by simpa [hparent] using hentry.symm
  rw [← hsame]
  exact (congrArg Entry.quotedTable hfixed :)

/-- What the far reference brings in. -/
theorem mapped_next :
    join.next.plan.columns =
        (join.query.plan.closeJoin.mappedColumns (join.far.target join.catalog)).1 ∧
      join.next.plan.links =
        (join.query.plan.closeJoin.mappedColumns (join.far.target join.catalog)).2 ∧
      ∃ source,
        join.next.plan.openJoin = some ⟨join.kind, source, some join.correlation, []⟩ := by
  rcases Query.mapped_join join.joins join.clean with ⟨hcolumns, hlinks, source, hopen⟩
  rw [join.relation?_own] at hopen
  exact ⟨hcolumns, hlinks, source, hopen⟩

variable {near remote : Column} {token : Token}

/-- Each condition compares a column of the joined reference with what its token stands for. -/
theorem of_mem_links {filter : Filter} (h : filter ∈ join.next.plan.links) :
    ∃ remote ∈ (join.catalog.table join.far.table).columns, ∃ token entry,
      join.next.plan.columns.queryable token = .ok entry ∧
      filter = .link entry.quotedTable entry.quotedColumn join.correlation
        (join.query.plan.dialect.quote remote.name) := by
  rcases join.mapped_next with ⟨hcolumns, hlinks, -⟩
  rw [hlinks] at h
  rcases MappingScope.mem_links_mapColumns h with hnone |
    ⟨⟨remote, token⟩, hpair, entry, -, hfound, hlink⟩
  · cases hnone
  · refine ⟨remote, (List.of_mem_zip hpair).1, token, entry, ?_, ?_⟩
    · rw [hcolumns]
      exact hfound
    · rw [hlink, ← join.quotedTable_scope]
      rfl

/-- A linked column has the token of the local one, so it is compared with what that stands for. -/
theorem mem_links (hnear : (join.near.target join.catalog).columnOf? token = some near)
    (hremote : remote ∈ (join.catalog.table join.far.table).columns)
    (hlink : join.relation.links.find? (·.1 == remote.name) = some (remote.name, near.name))
    {entry : Entry} (hfound : join.query.plan.columns.queryable token = .ok entry) :
    .link entry.quotedTable entry.quotedColumn join.correlation
      (join.query.plan.dialect.quote remote.name) ∈ join.next.plan.links := by
  rcases ModelTarget.mem_of_columnOf? hnear with ⟨place, hcolumn, htoken⟩
  rcases List.getElem?_of_mem hremote with ⟨other, hother⟩
  have hshared : join.far.columnTokens[other]? = some token :=
    (join.grown.orderly.linked join.near_built join.far_built join.column_eq join.relation_eq
      join.place_eq).2.2 hcolumn htoken hother hlink
  have hmem : (remote, token) ∈ (join.far.target join.catalog).table.columns.zip
      (join.far.target join.catalog).tokens := ModelTarget.mem_zip hother hshared
  have hlinked := MappingScope.links_mapColumns (join.query.plan.columns, []) hmem
    (join.mayLink_scope hlink) hfound
  rw [MappingScope.linkTo, join.quotedTable_scope] at hlinked
  rw [join.mapped_next.2.1]
  exact hlinked

/-- The local column of a link is the one of the row that the relation belongs to, if its token was
new when that was mapped. -/
theorem entry_of_new {before : Plan} (hmaps : join.query.Maps (join.near.target join.catalog) before)
    (hown : before.columns.contains join.far.own = false)
    (hnear : (join.near.target join.catalog).columnOf? token = some near)
    (hnew : before.columns.contains token = false) {entry : Entry}
    (hentry : join.query.plan.columns.find? token = some entry) :
    entry.column = near ∧ entry.quotedTable = join.parent.quotedTable ∧
      entry.quotedColumn = join.query.plan.dialect.quote near.name := by
  rcases hmaps.first join.clean_query hnew hnear with ⟨found, hfound, hfixed⟩
  have hsame : found = entry := by simpa [hentry] using hfound.symm
  have hname : found.quotedColumn = before.dialect.quote near.name :=
    (congrArg Entry.quotedColumn hfixed :)
  have hdialect := (hmaps.mapped join.clean_query).1
  rw [← hsame, join.quotedTable_parent hmaps hown, hdialect]
  exact ⟨(congrArg Entry.column hfixed :), (congrArg Entry.quotedTable hfixed :), hname⟩

/-- The linked columns of what a relation leads to are conditions on the columns that their tokens
stand for.  The local column of a link has the source of the relation's entry and its own name if its
token was new when the two were mapped; otherwise it is the column that the token had been mapped
for before, further up. -/
theorem links_name_first :
    (∃ source, join.next.plan.openJoin = some ⟨join.kind, source, some join.correlation, []⟩) ∧
      (∀ filter ∈ join.next.plan.links,
        ∃ remote ∈ (join.catalog.table join.far.table).columns, ∃ token entry,
          join.next.plan.columns.queryable token = .ok entry ∧
          filter = .link entry.quotedTable entry.quotedColumn join.correlation
            (join.query.plan.dialect.quote remote.name)) ∧
      ∀ (near remote : Column) (token : Token),
        (join.near.target join.catalog).columnOf? token = some near →
        remote ∈ (join.catalog.table join.far.table).columns →
        join.relation.links.find? (·.1 == remote.name) = some (remote.name, near.name) →
        (∀ entry, join.query.plan.columns.queryable token = .ok entry →
          .link entry.quotedTable entry.quotedColumn join.correlation
            (join.query.plan.dialect.quote remote.name) ∈ join.next.plan.links) ∧
        ∀ before, join.query.Maps (join.near.target join.catalog) before →
          before.columns.contains join.far.own = false →
          ∃ entry, join.query.plan.columns.find? token = some entry ∧
            (before.columns.contains token = false →
              entry.column = near ∧ entry.quotedTable = join.parent.quotedTable ∧
                entry.quotedColumn = join.query.plan.dialect.quote near.name) ∧
            ∀ earlier, before.columns.find? token = some earlier →
              entry.fixed = earlier.fixed := by
  refine ⟨join.mapped_next.2.2, fun _ => join.of_mem_links, ?_⟩
  intro near remote token hnear hremote hlink
  refine ⟨fun _ => join.mem_links hnear hremote hlink, ?_⟩
  intro before hmaps hown
  rcases ModelTarget.mem_of_columnOf? hnear with ⟨place, hcolumn, htoken⟩
  have hknown : join.query.plan.columns.contains token = true :=
    (hmaps.mapped join.clean_query).2.contains
      (MappingScope.contains_mapColumns (ModelTarget.mem_zip hcolumn htoken))
  rcases ColumnMap.exists_find? hknown with ⟨entry, hentry⟩
  refine ⟨entry, hentry, fun hnew => join.entry_of_new hmaps hown hnear hnew hentry, ?_⟩
  intro earlier hearlier
  rcases hmaps.earlier join.clean_query hearlier with ⟨found, hfound, hfixed⟩
  have hsame : found = entry := by simpa [hentry] using hfound.symm
  rw [← hsame]
  exact hfixed

end RelationJoin

/-! ## Up and down again -/

namespace Squads

def key : Column :=
  { name := "id", field := "id", primaryKey := true }

def foreignKey : Column :=
  { name := "team_id", field := "team_id" }

def membership : Relation :=
  .belongsTo 0 "team_" "id" "team_id"

def home : Column :=
  ({ name := "team", field := "team" } : Column).withRelation membership

def squad : Column :=
  ({ name := "players", field := "players" } : Column).withRelation
    (.hasMany 1 "players_" "team_id" "id")

/-- A player who has just come. -/
def newcomer : Json :=
  .obj [("id", .ofInt 0), ("team_id", .ofInt 0), ("team", .null), ("shirt", .str "none")]

def catalog : Catalog :=
  ⟨[{ name := "teams", columns := [key, squad] },
    { name := "players", columns := [key, foreignKey, home], default := newcomer }]⟩

def planted : Reference × Forest :=
  ({} : Forest).plant catalog 0

/-- The players of the team. -/
def entered : Reference × Forest :=
  planted.2.enter catalog planted.1 1 ⟨3⟩ [("team_id", ⟨2⟩)] 1

/-- The team of those players. -/
def returned : Reference × Forest :=
  entered.2.enter catalog entered.1 2 ⟨5⟩ [("id", ⟨2⟩)] 0

theorem grown : returned.2.Grown catalog := by
  have hplanted : planted.2.Grown catalog := .plant .empty 0
  have hentered : entered.2.Grown catalog := .enter hplanted (by decide) rfl
  exact .enter hentered (by decide) rfl

def start : Query :=
  .start .postgres catalog false [] (.model (planted.1.target catalog))

def joined : Query :=
  ⟨.joining, start.plan.apply (.join .leftOuter (.model (entered.1.target catalog)))⟩

/-- The team with its players. -/
def listed : Query :=
  ⟨.joining, joined.plan.apply .references⟩

theorem call?_start :
    start.call? (.join .leftOuter (.model (entered.1.target catalog))) = some joined :=
  rfl

theorem call?_joined : joined.call? .references = some listed :=
  rfl

/-- The players' team is joined to the team with its players. -/
def rejoin : RelationJoin where
  catalog := catalog
  forest := returned.2
  grown := grown
  near := entered.1
  near_built := by decide
  index := 2
  column := home
  column_eq := rfl
  relation := membership
  relation_eq := rfl
  far := returned.1
  far_built := by decide
  place_eq := rfl
  root := .model (planted.1.target catalog)
  query := listed
  on := .call (.call .start call?_start) call?_joined
  parent := (listed.plan.columns.relation? ⟨5⟩).get rfl
  parent_eq := (Option.some_get _).symm
  parent_column := rfl
  stem_ne := by decide
  kind := .leftOuter
  next := ⟨.joining, listed.plan.apply (.join .leftOuter (.model (returned.1.target catalog)))⟩
  joins := rfl
  clean := rfl

/-- The foreign key of the players stands for the key of the first team, and that is what the key of
their team is compared with, although the relation's entry is read from the players. -/
theorem links_name_first_rejoin :
    rejoin.parent.quotedTable = "\"players\"" ∧ rejoin.correlation = "\"players_team\"" ∧
      (∃ entry earlier, listed.plan.columns.find? ⟨2⟩ = some entry ∧
        start.plan.columns.find? ⟨2⟩ = some earlier ∧ entry.fixed = earlier.fixed ∧
        earlier.quotedTable = "\"teams\"") ∧
      .link "\"teams\"" "\"id\"" "\"players_team\"" "\"id\"" ∈ rejoin.next.plan.links := by
  have hlocal : (entered.1.target catalog).columnOf? ⟨2⟩ = some foreignKey := by rfl
  have hremote : key ∈ (catalog.table returned.1.table).columns := by decide
  have hlink : membership.links.find? (·.1 == key.name) = some (key.name, foreignKey.name) := by rfl
  have hmaps : listed.Maps (entered.1.target catalog) start.plan.closeJoin :=
    .later (.join call?_start) call?_joined
  rcases rejoin.links_name_first.2.2 foreignKey key ⟨2⟩ hlocal hremote hlink with ⟨hnames, hfirst⟩
  rcases hfirst start.plan.closeJoin hmaps rfl with ⟨entry, hentry, -, hearlier⟩
  have hstart : ∃ earlier, start.plan.columns.find? ⟨2⟩ = some earlier ∧
      earlier.quotedTable = "\"teams\"" := ⟨_, rfl, rfl⟩
  have hlisted : ∃ entry, listed.plan.columns.queryable ⟨2⟩ = .ok entry ∧
      entry.quotedTable = "\"teams\"" ∧ entry.quotedColumn = "\"id\"" := ⟨_, rfl, rfl, rfl⟩
  rcases hstart with ⟨earlier, hteam, hname⟩
  rcases hlisted with ⟨known, hknown, htable, hcolumn⟩
  have hnamed := hnames known hknown
  rw [htable, hcolumn] at hnamed
  exact ⟨rfl, rfl, ⟨entry, earlier, hentry, hteam, hearlier earlier hteam, hname⟩, hnamed⟩

end Squads

end FieldQuery
