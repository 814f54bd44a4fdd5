import FieldQuery.Proofs.Reference.Forest

/-!
# How fields are spelled

Behind a chain of relations, a field is spelled by their prefixes and its own name at the end.  The
texts are put together without a mark between them, so two fields may be spelled alike.  They are not
where no column is spelled like a relation's prefix and something that can stand behind it; a linked
column may, because it has the token of its other end.

Main definitions:

- `Forest.Spells`: a text that a field is spelled by, seen from a reference.
- `Catalog.Unambiguous`: no column gets in the way of a relation's prefix.

Main statement: `Forest.Spells.unique`.
-/

namespace FieldQuery

/-- What a column is spelled by in its own table. -/
def Column.spelling (column : Column) : String :=
  if column.relation.isSome then column.field else column.name

/-! ## Texts one behind the other -/

/-- What stands behind the beginning of a text. -/
def behind? (start text : String) : Option String :=
  if start.toList <+: text.toList then
    some (String.ofList (text.toList.drop start.toList.length))
  else none

theorem behind?_eq_some {start text rest : String} :
    behind? start text = some rest ↔ text = start ++ rest := by
  unfold behind?
  constructor
  · intro h
    split at h
    · rename_i hbegins
      rcases hbegins with ⟨back, hback⟩
      have hrest : rest.toList = back := by
        simp only [Option.some.injEq] at h
        rw [← h, ← hback]
        simp
      apply String.toList_inj.1
      rw [String.toList_append, hrest, hback]
    · cases h
  · rintro rfl
    simp

/-- Of two beginnings of one text, one is the beginning of the other. -/
theorem append_cases {a b x y : String} (h : a ++ x = b ++ y) :
    (∃ z, b = a ++ z ∧ x = z ++ y) ∨ ∃ z, a = b ++ z ∧ y = z ++ x := by
  have hlists : a.toList ++ x.toList = b.toList ++ y.toList := by
    simpa using congrArg String.toList h
  rcases List.append_eq_append_iff.1 hlists with ⟨z, hb, hx⟩ | ⟨z, ha, hy⟩
  · refine .inl ⟨String.ofList z, ?_, ?_⟩
    · exact String.toList_inj.1 (by simp [hb])
    · exact String.toList_inj.1 (by simp [hx])
  · refine .inr ⟨String.ofList z, ?_, ?_⟩
    · exact String.toList_inj.1 (by simp [ha])
    · exact String.toList_inj.1 (by simp [hy])

/-- A prefix that begins another one begins the field, or is the same. -/
theorem eq_or_begins {field other z : String} (h : other ++ "_" = field ++ "_" ++ z) :
    other = field ∨ ∃ rest, other = field ++ "_" ++ rest := by
  have hlists : other.toList ++ ['_'] = field.toList ++ ['_'] ++ z.toList := by
    simpa using congrArg String.toList h
  rcases List.eq_nil_or_concat' z.toList with hnil | ⟨front, last, hz⟩
  · refine .inl (String.toList_inj.1 ?_)
    simpa [hnil] using hlists
  · rw [hz, ← List.append_assoc] at hlists
    have hfront := (List.append_inj' hlists rfl).1
    exact .inr ⟨String.ofList front, String.toList_inj.1 (by simp [hfront])⟩

/-! ## Catalogs -/

namespace Catalog

/-- A column does not get in the way of a relation's prefix: if it begins with that, the rest spells
nothing behind the relation, but for the column that is linked with it; and if it is a relation
itself, nothing behind the one begins like what stands behind the other. -/
def Clears (catalog : Catalog) (column other : Column) : Prop :=
  ∀ relation ∈ column.relation, ∀ text ∈ behind? (column.field ++ "_") other.spelling,
    ∀ remote ∈ (catalog.table relation.target).columns,
      (remote.spelling = text →
        relation.links.find? (·.1 == remote.name) = some (remote.name, other.name)) ∧
      (remote.relation.isSome → behind? (remote.field ++ "_") text = none) ∧
      (other.relation.isSome → behind? (text ++ "_") remote.spelling = none ∧
        (remote.relation.isSome → behind? (remote.field ++ "_") (text ++ "_") = none))

/-- Two columns of a table are spelled apart, with all that stands behind them. -/
def SpelledApart (catalog : Catalog) (column other : Column) : Prop :=
  (column.relation.isSome ∨ other.relation.isSome → column.spelling ≠ other.spelling) ∧
    catalog.Clears column other ∧ catalog.Clears other column

theorem SpelledApart.symm {catalog : Catalog} {column other : Column}
    (h : catalog.SpelledApart column other) : catalog.SpelledApart other column :=
  ⟨fun hsome => (h.1 hsome.symm).symm, h.2.2, h.2.1⟩

instance (catalog : Catalog) (column other : Column) : Decidable (catalog.Clears column other) :=
  inferInstanceAs (Decidable (∀ relation ∈ column.relation,
    ∀ text ∈ behind? (column.field ++ "_") other.spelling,
      ∀ remote ∈ (catalog.table relation.target).columns,
        (remote.spelling = text →
          relation.links.find? (·.1 == remote.name) = some (remote.name, other.name)) ∧
        (remote.relation.isSome → behind? (remote.field ++ "_") text = none) ∧
        (other.relation.isSome → behind? (text ++ "_") remote.spelling = none ∧
          (remote.relation.isSome → behind? (remote.field ++ "_") (text ++ "_") = none))))

instance (catalog : Catalog) (column other : Column) :
    Decidable (catalog.SpelledApart column other) :=
  inferInstanceAs (Decidable (_ ∧ _))

/-- Relations are not stored and have the default prefix, and no column gets in their way. -/
structure Unambiguous (catalog : Catalog) : Prop extends catalog.TellsRelations where
  standard : ∀ table ∈ catalog.tables, ∀ column ∈ table.columns, ∀ relation ∈ column.relation,
    relation.joinPrefix = column.field ++ "_" ∧ column.transient = true
  apart : ∀ table ∈ catalog.tables, table.columns.Pairwise catalog.SpelledApart

variable {catalog : Catalog} {table : Nat} {column other : Column}

theorem Unambiguous.joinPrefix (h : catalog.Unambiguous) {relation : Relation}
    (hcolumn : column ∈ (catalog.table table).columns) (hrelation : column.relation = some relation) :
    relation.joinPrefix = column.field ++ "_" :=
  (h.standard _ (table_mem hcolumn) column hcolumn relation hrelation).1

theorem Unambiguous.eq_or_apart (h : catalog.Unambiguous) {index place : Nat}
    (hcolumn : (catalog.table table).columns[index]? = some column)
    (hother : (catalog.table table).columns[place]? = some other) :
    index = place ∨ catalog.SpelledApart column other :=
  Column.eq_or_of_pairwise (h.apart _ (table_mem (List.mem_of_getElem? hcolumn)))
    (fun _ _ => SpelledApart.symm) hcolumn hother

end Catalog

/-! ## Forests -/

namespace Forest

/-- A text that a field is spelled by, seen from a reference, and the field's token. -/
inductive Spells (catalog : Catalog) (forest : Forest) : Reference → String → Token → Prop
  | column {reference : Reference} {index : Nat} {column : Column} {token : Token}
      (hcolumn : (catalog.table reference.table).columns[index]? = some column)
      (htoken : reference.columnTokens[index]? = some token) :
      Spells catalog forest reference column.spelling token
  | relation {reference far : Reference} {index : Nat} {column : Column} {relation : Relation}
      {text : String} {token : Token}
      (hcolumn : (catalog.table reference.table).columns[index]? = some column)
      (hrelation : column.relation = some relation) (hfar : far ∈ forest.built)
      (hplace : far.place = reference.place.under index)
      (h : Spells catalog forest far text token) :
      Spells catalog forest reference (relation.joinPrefix ++ text) token

variable {catalog : Catalog} {forest : Forest} {reference far : Reference} {text : String}
  {token other : Token}

theorem Spells.cases (h : forest.Spells catalog reference text token) :
    (∃ (index : Nat) (column : Column),
      (catalog.table reference.table).columns[index]? = some column ∧
      reference.columnTokens[index]? = some token ∧ text = column.spelling) ∨
    ∃ far ∈ forest.built, ∃ (index : Nat) (column : Column) (relation : Relation) (rest : String),
      (catalog.table reference.table).columns[index]? = some column ∧
      column.relation = some relation ∧ far.place = reference.place.under index ∧
      text = relation.joinPrefix ++ rest ∧ forest.Spells catalog far rest token := by
  cases h with
  | column hcolumn htoken => exact .inl ⟨_, _, hcolumn, htoken, rfl⟩
  | relation hcolumn hrelation hfar hplace h =>
      exact .inr ⟨_, hfar, _, _, _, _, hcolumn, hrelation, hplace, rfl, h⟩

/-- Columns of one name have one token. -/
theorem Orderly.token_of_name (h : forest.Orderly catalog) (hmem : reference ∈ forest.built)
    {index place : Nat} {column second : Column}
    (hcolumn : (catalog.table reference.table).columns[index]? = some column)
    (htoken : reference.columnTokens[index]? = some token)
    (hsecond : (catalog.table reference.table).columns[place]? = some second)
    (hother : reference.columnTokens[place]? = some other) (hname : column.name = second.name) :
    token = other := by
  rcases h.origin reference hmem with ⟨-, -, -, -, ⟨-, final, -, hfollows⟩, -⟩
  have hfirst := Handle.token?_column hfollows hcolumn htoken
  have hlast := Handle.token?_column hfollows hsecond hother
  rw [hname, hlast] at hfirst
  simpa using hfirst.symm

/-- Two columns of one spelling. -/
theorem token_of_columns (hcatalog : catalog.Unambiguous) (horderly : forest.Orderly catalog)
    (hmem : reference ∈ forest.built) {index place : Nat} {column second : Column}
    (hcolumn : (catalog.table reference.table).columns[index]? = some column)
    (htoken : reference.columnTokens[index]? = some token)
    (hsecond : (catalog.table reference.table).columns[place]? = some second)
    (hother : reference.columnTokens[place]? = some other)
    (hspelling : column.spelling = second.spelling) : token = other := by
  rcases hcatalog.eq_or_apart hcolumn hsecond with rfl | hapart
  · simpa [htoken] using hother
  · -- neither is a relation, so they are spelled by their names
    have hplain : ¬ (column.relation.isSome ∨ second.relation.isSome) := fun hsome =>
      hapart.1 hsome hspelling
    rw [not_or] at hplain
    have hname : column.name = second.name := by
      simpa [Column.spelling, hplain.1, hplain.2] using hspelling
    exact horderly.token_of_name hmem hcolumn htoken hsecond hother hname

/-- A column that is spelled like a field behind a relation is the other end of a link. -/
theorem token_of_column_of_relation (hcatalog : catalog.Unambiguous)
    (horderly : forest.Orderly catalog) (hmem : reference ∈ forest.built)
    (hfar : far ∈ forest.built) {index place : Nat} {column second : Column} {relation : Relation}
    {rest : String} (hcolumn : (catalog.table reference.table).columns[index]? = some column)
    (hrelation : column.relation = some relation)
    (hplace : far.place = reference.place.under index)
    (hspells : forest.Spells catalog far rest token)
    (hsecond : (catalog.table reference.table).columns[place]? = some second)
    (hother : reference.columnTokens[place]? = some other)
    (hspelling : second.spelling = relation.joinPrefix ++ rest) : token = other := by
  rw [hcatalog.joinPrefix (List.mem_of_getElem? hcolumn) hrelation] at hspelling
  rcases hcatalog.eq_or_apart hcolumn hsecond with rfl | hapart
  · -- a relation is spelled shorter than its own prefix
    have hsame : second = column := by simpa [hcolumn] using hsecond.symm
    have hfield : column.field = column.field ++ "_" ++ rest := by
      simpa [hsame, Column.spelling, hrelation] using hspelling
    have hlength := congrArg String.length hfield
    have hmark : "_".length = 1 := rfl
    rw [String.length_append, String.length_append, hmark] at hlength
    omega
  · rcases horderly.linked hmem hfar hcolumn hrelation hplace with ⟨htable, -, hlinked⟩
    have hclear := hapart.2.1 relation hrelation rest (behind?_eq_some.2 hspelling)
    rcases hspells.cases with ⟨index', remote, hremote, htoken, rfl⟩ |
      ⟨-, -, index', remote, next, more, hremote, hnext, -, rfl, -⟩
    · have hmem' : remote ∈ (catalog.table relation.target).columns := by
        rw [← htable]
        exact List.mem_of_getElem? hremote
      have hlink := (hclear remote hmem').1 rfl
      simpa [htoken] using hlinked hsecond hother hremote hlink
    · have hmem' : remote ∈ (catalog.table relation.target).columns := by
        rw [← htable]
        exact List.mem_of_getElem? hremote
      have hnone := (hclear remote hmem').2.1 (by simp [hnext])
      rw [hcatalog.joinPrefix (List.mem_of_getElem? hremote) hnext,
        behind?_eq_some.2 rfl] at hnone
      cases hnone

/-- What stands behind a relation does not begin like another relation of the same table. -/
theorem not_spells_of_relation (hcatalog : catalog.Unambiguous) (horderly : forest.Orderly catalog)
    (hmem : reference ∈ forest.built) (hfar : far ∈ forest.built) {index : Nat}
    {column second : Column} {relation : Relation} {z rest : String}
    (hcolumn : (catalog.table reference.table).columns[index]? = some column)
    (hrelation : column.relation = some relation)
    (hplace : far.place = reference.place.under index)
    (hapart : catalog.SpelledApart column second) (hsecond : second.relation.isSome)
    (hbegins : second.field ++ "_" = column.field ++ "_" ++ z) :
    ¬ forest.Spells catalog far (z ++ rest) token := by
  have hfirst : column.relation.isSome := by simp [hrelation]
  rcases eq_or_begins hbegins with heq | ⟨more, hmore⟩
  · have hspelling : column.spelling = second.spelling := by
      simp [Column.spelling, hfirst, hsecond, heq]
    exact absurd hspelling (hapart.1 (.inl hfirst))
  · have hz : z = more ++ "_" := by
      rw [hmore] at hbegins
      apply String.toList_inj.1
      simpa using (congrArg String.toList hbegins).symm
    have hbehind : behind? (column.field ++ "_") second.spelling = some more :=
      behind?_eq_some.2 (by simpa [Column.spelling, hsecond] using hmore)
    have hclear := hapart.2.1 relation hrelation more hbehind
    rw [← (horderly.linked hmem hfar hcolumn hrelation hplace).1] at hclear
    rw [hz]
    intro hspells
    rcases hspells.cases with ⟨index', remote, hremote, -, htext⟩ |
      ⟨-, -, index', remote, next, more', hremote, hnext, -, htext, -⟩
    · have hnone := ((hclear remote (List.mem_of_getElem? hremote)).2.2 hsecond).1
      rw [behind?_eq_some.2 htext.symm] at hnone
      cases hnone
    · have hlast : remote.relation.isSome := by simp [hnext]
      rcases (hclear remote (List.mem_of_getElem? hremote)).2.2 hsecond with ⟨hfield, hstem⟩
      rw [hcatalog.joinPrefix (List.mem_of_getElem? hremote) hnext] at htext
      rcases append_cases htext with ⟨w, hw, -⟩ | ⟨w, hw, -⟩
      · -- the further relation begins like the other one, or is spelled like the rest of it
        rcases eq_or_begins hw with hsame | ⟨tail, htail⟩
        · have hself : more ++ "_" = remote.field ++ "_" ++ "" := by simp [hsame]
          rw [behind?_eq_some.2 hself] at hstem
          cases hstem hlast
        · have hspelling : remote.spelling = more ++ "_" ++ tail := by
            simpa [Column.spelling, hlast] using htail
          rw [behind?_eq_some.2 hspelling] at hfield
          cases hfield
      · rw [behind?_eq_some.2 hw] at hstem
        cases hstem hlast

/-- Seen from one reference, a text spells one field. -/
theorem Spells.unique (hcatalog : catalog.Unambiguous) (horderly : forest.Orderly catalog)
    (hmem : reference ∈ forest.built) (h : forest.Spells catalog reference text token)
    (h' : forest.Spells catalog reference text other) : token = other := by
  induction h with
  | @column reference index column token hcolumn htoken =>
      rcases h'.cases with ⟨place, second, hsecond, hother, hspelling⟩ |
        ⟨far, hfar, place, second, relation, rest, hsecond, hrelation, hplace, hspelling, hspells⟩
      · exact token_of_columns hcatalog horderly hmem hcolumn htoken hsecond hother hspelling
      · exact (token_of_column_of_relation hcatalog horderly hmem hfar hsecond hrelation hplace
          hspells hcolumn htoken hspelling).symm
  | @relation reference far index column relation text token hcolumn hrelation hfar hplace h ih =>
      rcases h'.cases with ⟨place, second, hsecond, hother, hspelling⟩ |
        ⟨far', hfar', place, second, relation', rest, hsecond, hrelation', hplace', htext, hspells⟩
      · exact token_of_column_of_relation hcatalog horderly hmem hfar hcolumn hrelation hplace h
          hsecond hother hspelling.symm
      · rcases hcatalog.eq_or_apart hcolumn hsecond with rfl | hapart
        · -- one relation leads to one reference
          have hsame : second = column := by simpa [hcolumn] using hsecond.symm
          have hsame' : relation' = relation := by simpa [hsame, hrelation] using hrelation'.symm
          have hreference : far' = far :=
            horderly.places far' hfar' far hfar (hplace'.trans hplace.symm)
          have hrest : text = rest := by
            apply String.toList_inj.1
            simpa [hsame'] using congrArg String.toList htext
          rw [hreference, ← hrest] at hspells
          exact ih hfar hspells
        · -- of two relations, the prefix of one would begin that of the other
          have hfirst : column.relation.isSome := by simp [hrelation]
          have hlast : second.relation.isSome := by simp [hrelation']
          rw [hcatalog.joinPrefix (List.mem_of_getElem? hcolumn) hrelation,
            hcatalog.joinPrefix (List.mem_of_getElem? hsecond) hrelation'] at htext
          rcases append_cases htext with ⟨z, hz, hbehind⟩ | ⟨z, hz, hbehind⟩
          · rw [hbehind] at h
            exact absurd h (not_spells_of_relation hcatalog horderly hmem hfar hcolumn hrelation
              hplace hapart hlast hz)
          · rw [hbehind] at hspells
            exact absurd hspells (not_spells_of_relation hcatalog horderly hmem hfar' hsecond
              hrelation' hplace' hapart.symm hfirst hz)

end Forest

end FieldQuery
