import FieldQuery.Declaration.Expansion
import FieldQuery.Proofs.Plan.Sources

/-!
# What attributes and types come to

The attributes of a declaration are taken in one after another.  Of several texts under one name the
last one counts, but every `referenced_by` does.  Attributes are refused if one is unknown, if one
has no value of its sort, or if those of a field do not go together.  The type of a relation is
peeled down to the related model, whatever the nesting of its wrappers.

Main definitions:

- `Attribute.Present`, `Attribute.texts`: the attributes of a name among others.
- `TableAttributes.behind`, `FieldAttributes.behind`: what attributes come to behind others.
- `FieldAttributes.Consistent`: attributes of a field that go together.
- `FieldType.Peels`: a type without its wrappers.

Main statements: `TableAttributes.ofItems_eq_ok`, `FieldAttributes.ofItems_eq_ok` and
`FieldType.peels_iff`.
-/

namespace FieldQuery

/-! ## Attributes -/

namespace Attribute

/-- An attribute of this name is among others. -/
def Present (name : String) (items : List Attribute) : Prop :=
  ∃ item ∈ items, item.name = name

/-- The text that an attribute is given, if it is one of this name. -/
def textOf? (name : String) (item : Attribute) : Option String :=
  match item.value with
  | some (.text text) => if item.name = name then some text else none
  | _ => none

/-- The texts that are given under a name, in order. -/
def texts (name : String) (items : List Attribute) : List String :=
  items.filterMap (textOf? name)

/-- The text that counts of those given under a name. -/
def lastText? (name : String) (items : List Attribute) : Option String :=
  (texts name items).getLast?

/-- An attribute without a value, of one of some names. -/
def FlagAmong (names : List String) (item : Attribute) : Prop :=
  item.name ∈ names ∧ item.value = none

/-- An attribute with a text, of one of some names. -/
def TextAmong (names : List String) (item : Attribute) : Prop :=
  item.name ∈ names ∧ ∃ text, item.value = some (.text text)

variable {item : Attribute} {items : List Attribute} {name : String}

/-- What is made of a text that is taken. -/
theorem map_textValue_eq_ok {κ : Type} {f : String → κ} {taken next : κ}
    (hf : ∀ text, item.value = some (.text text) → f text = taken) :
    item.textValue.map f = .ok next ↔
      (∃ text, item.value = some (.text text)) ∧ next = taken := by
  unfold textValue
  rcases hvalue : item.value with _ | text | _
  · simp [Except.map]
  · simp [Except.map, hf text hvalue, eq_comm]
  · simp [Except.map]

theorem map_flagValue_eq_ok {κ : Type} {f : Unit → κ} {taken next : κ}
    (hf : item.value = none → f () = taken) :
    item.flagValue.map f = .ok next ↔ item.value = none ∧ next = taken := by
  unfold flagValue
  rcases hvalue : item.value with _ | value
  · simp [Except.map, hf hvalue, eq_comm]
  · simp [Except.map]

theorem texts_nil : texts name [] = [] := rfl

theorem texts_cons :
    texts name (item :: items) = (item.textOf? name).toList ++ texts name items := by
  unfold texts
  rw [List.filterMap_cons]
  cases item.textOf? name <;> rfl

/-- Where an attribute takes a text, it is given just if a text is. -/
theorem texts_ne_nil_iff (h : ∀ item ∈ items, item.name = name →
    ∃ text, item.value = some (.text text)) : texts name items ≠ [] ↔ Present name items := by
  constructor
  · intro hne
    rcases List.exists_mem_of_ne_nil _ hne with ⟨text, htext⟩
    rcases List.mem_filterMap.1 htext with ⟨item, hitem, hsome⟩
    refine ⟨item, hitem, ?_⟩
    unfold textOf? at hsome
    split at hsome
    · split at hsome
      · assumption
      · cases hsome
    · cases hsome
  · rintro ⟨item, hitem, hname⟩
    rcases h item hitem hname with ⟨text, htext⟩
    have hmem : text ∈ texts name items :=
      List.mem_filterMap.2 ⟨item, hitem, by simp [textOf?, htext, hname]⟩
    exact List.ne_nil_of_mem hmem

theorem texts_of_text {text : String} (h : item.value = some (.text text)) :
    texts name [item] = if item.name = name then [text] else [] := by
  by_cases hname : item.name = name <;> simp [texts, textOf?, h, hname]

theorem texts_of_flag (h : item.value = none) : texts name [item] = [] := by
  simp [texts, textOf?, h]

theorem lastText?_nil : lastText? name [] = none := rfl

/-- Of several texts the last one counts. -/
theorem lastText?_cons :
    lastText? name (item :: items) = (lastText? name items).or (item.textOf? name) := by
  rw [lastText?, texts_cons, List.getLast?_append]
  cases item.textOf? name <;> rfl

theorem lastText?_of_text {text : String} (h : item.value = some (.text text)) :
    lastText? name [item] = if item.name = name then some text else none := by
  rw [lastText?, texts_of_text h]
  split <;> rfl

theorem lastText?_of_flag (h : item.value = none) : lastText? name [item] = none := by
  rw [lastText?, texts_of_flag h, List.getLast?_nil]

/-- Attributes that are taken in one by one. -/
theorem foldlM_eq_ok {κ : Type} {add : κ → Attribute → Except DeclarationError κ}
    {Fits : Attribute → Prop} {behind : κ → List Attribute → κ}
    (hadd : ∀ {known next item}, add known item = .ok next ↔
      Fits item ∧ next = behind known [item])
    (hnil : ∀ known, behind known [] = known)
    (hcons : ∀ known item items, behind (behind known [item]) items = behind known (item :: items))
    {items : List Attribute} {known last : κ} : items.foldlM add known = .ok last ↔
      (∀ item ∈ items, Fits item) ∧ last = behind known items := by
  induction items generalizing known with
  | nil => simp [hnil, pure, Except.pure, eq_comm]
  | cons item rest ih =>
      rw [List.foldlM_cons, bind_eq_ok, List.forall_mem_cons, ← hcons]
      constructor
      · rintro ⟨next, hnext, hrest⟩
        rcases hadd.1 hnext with ⟨hfits, rfl⟩
        rcases ih.1 hrest with ⟨hothers, hlast⟩
        exact ⟨⟨hfits, hothers⟩, hlast⟩
      · rintro ⟨⟨hfits, hothers⟩, hlast⟩
        exact ⟨_, hadd.2 ⟨hfits, rfl⟩, ih.2 ⟨hothers, hlast⟩⟩

end Attribute

open Attribute

namespace TableAttributes

/-- A table attribute with the value that it takes. -/
def Fits (item : Attribute) : Prop :=
  item.TextAmong ["table", "schema"]

/-- What table attributes come to behind others. -/
def behind (known : TableAttributes) (items : List Attribute) : TableAttributes where
  table := (lastText? "table" items).or known.table
  schema := (lastText? "schema" items).or known.schema

theorem fits_iff {item : Attribute} (hname : item.name ∈ ["table", "schema"]) :
    Fits item ↔ ∃ text, item.value = some (.text text) :=
  and_iff_right hname

theorem add_eq_ok {known next : TableAttributes} {item : Attribute} :
    known.add item = .ok next ↔ Fits item ∧ next = known.behind [item] := by
  unfold add
  split
  · rename_i hname
    rw [fits_iff (by simp [hname])]
    exact map_textValue_eq_ok fun text h => by simp [behind, lastText?_of_text h, hname]
  · split
    · rename_i hname
      rw [fits_iff (by simp [hname])]
      exact map_textValue_eq_ok fun text h => by simp [behind, lastText?_of_text h, hname]
    · rename_i htable hschema
      refine ⟨fun h => (by cases h), fun h => ?_⟩
      have hname := h.1.1
      simp [htable, hschema] at hname

theorem behind_cons (known : TableAttributes) (item : Attribute) (items : List Attribute) :
    (known.behind [item]).behind items = known.behind (item :: items) := by
  simp only [behind, lastText?_cons, lastText?_nil, Option.none_or, Option.or_assoc]

theorem ofItems_eq_ok {items : List Attribute} {known : TableAttributes} :
    ofItems items = .ok known ↔ (∀ item ∈ items, Fits item) ∧ known = behind {} items :=
  foldlM_eq_ok add_eq_ok (fun _ => rfl) behind_cons

end TableAttributes

namespace FieldAttributes

/-- The names of the attributes that take a text. -/
def textNames : List String :=
  ["column", "join_prefix", "referenced_by", "belongs_to", "references", "has_many", "key"]

/-- A field attribute with the value that it takes, or without one. -/
def Fits (item : Attribute) : Prop :=
  item.FlagAmong ["id", "transient"] ∨ item.TextAmong textNames

/-- What field attributes come to behind others: the last text of each name, but every
`referenced_by`. -/
def behind (known : FieldAttributes) (items : List Attribute) : FieldAttributes where
  isId := known.isId || items.any (·.name = "id")
  transient := known.transient || items.any (·.name = "transient")
  column := (lastText? "column" items).or known.column
  joinPrefix := (lastText? "join_prefix" items).or known.joinPrefix
  referencedBy := known.referencedBy ++ texts "referenced_by" items
  belongsTo := (lastText? "belongs_to" items).or known.belongsTo
  references := (lastText? "references" items).or known.references
  hasMany := (lastText? "has_many" items).or known.hasMany
  key := (lastText? "key" items).or known.key

theorem behind_empty (items : List Attribute) : behind {} items =
    { isId := items.any (·.name = "id")
      transient := items.any (·.name = "transient")
      column := lastText? "column" items
      joinPrefix := lastText? "join_prefix" items
      referencedBy := texts "referenced_by" items
      belongsTo := lastText? "belongs_to" items
      references := lastText? "references" items
      hasMany := lastText? "has_many" items
      key := lastText? "key" items } := by
  simp [behind]

theorem fits_flag {item : Attribute} (hname : item.name ∈ ["id", "transient"]) :
    Fits item ↔ item.value = none := by
  refine ⟨?_, fun h => .inl ⟨hname, h⟩⟩
  rintro (⟨-, hvalue⟩ | ⟨htext, -⟩)
  · exact hvalue
  · have happart : ∀ name ∈ ["id", "transient"], name ∉ textNames := by decide
    exact absurd htext (happart _ hname)

theorem fits_text {item : Attribute} (hname : item.name ∈ textNames) :
    Fits item ↔ ∃ text, item.value = some (.text text) := by
  refine ⟨?_, fun h => .inr ⟨hname, h⟩⟩
  rintro (⟨hflag, -⟩ | ⟨-, hvalue⟩)
  · have happart : ∀ name ∈ textNames, name ∉ ["id", "transient"] := by decide
    exact absurd hflag (happart _ hname)
  · exact hvalue

theorem add_eq_ok {known next : FieldAttributes} {item : Attribute} :
    known.add item = .ok next ↔ Fits item ∧ next = known.behind [item] := by
  unfold add
  dsimp only
  split
  -- a name that is none of these
  case h_10 =>
    refine ⟨fun h => (by cases h), ?_⟩
    rintro ⟨⟨hname, -⟩ | ⟨hname, -⟩, -⟩ <;> simp_all [textNames]
  case h_1 hname | h_2 hname =>
    rw [fits_flag (by simp [hname])]
    exact map_flagValue_eq_ok fun h => by
      simp [behind, texts_of_flag h, lastText?_of_flag h, hname]
  all_goals
    rename_i hname
    rw [fits_text (by simp [textNames, hname])]
    exact map_textValue_eq_ok fun text h => by
      simp [behind, texts_of_text h, lastText?_of_text h, hname]

theorem behind_cons (known : FieldAttributes) (item : Attribute) (items : List Attribute) :
    (known.behind [item]).behind items = known.behind (item :: items) := by
  have htexts : texts "referenced_by" [item] ++ texts "referenced_by" items =
      texts "referenced_by" (item :: items) := by
    rw [texts_cons, texts_cons, texts_nil, List.append_nil]
  simp only [behind, lastText?_cons, lastText?_nil, Option.none_or, Option.or_assoc,
    List.append_assoc, htexts, List.any_cons, List.any_nil, Bool.or_false, Bool.or_assoc]

theorem ite_error_eq_ok {fault : Prop} [Decidable fault] {error : DeclarationError}
    {rest : Except DeclarationError Unit} :
    (if fault then .error error else rest) = .ok () ↔ ¬ fault ∧ rest = .ok () := by
  by_cases hfault : fault <;> simp [hfault]

/-- Attributes of a field that go together. -/
structure Together (items : List Attribute) : Prop where
  one : ¬ (Present "belongs_to" items ∧ Present "has_many" items)
  references : Present "references" items → Present "belongs_to" items
  key : Present "key" items → Present "has_many" items
  joinPrefix : Present "join_prefix" items → Present "belongs_to" items ∨ Present "has_many" items
  /-- A relation is neither a key nor a column that is not stored. -/
  apart : Present "belongs_to" items ∨ Present "has_many" items →
    ¬ Present "id" items ∧ ¬ Present "transient" items

theorem isSome_relation? (known : FieldAttributes) :
    known.relation?.isSome ↔ known.belongsTo.isSome ∨ known.hasMany.isSome := by
  unfold relation?
  split <;> simp_all

variable {items : List Attribute} {name : String}

theorem present_iff_any : Present name items ↔ items.any (·.name = name) = true := by
  simp [Present]

theorem present_iff_isSome (hfits : ∀ item ∈ items, Fits item) (hname : name ∈ textNames) :
    Present name items ↔ (lastText? name items).isSome := by
  rw [lastText?, List.getLast?_isSome, texts_ne_nil_iff]
  rintro item hitem rfl
  exact (fits_text hname).1 (hfits item hitem)

theorem validate_eq_ok {known : FieldAttributes}
    (hid : Present "id" items ↔ known.isId) (htransient : Present "transient" items ↔ known.transient)
    (hjoinPrefix : Present "join_prefix" items ↔ known.joinPrefix.isSome)
    (hbelongsTo : Present "belongs_to" items ↔ known.belongsTo.isSome)
    (hreferences : Present "references" items ↔ known.references.isSome)
    (hhasMany : Present "has_many" items ↔ known.hasMany.isSome)
    (hkey : Present "key" items ↔ known.key.isSome) :
    known.validate = .ok () ↔ Together items := by
  have hrelation := isSome_relation? known
  unfold validate
  simp only [ite_error_eq_ok, ← Option.not_isSome]
  constructor
  · rintro ⟨hone, hreferences, hkey, hjoinPrefix, hapart, -⟩
    constructor <;> grind
  · rintro ⟨hone, hreferences, hkey, hjoinPrefix, hapart⟩
    refine ⟨?_, ?_, ?_, ?_, ?_, trivial⟩ <;> grind

theorem validate_behind (hfits : ∀ item ∈ items, Fits item) :
    (behind {} items).validate = .ok () ↔ Together items := by
  have hpresent : ∀ name ∈ textNames, (Present name items ↔ (lastText? name items).isSome) :=
    fun _ hname => present_iff_isSome hfits hname
  rw [behind_empty]
  exact validate_eq_ok present_iff_any present_iff_any (hpresent _ (by decide)) (hpresent _ (by decide))
    (hpresent _ (by decide)) (hpresent _ (by decide)) (hpresent _ (by decide))

theorem ofItems_eq_ok {known : FieldAttributes} :
    ofItems items = .ok known ↔
      (∀ item ∈ items, Fits item) ∧ Together items ∧ known = behind {} items := by
  have htaken : ∀ found, items.foldlM add {} = .ok found ↔
      (∀ item ∈ items, Fits item) ∧ found = behind {} items := fun found =>
    foldlM_eq_ok add_eq_ok (by simp [behind, lastText?_nil, texts_nil]) behind_cons
  unfold ofItems
  rw [bind_eq_ok]
  constructor
  · rintro ⟨found, hfound, hrest⟩
    rcases (htaken found).1 hfound with ⟨hfits, rfl⟩
    rcases bind_eq_ok.1 hrest with ⟨_, hvalid, hsame⟩
    cases hsame
    exact ⟨hfits, (validate_behind hfits).1 hvalid, rfl⟩
  · rintro ⟨hfits, htogether, rfl⟩
    exact ⟨_, (htaken _).2 ⟨hfits, rfl⟩,
      bind_eq_ok.2 ⟨(), (validate_behind hfits).2 htogether, rfl⟩⟩

end FieldAttributes

/-! ## Types -/

namespace FieldType

/-- A type without its wrappers, and whether a `Vec` is among them. -/
inductive Peels : FieldType → FieldType → Bool → Prop
  | bare {type : FieldType} (h : ∀ name ∈ ["Vec", "Option", "Box"], type.inner? name = none) :
      Peels type type false
  | vec {type inner target : FieldType} {many : Bool} (hinner : type.inner? "Vec" = some inner)
      (h : Peels inner target many) : Peels type target true
  | single {type inner target : FieldType} {many : Bool} {name : String}
      (hname : name = "Option" ∨ name = "Box") (hinner : type.inner? name = some inner)
      (h : Peels inner target many) : Peels type target many

theorem inner?_eq_some {type inner : FieldType} {name : String} :
    type.inner? name = some inner ↔
      ∃ path opening closing, type = .wrapper path name opening inner closing := by
  cases type with
  | plain text => simp [inner?]
  | wrapper path last opening held closing =>
      simp only [inner?, Option.ite_none_right_eq_some, Option.some.injEq, wrapper.injEq]
      constructor
      · rintro ⟨rfl, rfl⟩
        exact ⟨path, opening, closing, rfl, rfl, rfl, rfl, rfl⟩
      · rintro ⟨-, -, -, -, rfl, -, rfl, -⟩
        exact ⟨rfl, rfl⟩

theorem peels_relationTarget : ∀ type : FieldType,
    type.Peels type.relationTarget.1 type.relationTarget.2
  | .plain text => .bare fun _ _ => rfl
  | .wrapper path name opening inner closing => by
      have hinner := peels_relationTarget inner
      rw [relationTarget]
      split
      · rename_i hvec
        exact .vec (by simp [inner?, hvec]) hinner
      · split
        · rename_i hsingle
          exact .single hsingle (by simp [inner?]) hinner
        · rename_i hvec hsingle
          refine .bare fun wanted hwanted => ?_
          have hapart : name ≠ wanted := by
            rintro rfl
            simp_all
          simp [inner?, hapart]

/-- Peeling off all wrappers has one outcome. -/
theorem peels_iff {type target : FieldType} {many : Bool} :
    type.Peels target many ↔ type.relationTarget = (target, many) := by
  constructor
  · intro h
    induction h with
    | @bare type h =>
        cases type with
        | plain text => rfl
        | wrapper path name opening inner closing =>
            simp only [List.forall_mem_cons, inner?, ite_eq_right_iff, reduceCtorEq, imp_false] at h
            simp [relationTarget, h]
    | vec hinner _ ih =>
        rcases inner?_eq_some.1 hinner with ⟨path, opening, closing, rfl⟩
        simp [relationTarget, ih]
    | @single type inner target many name hname hinner _ ih =>
        rcases inner?_eq_some.1 hinner with ⟨path, opening, closing, rfl⟩
        have hvec : name ≠ "Vec" := by
          rcases hname with rfl | rfl <;> decide
        simp [relationTarget, hvec, hname, ih]
  · intro h
    have hpeels := peels_relationTarget type
    rwa [h] at hpeels

/-- Wrappers are peeled in any order. -/
example : FieldType.Peels
    (.wrapper "" "Option" "<" (.wrapper "std::vec::" "Vec" "<" (.plain "Player") ">") ">")
    (.plain "Player") true :=
  peels_iff.2 (by decide)

end FieldType

end FieldQuery
