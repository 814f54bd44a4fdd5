import FieldQuery.Proofs.Declaration.Attributes

/-!
# What declared fields stand for

A field stands for a column of the table and for a handle of the reference.  If it is a relation,
its attributes give the one link, which is part of both, and its type gives the related model.  A
field is accepted just if all its attributes are known, they go together, and the type has a `Vec`
among its wrappers just if the relation leads to many.

Main definitions:

- `DeclaredField.Links`: the relation that the attributes of a field give.
- `DeclaredField.StandsFor`: what a field stands for on both sides.
- `DeclaredField.Acceptable`: a field without a fault.

Main statements: `DeclaredField.expand_eq_ok` and `DeclaredField.exists_expand_iff`.
-/

namespace FieldQuery

open Attribute

/-- The kind of a relation, the related column, and the column of this table that it is linked
to. -/
def DeclaredRelation.link : DeclaredRelation → RelationKind × String × String
  | .belongsTo foreignKey references => (.belongsTo, references, foreignKey)
  | .hasMany foreignKey key => (.hasMany, foreignKey, key)

/-- The attribute that declares a relation of a kind. -/
def RelationKind.attribute : RelationKind → String
  | .belongsTo => "belongs_to"
  | .hasMany => "has_many"

namespace DeclaredField

/-- A relation of some kind, with the related column and the column of this table that it is linked
to. -/
inductive Links (field : DeclaredField) : RelationKind → String → String → Prop
  | belongsTo {foreignKey : String}
      (h : lastText? "belongs_to" field.attributes = some foreignKey) :
      Links field .belongsTo ((lastText? "references" field.attributes).getD "id") foreignKey
  | hasMany {foreignKey : String} (h : lastText? "has_many" field.attributes = some foreignKey) :
      Links field .hasMany foreignKey ((lastText? "key" field.attributes).getD "id")

/-- The description of a field's column; a relation is one step more. -/
def description (field : DeclaredField) (steps : List ColumnStep) : ColumnDescription where
  name := (lastText? "column" field.attributes).getD (unraw field.name)
  field := unraw field.name
  steps := columnSteps (.behind {} field.attributes) ++ steps

/-- What is put in front of the aliases of related columns. -/
def joinPrefix (field : DeclaredField) : String :=
  (lastText? "join_prefix" field.attributes).getD (unraw field.name ++ "_")

/-- A field that is no relation. -/
def plainExpansion (field : DeclaredField) : FieldExpansion where
  name := field.name
  handle := .field field.type.withoutOption
  builder := .field (field.description []).name
  column := field.description []

/-- A relation to a model, with its one link. -/
def relationExpansion (field : DeclaredField) (kind : RelationKind) (model : FieldType)
    (remote near : String) : FieldExpansion where
  name := field.name
  handle := .relation model
  builder := .relation (field.description []).name [(remote, near)]
  column := field.description [.relation kind model field.joinPrefix remote near]

/-- What a field stands for: the description of a column on one side, on the other a handle and the
way that it is built. -/
inductive StandsFor (field : DeclaredField) : FieldExpansion → Prop
  | plain (h : ∀ kind remote near, ¬ field.Links kind remote near) :
      StandsFor field field.plainExpansion
  | relation {kind : RelationKind} {model : FieldType} {remote near : String}
      (hlinks : field.Links kind remote near)
      (hmodel : field.type.Peels model (kind == .hasMany)) :
      StandsFor field (field.relationExpansion kind model remote near)

/-- A field without a fault. -/
structure Acceptable (field : DeclaredField) : Prop where
  /-- All attributes are known and have the values that they take. -/
  fits : ∀ item ∈ field.attributes, FieldAttributes.Fits item
  together : FieldAttributes.Together field.attributes
  /-- A `Vec` is among the wrappers of the type just if the relation leads to many. -/
  single : Present "belongs_to" field.attributes → ∃ model, field.type.Peels model false
  many : Present "has_many" field.attributes → ∃ model, field.type.Peels model true

variable {field : DeclaredField} {expansion : FieldExpansion}

theorem linkOf_eq_ok {relation : DeclaredRelation} {many : Bool}
    {link : RelationKind × String × String} :
    linkOf relation many = .ok link ↔ link = relation.link ∧ many = (link.1 == .hasMany) := by
  cases relation <;> cases many <;>
    simp +contextual [linkOf, DeclaredRelation.link, eq_comm, beq_eq_decide]

theorem links_iff (htogether : FieldAttributes.Together field.attributes)
    (hfits : ∀ item ∈ field.attributes, FieldAttributes.Fits item) {kind : RelationKind}
    {remote near : String} : field.Links kind remote near ↔
      ∃ relation, (FieldAttributes.behind {} field.attributes).relation? = some relation ∧
        (kind, remote, near) = relation.link := by
  have hone : ¬ ((lastText? "belongs_to" field.attributes).isSome ∧
      (lastText? "has_many" field.attributes).isSome) := by
    have h := htogether.one
    rwa [FieldAttributes.present_iff_isSome hfits (by decide),
      FieldAttributes.present_iff_isSome hfits (by decide)] at h
  rw [FieldAttributes.behind_empty]
  unfold FieldAttributes.relation?
  constructor
  · intro h
    cases h with
    | belongsTo h =>
        simp only [h]
        exact ⟨_, rfl, rfl⟩
    | hasMany h =>
        -- the other kind is looked for first
        have hnone : lastText? "belongs_to" field.attributes = none := by simpa [h] using hone
        simp only [h, hnone]
        exact ⟨_, rfl, rfl⟩
  · rintro ⟨relation, hrelation, hlink⟩
    split at hrelation
    · rename_i hsome
      cases hrelation
      cases hlink
      exact .belongsTo hsome
    · rename_i hsome
      cases hrelation
      cases hlink
      exact .hasMany hsome
    · cases hrelation

theorem relation?_eq_none (htogether : FieldAttributes.Together field.attributes)
    (hfits : ∀ item ∈ field.attributes, FieldAttributes.Fits item) :
    (FieldAttributes.behind {} field.attributes).relation? = none ↔
      ∀ kind remote near, ¬ field.Links kind remote near := by
  simp only [links_iff htogether hfits]
  cases hrelation : (FieldAttributes.behind {} field.attributes).relation? with
  | none => simp
  | some relation =>
      simp only [reduceCtorEq, Option.some.injEq, false_iff, not_forall, not_not]
      exact ⟨_, _, _, relation, rfl, rfl⟩

theorem expand_eq_ok_iff_together : field.expand = .ok expansion ↔
    (∀ item ∈ field.attributes, FieldAttributes.Fits item) ∧
      FieldAttributes.Together field.attributes ∧ field.StandsFor expansion := by
  have hcolumn : (FieldAttributes.behind {} field.attributes).column =
      lastText? "column" field.attributes := by
    rw [FieldAttributes.behind_empty]
  have hjoinPrefix : (FieldAttributes.behind {} field.attributes).joinPrefix =
      lastText? "join_prefix" field.attributes := by
    rw [FieldAttributes.behind_empty]
  unfold expand
  rw [bind_eq_ok]
  constructor
  · rintro ⟨known, hknown, hrest⟩
    rcases FieldAttributes.ofItems_eq_ok.1 hknown with ⟨hfits, htogether, rfl⟩
    refine ⟨hfits, htogether, ?_⟩
    rw [hcolumn, hjoinPrefix] at hrest
    split at hrest
    · rename_i hnone
      cases hrest
      have hplain := StandsFor.plain ((relation?_eq_none htogether hfits).1 hnone)
      rwa [plainExpansion, description, List.append_nil] at hplain
    · rename_i relation hrelation
      rcases bind_eq_ok.1 hrest with ⟨⟨kind, remote, near⟩, hlink, hsame⟩
      cases hsame
      rcases linkOf_eq_ok.1 hlink with ⟨hlinked, hmany⟩
      have hlinks := (links_iff htogether hfits).2 ⟨relation, hrelation, hlinked⟩
      have hmodel := FieldType.peels_relationTarget field.type
      rw [hmany] at hmodel
      exact .relation hlinks hmodel
  · rintro ⟨hfits, htogether, hstands⟩
    refine ⟨_, FieldAttributes.ofItems_eq_ok.2 ⟨hfits, htogether, rfl⟩, ?_⟩
    rw [hcolumn, hjoinPrefix]
    cases hstands with
    | plain h =>
        simp only [(relation?_eq_none htogether hfits).2 h]
        rw [plainExpansion, description, List.append_nil]
        rfl
    | @relation kind model remote near hlinks hmodel =>
        rcases (links_iff htogether hfits).1 hlinks with ⟨relation, hrelation, hlinked⟩
        have hpeeled := FieldType.peels_iff.1 hmodel
        have hlink := linkOf_eq_ok.2 ⟨hlinked, rfl⟩
        simp only [hrelation, hpeeled]
        exact bind_eq_ok.2 ⟨_, hlink, rfl⟩

/-- A field has a relation of a kind just if the attribute of that kind is there. -/
theorem present_attribute_iff (hfits : ∀ item ∈ field.attributes, FieldAttributes.Fits item)
    (kind : RelationKind) :
    Present kind.attribute field.attributes ↔ ∃ remote near, field.Links kind remote near := by
  rw [FieldAttributes.present_iff_isSome hfits (by cases kind <;> decide),
    Option.isSome_iff_exists]
  constructor
  · rintro ⟨foreignKey, h⟩
    cases kind with
    | belongsTo => exact ⟨_, _, .belongsTo h⟩
    | hasMany => exact ⟨_, _, .hasMany h⟩
  · rintro ⟨remote, near, h⟩
    cases h with
    | belongsTo h => exact ⟨_, h⟩
    | hasMany h => exact ⟨_, h⟩

/-- A field stands for something just if it has no fault. -/
theorem exists_expand_iff : (∃ expansion, field.expand = .ok expansion) ↔ field.Acceptable := by
  simp only [expand_eq_ok_iff_together]
  constructor
  · rintro ⟨expansion, hfits, htogether, hstands⟩
    have hmodels : ∀ kind : RelationKind, Present kind.attribute field.attributes →
        ∃ model, field.type.Peels model (kind == .hasMany) := by
      intro kind hpresent
      rcases (present_attribute_iff hfits kind).1 hpresent with ⟨remote, near, hlinks⟩
      cases hstands with
      | plain h => exact absurd hlinks (h kind remote near)
      | @relation other model _ _ hothers hmodel =>
          have hother := (present_attribute_iff hfits other).2 ⟨_, _, hothers⟩
          -- a field has relations of one kind only
          have hkind : other = kind := by
            cases other <;> cases kind
            case belongsTo.hasMany => exact absurd ⟨hother, hpresent⟩ htogether.one
            case hasMany.belongsTo => exact absurd ⟨hpresent, hother⟩ htogether.one
            all_goals rfl
          exact ⟨model, hkind ▸ hmodel⟩
    exact ⟨hfits, htogether, hmodels .belongsTo, hmodels .hasMany⟩
  · rintro ⟨hfits, htogether, hsingle, hmany⟩
    by_cases hplain : ∀ kind remote near, ¬ field.Links kind remote near
    · exact ⟨_, hfits, htogether, .plain hplain⟩
    · push Not at hplain
      rcases hplain with ⟨kind, remote, near, hlinks⟩
      have hpresent := (present_attribute_iff hfits kind).2 ⟨remote, near, hlinks⟩
      have hmodel : ∃ model, field.type.Peels model (kind == .hasMany) := by
        cases kind with
        | belongsTo => exact hsingle hpresent
        | hasMany => exact hmany hpresent
      rcases hmodel with ⟨model, hmodel⟩
      exact ⟨_, hfits, htogether, .relation hlinks hmodel⟩

/-- What a field without a fault stands for. -/
theorem expand_eq_ok :
    field.expand = .ok expansion ↔ field.Acceptable ∧ field.StandsFor expansion := by
  constructor
  · intro h
    exact ⟨exists_expand_iff.1 ⟨expansion, h⟩, (expand_eq_ok_iff_together.1 h).2.2⟩
  · rintro ⟨haccepted, hstands⟩
    exact expand_eq_ok_iff_together.2 ⟨haccepted.fits, haccepted.together, hstands⟩

/-- The mark of a raw name stays with the member only. -/
example : expand
    { name := "r#type"
      type := .wrapper "" "Option" "<" (.wrapper "" "Box" "<" (.plain "Team") ">") ">"
      attributes := [⟨"references", some (.text "code")⟩, ⟨"belongs_to", some (.text "team_id")⟩] } =
    .ok
      { name := "r#type"
        handle := .relation (.plain "Team")
        builder := .relation "type" [("code", "team_id")]
        column := ⟨"type", "type",
          [.relation .belongsTo (.plain "Team") "type_" "code" "team_id"]⟩ } := by
  decide

end DeclaredField

end FieldQuery
