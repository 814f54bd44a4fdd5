import FieldQuery.Declaration.Generated
import FieldQuery.Proofs.Declaration.Fields
import FieldQuery.Proofs.Distinct
import FieldQuery.Proofs.Reference.Tokens

/-!
# The two sides of a declared model

The table of a model and its reference come from one declaration.  Field by field they agree: the
column, the member of the reference and the token that is listed for it come from the same field and
name, and a relation has the same link and leads to the same model on both sides.  So a reference
that is built from its declaration has the handles that its table calls for.

Main definitions:

- `FieldExpansion.InStep`: a field whose two sides agree.
- `Declaration.StandsFor`, `Declaration.Agrees`: what declarations stand for, and how it agrees.
- `Declaration.Acceptable`: a declaration without a fault.

Main statement: `Declaration.expand_agrees`.
-/

namespace FieldQuery

open Attribute

/-! ## Fields -/

namespace FieldExpansion

/-- The handle and the column of a field come from the same name, and those of a relation from the
same link and model too. -/
inductive InStep (place : FieldType → Nat) (field : FieldExpansion) : Prop
  | plain (hcolumn : (field.column.run place).relation = none)
      (hbuilder : field.builder = .field (field.column.run place).name) : InStep place field
  | relation {kind : RelationKind} {model : FieldType} {joinPrefix remote near : String}
      (hcolumn : (field.column.run place).relation =
        some ⟨kind, place model, joinPrefix, [(remote, near)]⟩)
      (hbuilder : field.builder = .relation (field.column.run place).name [(remote, near)])
      (hhandle : field.handle = .relation model) : InStep place field

/-- A handle is built just as the descriptor of its column has it built. -/
theorem InStep.run_builder {place : FieldType → Nat} {field : FieldExpansion}
    (h : field.InStep place) (builder : RefBuilder) :
    field.builder.run (place field.handle.subject) builder =
      builder.handle (field.column.run place) := by
  unfold RefBuilder.handle
  cases h with
  | plain hcolumn hbuilder => rw [hbuilder, hcolumn, HandleBuilder.run]
  | relation hcolumn hbuilder hhandle =>
      rw [hbuilder, hcolumn, hhandle, HandleBuilder.run]
      rfl

end FieldExpansion

namespace DeclaredField

variable {place : FieldType → Nat} {field : DeclaredField} {expansion : FieldExpansion}

theorem foldl_columnSteps (known : FieldAttributes) (column : Column) :
    (columnSteps known).foldl (ColumnStep.run place) column =
      { column with
        primaryKey := column.primaryKey || known.isId
        transient := column.transient || known.transient
        referencedBy := column.referencedBy ++ known.referencedBy } := by
  have hreferenced : ∀ (names : List String) (column : Column),
      (names.map ColumnStep.referencedBy).foldl (ColumnStep.run place) column =
        { column with referencedBy := column.referencedBy ++ names } := by
    intro names
    induction names with
    | nil => simp
    | cons name names ih =>
        intro column
        rw [List.map_cons, List.foldl_cons, ih]
        simp [ColumnStep.run]
  rw [columnSteps, List.foldl_append, List.foldl_append, hreferenced]
  cases known.isId <;> cases known.transient <;> simp [ColumnStep.run]

theorem run_description_nil : (field.description []).run place =
    { name := (field.description []).name
      field := unraw field.name
      primaryKey := (FieldAttributes.behind {} field.attributes).isId
      transient := (FieldAttributes.behind {} field.attributes).transient
      referencedBy := (FieldAttributes.behind {} field.attributes).referencedBy } := by
  simp [description, ColumnDescription.run, foldl_columnSteps]

theorem run_description_singleton (step : ColumnStep) :
    (field.description [step]).run place =
      ColumnStep.run place ((field.description []).run place) step := by
  simp [description, ColumnDescription.run]

theorem StandsFor.inStep (h : field.StandsFor expansion) (place : FieldType → Nat) :
    expansion.InStep place := by
  cases h with
  | plain h =>
      apply FieldExpansion.InStep.plain
      · rw [plainExpansion, run_description_nil]
      · rw [plainExpansion, run_description_nil]
  | @relation kind model remote near hlinks hmodel =>
      apply FieldExpansion.InStep.relation
      · rw [relationExpansion, run_description_singleton]
        rfl
      · rw [relationExpansion, run_description_singleton, run_description_nil]
        rfl
      · rfl

theorem StandsFor.name (h : field.StandsFor expansion) : expansion.name = field.name := by
  cases h <;> rfl

/-- Members are named as the fields are. -/
theorem map_name_eq {fields : List DeclaredField} {expansions : List FieldExpansion}
    (h : List.Forall₂ StandsFor fields expansions) :
    expansions.map (·.name) = fields.map (·.name) := by
  rw [← List.forall₂_eq_eq_eq, List.forall₂_map_left_iff, List.forall₂_map_right_iff]
  exact h.flip.imp fun _ _ hstands => hstands.name

/-- Members are built just as the descriptors of their columns have them built. -/
theorem buildAll_eq {fields : List DeclaredField} {expansions : List FieldExpansion}
    (h : List.Forall₂ StandsFor fields expansions) (builder : RefBuilder) :
    FieldExpansion.buildAll place expansions builder =
      ((fields.map (·.name)).zip ·) <$>
        builder.handles (expansions.map fun field => field.column.run place) := by
  -- each handle leaves a builder behind that the next one is built with
  induction h generalizing builder with
  | nil => rfl
  | @cons field expansion fields expansions hstands _ ih =>
      rw [FieldExpansion.buildAll, List.map_cons, List.map_cons, RefBuilder.handles,
        (hstands.inStep place).run_builder]
      simp only [ih, hstands.name, map_bind, bind_map_left, map_pure, List.zip_cons_cons]

theorem exists_standsFor {fields : List DeclaredField} (h : ∀ field ∈ fields, field.Acceptable) :
    ∃ expansions, List.Forall₂ StandsFor fields expansions := by
  induction fields with
  | nil => exact ⟨[], .nil⟩
  | cons field fields ih =>
      rcases List.forall_mem_cons.1 h with ⟨hfield, hfields⟩
      rcases exists_expand_iff.2 hfield with ⟨expansion, hexpand⟩
      rcases ih hfields with ⟨expansions, hstands⟩
      exact ⟨expansion :: expansions, .cons (expand_eq_ok.1 hexpand).2 hstands⟩

end DeclaredField

/-! ## Declarations -/

namespace Declaration

/-- What a declaration stands for: field by field, what its fields do. -/
structure StandsFor (declaration : Declaration) (expansion : Expansion) : Prop where
  reference : expansion.reference = unraw declaration.name ++ "Ref"
  doc : expansion.doc = "Field handles of [`" ++ declaration.name ++ "`], one per column."
  table : expansion.table =
    (lastText? "table" declaration.attributes).getD (Text.snakeCase declaration.name)
  schema : expansion.schema = lastText? "schema" declaration.attributes
  fields : List.Forall₂ DeclaredField.StandsFor declaration.fields expansion.fields
  tokens : expansion.tokens = declaration.fields.map (·.name)

/-- The members of a reference agree with the columns of the table. -/
structure Agrees (declaration : Declaration) (expansion : Expansion) : Prop where
  sides : ∀ place, ∀ field ∈ expansion.fields, field.InStep place
  /-- There is one member per field, in their order, with the handle that the descriptor of the
  field's column calls for. -/
  built : ∀ place builder supply members after,
    (FieldExpansion.buildAll place expansion.fields builder).run supply = (members, after) →
      members.map (·.1) = declaration.fields.map (·.name) ∧
      (builder.handles (expansion.columns place)).run supply = (members.map (·.2), after)
  /-- The tokens that a reference lists are those of its members, in their order. -/
  tokens : ∀ members, members.map (·.1) = declaration.fields.map (·.name) →
    (declaration.fields.map (·.name)).Nodup →
      expansion.columnTokens? members = some (members.map (·.2.token))

/-- A declaration without a fault. -/
structure Acceptable (declaration : Declaration) : Prop where
  plain : declaration.generic = false
  struct : declaration.kind = .struct
  fits : ∀ item ∈ declaration.attributes, TableAttributes.Fits item
  fields : ∀ field ∈ declaration.fields, field.Acceptable

theorem mapM_eq_ok {α β ε : Type} {f : α → Except ε β} {items : List α} {results : List β} :
    items.mapM f = .ok results ↔
      List.Forall₂ (fun item result => f item = .ok result) items results := by
  induction items generalizing results with
  | nil =>
      rw [List.mapM_nil, List.forall₂_nil_left_iff]
      simp [pure, Except.pure, eq_comm]
  | cons item items ih =>
      rw [List.mapM_cons, bind_eq_ok, List.forall₂_cons_left_iff]
      constructor
      · rintro ⟨result, hresult, hrest⟩
        rcases bind_eq_ok.1 hrest with ⟨others, hothers, hsame⟩
        cases hsame
        exact ⟨result, others, hresult, ih.1 hothers, rfl⟩
      · rintro ⟨result, others, hresult, hothers, rfl⟩
        exact ⟨result, hresult, bind_eq_ok.2 ⟨others, ih.2 hothers, rfl⟩⟩

/-- What finds each of several values finds their list. -/
theorem mapM_eq_some_map {α β : Type} {find? : α → Option β} {value : α → β} {items : List α}
    (h : ∀ item ∈ items, find? item = some (value item)) :
    items.mapM find? = some (items.map value) := by
  induction items with
  | nil => rfl
  | cons item items ih =>
      rcases List.forall_mem_cons.1 h with ⟨hfirst, hrest⟩
      rw [List.mapM_cons, hfirst, ih hrest]
      rfl

variable {declaration : Declaration} {expansion : Expansion}

theorem checkKind_eq_ok : declaration.checkKind = .ok () ↔ declaration.kind = .struct := by
  unfold checkKind
  cases declaration.kind <;> simp

/-- What a declaration without a fault stands for. -/
theorem expand_eq_ok : declaration.expand = .ok expansion ↔
    declaration.Acceptable ∧ declaration.StandsFor expansion := by
  have hfields : ∀ expansions, declaration.fields.mapM DeclaredField.expand = .ok expansions ↔
      (∀ field ∈ declaration.fields, field.Acceptable) ∧
        List.Forall₂ DeclaredField.StandsFor declaration.fields expansions := by
    intro expansions
    rw [mapM_eq_ok, ← List.forall₂_and_left]
    simp only [DeclaredField.expand_eq_ok]
  unfold expand
  cases hplain : declaration.generic with
  | true =>
      constructor
      · intro h
        cases h
      · rintro ⟨haccepted, -⟩
        rw [haccepted.plain] at hplain
        cases hplain
  | false =>
      simp only [Bool.false_eq_true, if_false]
      rw [bind_eq_ok]
      constructor
      · rintro ⟨known, hknown, hrest⟩
        rcases bind_eq_ok.1 hrest with ⟨_, hkind, hrest⟩
        rcases bind_eq_ok.1 hrest with ⟨expansions, hexpansions, hsame⟩
        rcases TableAttributes.ofItems_eq_ok.1 hknown with ⟨hfits, rfl⟩
        rcases (hfields expansions).1 hexpansions with ⟨haccepted, hstands⟩
        cases hsame
        refine ⟨⟨hplain, checkKind_eq_ok.1 hkind, hfits, haccepted⟩, rfl, rfl, ?_, ?_, hstands,
          DeclaredField.map_name_eq hstands⟩
        · simp [TableAttributes.behind]
        · simp [TableAttributes.behind]
      · rintro ⟨haccepted, hstands⟩
        refine ⟨_, TableAttributes.ofItems_eq_ok.2 ⟨haccepted.fits, rfl⟩, ?_⟩
        refine bind_eq_ok.2 ⟨(), checkKind_eq_ok.2 haccepted.struct, ?_⟩
        refine bind_eq_ok.2 ⟨_, (hfields _).2 ⟨haccepted.fields, hstands.fields⟩, ?_⟩
        rcases expansion with ⟨reference, doc, table, schema, expansions, tokens⟩
        rcases hstands with ⟨rfl, rfl, rfl, rfl, hfields, rfl⟩
        simp [TableAttributes.behind, pure, Except.pure, DeclaredField.map_name_eq hfields]

/-- A declaration stands for something just if it has no fault. -/
theorem exists_expand_iff :
    (∃ expansion, declaration.expand = .ok expansion) ↔ declaration.Acceptable := by
  constructor
  · rintro ⟨expansion, h⟩
    exact (expand_eq_ok.1 h).1
  · intro h
    rcases DeclaredField.exists_standsFor h.fields with ⟨expansions, hstands⟩
    exact ⟨⟨_, _, _, _, expansions, _⟩, expand_eq_ok.2 ⟨h, rfl, rfl, rfl, rfl, hstands, rfl⟩⟩

/-- Whatever builder it starts with, a reference has the handles that its columns call for. -/
theorem StandsFor.run_buildAll (h : declaration.StandsFor expansion) {place : FieldType → Nat}
    {builder : RefBuilder} {supply after : TokenSupply} {members : List (String × Handle)}
    (hrun : (FieldExpansion.buildAll place expansion.fields builder).run supply =
      (members, after)) :
    members.map (·.1) = declaration.fields.map (·.name) ∧
      (builder.handles (expansion.columns place)).run supply = (members.map (·.2), after) := by
  rw [DeclaredField.buildAll_eq h.fields, StateT.run_map] at hrun
  rcases hhandles : (builder.handles (expansion.columns place)).run supply with ⟨handles, last⟩
  rcases RefBuilder.grows_handles hhandles with ⟨_, -, hfollow⟩
  -- there are as many names as handles, so none is lost where they are paired
  have hlength : declaration.fields.length = handles.length := by
    rw [← hfollow.length_eq, Expansion.columns, List.length_map, h.fields.length_eq]
  rw [← Expansion.columns, hhandles] at hrun
  cases hrun
  constructor
  · exact List.map_fst_zip (by rw [List.length_map, hlength])
  · rw [List.map_snd_zip (by rw [List.length_map, hlength])]

/-- Where fields have names of their own, each name that is listed finds its member. -/
theorem StandsFor.columnTokens?_eq (h : declaration.StandsFor expansion)
    {members : List (String × Handle)}
    (hnames : members.map (·.1) = declaration.fields.map (·.name))
    (hnodup : (declaration.fields.map (·.name)).Nodup) :
    expansion.columnTokens? members = some (members.map (·.2.token)) := by
  have hfound : ∀ member ∈ members, (tokenOf? members ∘ (·.1)) member = some member.2.token := by
    intro member hmem
    rw [Function.comp_apply, tokenOf?, find?_of_nodup_keys (hnames ▸ hnodup) hmem]
    rfl
  rw [Expansion.columnTokens?, h.tokens, ← hnames, List.mapM_map]
  exact mapM_eq_some_map hfound

theorem StandsFor.agrees (h : declaration.StandsFor expansion) : declaration.Agrees expansion where
  sides := by
    intro place
    have hsides : List.Forall₂
        (fun expansion field => expansion.InStep place ∧ field.StandsFor expansion)
        expansion.fields declaration.fields :=
      h.fields.flip.imp fun _ _ hstands => ⟨hstands.inStep place, hstands⟩
    exact ((List.forall₂_and_left _ _).1 hsides).1
  built := fun _ _ _ _ _ hrun => h.run_buildAll hrun
  tokens := fun _ hnames hnodup => h.columnTokens?_eq hnames hnodup

/-- A declaration without a fault stands for a table and a reference that agree, whatever its fields,
the wrappers of their types and the order of their attributes; any other one is refused. -/
theorem expand_agrees (declaration : Declaration) :
    match declaration.expand with
    | .ok expansion =>
      declaration.Acceptable ∧ declaration.StandsFor expansion ∧ declaration.Agrees expansion
    | .error _ => ¬ declaration.Acceptable := by
  cases hexpand : declaration.expand with
  | ok expansion =>
      rcases expand_eq_ok.1 hexpand with ⟨haccepted, hstands⟩
      exact ⟨haccepted, hstands, hstands.agrees⟩
  | error error =>
      intro haccepted
      rcases exists_expand_iff.2 haccepted with ⟨expansion, hok⟩
      rw [hexpand] at hok
      cases hok

end Declaration

end FieldQuery
