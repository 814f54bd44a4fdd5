import FieldQuery.Record
import FieldQuery.Proofs.Json.Documents

/-!
# Rows that are read back

Rows are stored as a text that wraps each value in four arrays and objects: the list of rows, the
row, its columns, and the pair of alias and value.  The text is read back as the rows that were
stored exactly if none of it nests deeper than the reader goes.

Main definitions:

- `Record.Storable`: rows of storable values.

Main statements: `Record.listOfText?_text`, `Record.nesting_listToJson_le`.
-/

namespace FieldQuery

open Json

/-- What reads each of several values reads their list. -/
theorem Json.mapM_itemDocuments {α : Type} (encode : α → Json) (read : Document → Option α)
    (depth : Nat) : ∀ xs : List α,
      (∀ x ∈ xs, read (encode x).document =
        if (encode x).nesting ≤ depth then some x else none) →
      (itemDocuments (xs.map encode)).mapM read =
        if itemsNesting (xs.map encode) ≤ depth then some xs else none
  | [], _ => by simp [itemDocuments, itemsNesting]
  | x :: xs, h => by
      rw [List.map_cons, itemDocuments, List.mapM_cons, h x List.mem_cons_self,
        mapM_itemDocuments encode read depth xs fun y hy => h y (List.mem_cons_of_mem x hy),
        itemsNesting]
      simp only [Nat.max_le]
      exact bind_ite_ite _ _ x xs List.cons

theorem Json.itemsStorable_iff {items : List Json} :
    ItemsStorable items ↔ ∀ v ∈ items, v.Storable := by
  induction items with
  | nil => simp [ItemsStorable]
  | cons v rest ih => simp [ItemsStorable, ih]

theorem Json.itemsNesting_le_iff {items : List Json} {depth : Nat} :
    itemsNesting items ≤ depth ↔ ∀ v ∈ items, v.nesting ≤ depth := by
  induction items with
  | nil => simp [itemsNesting]
  | cons v rest ih => simp only [itemsNesting, Nat.max_le, ih, List.forall_mem_cons]

namespace Record

/-- Rows of storable values. -/
def Storable (record : Record) : Prop :=
  ∀ column ∈ record.columns, column.2.Storable

/-! ## Pairs and rows -/

theorem storable_pairJson {column : String × Json} (h : column.2.Storable) :
    (pairJson column).Storable :=
  ⟨trivial, h, trivial⟩

theorem nesting_pairJson (column : String × Json) :
    (pairJson column).nesting = column.2.nesting + 1 := by
  simp [pairJson, nesting, itemsNesting]

theorem pairOfDocument?_document {column : String × Json} (h : column.2.Storable) (depth : Nat) :
    pairOfDocument? depth (pairJson column).document =
      if (pairJson column).nesting ≤ depth then some column else none := by
  rw [nesting_pairJson]
  cases depth with
  | zero => rfl
  | succ depth =>
      have hvalue := Document.toJson?_document depth column.2 h
      show ((decode? (stringParts column.1)).bind fun label =>
        (column.2.document.toJson? depth).bind fun value => some (label, value)) = _
      rw [decode?_stringParts, hvalue]
      by_cases hdepth : column.2.nesting ≤ depth
      · simp [hdepth]
      · simp [hdepth]

theorem storable_toJson {record : Record} (h : record.Storable) : record.toJson.Storable := by
  have hpairs : ItemsStorable (record.columns.map pairJson) := by
    rw [itemsStorable_iff]
    exact List.forall_mem_map.2 fun column hcolumn => storable_pairJson (h column hcolumn)
  exact ⟨List.pairwise_singleton .., hpairs, trivial⟩

theorem nesting_toJson (record : Record) :
    record.toJson.nesting = itemsNesting (record.columns.map pairJson) + 2 := by
  simp [toJson, nesting, membersNesting]

theorem columnsMember?_singleton (columns : Document) :
    columnsMember? [(stringParts "columns", columns)] = some columns := by
  simp [columnsMember?, decode?_stringParts]

theorem ofDocument?_document {record : Record} (h : record.Storable) (depth : Nat) :
    ofDocument? depth record.toJson.document =
      if record.toJson.nesting ≤ depth then some record else none := by
  have hcolumns : ∀ depth, ofDocument? (depth + 1) record.toJson.document =
      (columnsOfDocument? depth (.arr (itemDocuments (record.columns.map pairJson)))).map
        Record.mk := fun depth => by
    rw [toJson, document, memberDocuments, memberDocuments, document, ofDocument?,
      columnsMember?_singleton, Option.map_eq_bind]
    rfl
  rw [nesting_toJson]
  match depth with
  | 0 => rfl
  | 1 => rw [hcolumns]; rfl
  | depth + 2 =>
      have hpairs := mapM_itemDocuments pairJson (pairOfDocument? depth) depth record.columns
        fun column hcolumn => pairOfDocument?_document (h column hcolumn) depth
      rw [hcolumns, columnsOfDocument?, hpairs, apply_ite (Option.map Record.mk)]
      simp only [Nat.add_le_add_iff_right, Option.map_some, Option.map_none]

/-! ## Lists of rows -/

theorem storable_listToJson {records : List Record} (h : ∀ record ∈ records, record.Storable) :
    (listToJson records).Storable := by
  have hitems : ItemsStorable (records.map toJson) := by
    rw [itemsStorable_iff]
    exact List.forall_mem_map.2 fun record hrecord => storable_toJson (h record hrecord)
  exact hitems

/-- Stored rows are read back, unless their text nests too deep; then nothing is read. -/
theorem listOfText?_text {records : List Record} (h : ∀ record ∈ records, record.Storable) :
    listOfText? (listToJson records).text =
      if (listToJson records).nesting ≤ Json.depthLimit then some records else none := by
  have hrows := mapM_itemDocuments toJson (ofDocument? (Json.depthLimit - 1)) (Json.depthLimit - 1)
    records fun record hrecord => ofDocument?_document (h record hrecord) _
  have hread : listOfText? (listToJson records).text =
      (itemDocuments (records.map toJson)).mapM (ofDocument? (Json.depthLimit - 1)) := by
    unfold listOfText?
    rw [Document.ofText?_text (storable_listToJson h)]
    rfl
  have hnesting : (listToJson records).nesting = itemsNesting (records.map toJson) + 1 := rfl
  rw [hread, hrows, hnesting]
  exact if_congr (Nat.le_sub_one_iff_lt (by decide)) rfl rfl

/-- The text nests four levels deeper than the values. -/
theorem nesting_listToJson_le {records : List Record} {depth : Nat} :
    (listToJson records).nesting ≤ depth + 4 ↔
      ∀ record ∈ records, ∀ column ∈ record.columns, column.2.nesting ≤ depth := by
  have hnesting : (listToJson records).nesting = itemsNesting (records.map toJson) + 1 := rfl
  have hrecord : ∀ record : Record, record.toJson.nesting ≤ depth + 3 ↔
      ∀ column ∈ record.columns, column.2.nesting ≤ depth := fun record => by
    have hpairs : record.toJson.nesting ≤ depth + 3 ↔
        itemsNesting (record.columns.map pairJson) ≤ depth + 1 := by
      rw [nesting_toJson]
      omega
    rw [hpairs, itemsNesting_le_iff, List.forall_mem_map]
    simp only [nesting_pairJson, Nat.add_le_add_iff_right]
  rw [hnesting, Nat.add_le_add_iff_right, itemsNesting_le_iff, List.forall_mem_map]
  simp only [hrecord]

end Record

end FieldQuery
