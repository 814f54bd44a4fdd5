import FieldQuery.Proofs.Decoding.Overlays

/-!
# A row as its record laid over defaults

Where the paths of the selected fields and of their copies are apart, a row is the default of its
model with the record's values laid over it.  A value stands at the end of its path; a related model
that may be missing is there if and only if there is a value below it, and starts from its own
default; a copy is made where there is an object to hold it; and all the rest is as the defaults have
it.  Whatever is said of a field of the row is said of the overlay's part behind the field in turn.

Main definitions:

- `read?`: what stands at the end of a path, where lists of related models are entered.
- `Entry.HasValue`: a record has a value for a column.
- `Overlays`: a row that is the default of its model, overlaid with a record.

Main statement: `assemble_overlays`.
-/

namespace FieldQuery

open Json (lookup? Apart)

/-! ## Reading -/

namespace PathStep

/-- The related model that a step's field holds: of a list, the only one. -/
def enter? (step : PathStep) (held : Json) : Option Json :=
  if step.many then
    match held with
    | .arr [item] => some item
    | _ => none
  else some held

theorem enter?_of_plain {step : PathStep} (h : step.many = false) (held : Json) :
    step.enter? held = some held := by
  unfold enter?
  rw [h]
  rfl

theorem enter?_hold (step : PathStep) (item : Json) :
    step.enter? (step.hold item) = some item := by
  unfold enter? hold
  split <;> rfl

end PathStep

/-- What stands at the end of a path, where lists of related models are entered. -/
def read? : List PathStep → Json → Option Json
  | [], row => some row
  | step :: rest, row => ((row.get? step.field).bind step.enter?).bind (read? rest)

/-- Nothing is read behind a value that is no object. -/
theorem read?_of_not_object {path : List PathStep} {item holder : Json}
    (hitem : item.isObject = false) (hread : read? path item = some holder) :
    holder.isObject = false := by
  cases path with
  | nil =>
      cases hread
      exact hitem
  | cons step rest =>
      rw [read?, get?_of_not_object hitem] at hread
      cases hread

namespace Overlay

variable {overlay : Overlay} {row : Json} {step next : PathStep} {rest : List PathStep}

/-- Where the overlay goes on behind a field, so does reading. -/
theorem Laid.read?_made (h : overlay.Laid row) (hmem : step :: next :: rest ∈ overlay.paths)
    (hmade : (overlay.under step.field).isFilled ∨ HasObject step.field row)
    (path : List PathStep) : read? (step :: path) (overlay.apply row) =
      read? path ((overlay.under step.field).apply (step.slot (row.get? step.field))) := by
  rw [read?, h.get?_made hmem hmade, Option.bind_some, step.enter?_hold, Option.bind_some]

/-- Elsewhere there is no object to be read. -/
theorem Laid.read?_kept (h : overlay.Laid row) (hmem : step :: next :: rest ∈ overlay.paths)
    (hempty : ¬ (overlay.under step.field).isFilled) (hnone : ¬ HasObject step.field row)
    {path : List PathStep} {holder : Json}
    (hread : read? (step :: path) (overlay.apply row) = some holder) : holder.isObject = false := by
  rw [read?, h.get?_kept hmem hempty hnone] at hread
  rcases Option.bind_eq_some_iff.1 hread with ⟨item, hitem, hread⟩
  rcases Option.bind_eq_some_iff.1 hitem with ⟨held, hheld, hentered⟩
  have hplain : held.isObject = false := by
    rw [← Bool.not_eq_true]
    exact fun hobject => hnone ⟨held, hheld, hobject⟩
  cases hmany : step.many with
  | false =>
      rw [PathStep.enter?_of_plain hmany] at hentered
      cases hentered
      exact read?_of_not_object hplain hread
  | true =>
      -- the list is empty by default
      unfold PathStep.enter? at hentered
      rw [hmany] at hentered
      rw [h.out.eq_of_many hmem hmany hheld] at hentered
      cases hentered

/-- What stands in the field of a column is read as it is. -/
theorem Laid.read?_column (h : overlay.Laid row) {write : Write}
    (hmem : write ∈ overlay.own ++ overlay.copies) {value : Json}
    (hvalue : write.value? = some value) (hpath : write.path = [step]) :
    read? [step] (overlay.apply row) = some value := by
  have hsingle : [step] ∈ overlay.paths := hpath ▸ List.mem_map_of_mem hmem
  have hplain := h.out.many_eq_false hsingle
  rw [read?, h.get?_column hmem hvalue hpath, Option.bind_some, PathStep.enter?_of_plain hplain]
  rfl

/-- A value stands at the end of its path. -/
theorem Laid.read?_value (h : overlay.Laid row) {value : Json} {path : List PathStep}
    (hmem : ⟨some value, path⟩ ∈ overlay.own) : read? path (overlay.apply row) = some value := by
  -- along the path, in the part of the overlay that lies behind each step
  induction path generalizing overlay row with
  | nil => exact absurd rfl (h.out.ne_nil (mem_paths_own hmem))
  | cons step tail ih =>
      have hpath := mem_paths_own hmem
      cases tail with
      | nil => exact h.read?_column (List.mem_append_left _ hmem) rfl rfl
      | cons next rest =>
          -- the value itself makes the object that it is put into
          have hne : next :: rest ≠ [] := List.cons_ne_nil _ _
          have hfilled := (h.isFilled_under hpath).2 ⟨value, next :: rest, hne, hmem⟩
          rw [h.read?_made hpath (.inl hfilled)]
          exact ih (h.under hpath) ((h.mem_own_under hpath).2 ⟨hne, hmem⟩)

/-- A copy stands at the end of its path, if there is an object to hold it. -/
theorem Laid.read?_copy (h : overlay.Laid row) {value : Json} {path : List PathStep}
    (hmem : ⟨some value, path⟩ ∈ overlay.copies) {holder : Json}
    (hread : read? path.dropLast (overlay.apply row) = some holder)
    (hobject : holder.isObject = true) : read? path (overlay.apply row) = some value := by
  induction path generalizing overlay row with
  | nil => exact absurd rfl (h.out.ne_nil (mem_paths_copies hmem))
  | cons step tail ih =>
      have hpath := mem_paths_copies hmem
      cases tail with
      | nil => exact h.read?_column (List.mem_append_right _ hmem) rfl rfl
      | cons next rest =>
          rw [List.dropLast_cons_of_ne_nil (List.cons_ne_nil _ _)] at hread
          have hunder : ⟨some value, next :: rest⟩ ∈ (overlay.under step.field).copies :=
            (h.mem_copies_under hpath).2 ⟨List.cons_ne_nil _ _, hmem⟩
          by_cases hmade : (overlay.under step.field).isFilled ∨ HasObject step.field row
          · rw [h.read?_made hpath hmade] at hread ⊢
            exact ih (h.under hpath) hunder hread
          · -- there is no object on the way, so none to hold the copy
            rcases not_or.1 hmade with ⟨hempty, hnone⟩
            rw [h.read?_kept hpath hempty hnone hread] at hobject
            cases hobject

/-- A related model that may be missing is there if and only if there is a value below it. -/
theorem Laid.read?_related (h : overlay.Laid row) {front : List PathStep}
    (hmem : front ++ step :: next :: rest ∈ overlay.paths)
    (hnone : ¬ HasObject step.field (origin front row)) :
    (∃ item, read? (front ++ [step]) (overlay.apply row) = some item ∧ item.isObject = true) ↔
      ∃ value tail, tail ≠ [] ∧ ⟨some value, front ++ step :: tail⟩ ∈ overlay.own := by
  induction front generalizing overlay row with
  | nil =>
      rw [List.nil_append] at hmem ⊢
      -- by default there is no object, so a value has to make it
      by_cases hfilled : (overlay.under step.field).isFilled
      · refine iff_of_true ⟨_, h.read?_made hmem (.inl hfilled) [], ?_⟩
          ((h.isFilled_under hmem).1 hfilled)
        exact isObject_apply (h.under hmem).sorted (step.isObject_slot _)
      · refine iff_of_false ?_ fun hvalue => hfilled ((h.isFilled_under hmem).2 hvalue)
        rintro ⟨item, hread, hobject⟩
        rw [h.read?_kept hmem hfilled hnone hread] at hobject
        cases hobject
  | cons first front ih =>
      have hne : ∀ tail, front ++ step :: tail ≠ [] := by simp
      rcases List.exists_cons_of_ne_nil (hne (next :: rest)) with ⟨second, later, hlater⟩
      have hpath : first :: second :: later ∈ overlay.paths := by
        rw [← hlater]
        exact hmem
      rw [origin_cons] at hnone
      by_cases hmade : (overlay.under first.field).isFilled ∨ HasObject first.field row
      · -- what is asked is asked of the object behind the first step
        have hunder := (h.mem_paths_under hpath).2 ⟨hne _, hmem⟩
        rw [List.cons_append, h.read?_made hpath hmade, ih (h.under hpath) hunder hnone]
        refine exists_congr fun value => exists_congr fun tail => and_congr_right fun _ => ?_
        rw [h.mem_own_under hpath]
        exact and_iff_right (hne tail)
      · -- there is no object on the way, and no value below it
        rcases not_or.1 hmade with ⟨hempty, hmissing⟩
        refine iff_of_false ?_ ?_
        · rintro ⟨item, hread, hobject⟩
          rw [h.read?_kept hpath hempty hmissing hread] at hobject
          cases hobject
        · rintro ⟨value, tail, -, hvalue⟩
          exact hempty ((h.isFilled_under hpath).2 ⟨value, _, hne tail, hvalue⟩)

/-! ## The rest -/

theorem apart_cons {field : String} {p q : List String} :
    Apart (field :: p) (field :: q) ↔ Apart p q := by
  constructor
  · intro h
    cases h with
    | here hne => exact absurd rfl hne
    | later _ hrest => exact hrest
  · exact .later field

theorem not_apart_nil (path : List String) : ¬ Apart path [] := by
  rintro ⟨⟩

/-- A field that no path leads through further, and that no value ends at, stays as it is. -/
theorem Laid.get?_untouched (h : overlay.Laid row) {field : String}
    (hends : ∀ step next rest, step :: next :: rest ∈ overlay.paths → step.field ≠ field)
    (hnone : ∀ write ∈ overlay.own ++ overlay.copies, write.value?.isSome →
      fieldNames write.path ≠ [field]) : (overlay.apply row).get? field = row.get? field := by
  -- no write changes the field, and no list lies there
  have hunder : ∀ write ∈ overlay.own ++ overlay.copies, write.under? field = none := by
    intro write hwrite
    refine Option.eq_none_iff_forall_ne_some.2 fun later hlater => ?_
    rcases Write.under?_eq_some.1 hlater with ⟨-, hne, step, hfield, hpath⟩
    rcases List.exists_cons_of_ne_nil hne with ⟨next, rest, hnext⟩
    rw [hnext] at hpath
    exact hends step next rest (hpath ▸ List.mem_map_of_mem hwrite) hfield
  have hlists : ∀ tail, field :: tail ∉ overlay.lists := by
    intro tail hlist
    rcases h.exists_path hlist with ⟨step, next, rest, hpath, hfield⟩
    exact hends step next rest hpath hfield
  have havoids : ∀ write ∈ overlay.own ++ overlay.copies, write.Avoids field :=
    fun write hwrite => ⟨hunder write hwrite, hnone write hwrite⟩
  rcases List.forall_mem_append.1 havoids with ⟨hown, hcopies⟩
  rw [apply, get?_lists h.sorted hlists,
    get?_foldl_of_kept fun write hmem => (hcopies write hmem).get?_copy,
    get?_foldl_of_kept fun write hmem => (hown write hmem).get?_put]

/-- A field where no value leads stays as it is, unless paths lead on into an object there. -/
theorem Laid.get?_unvalued (h : overlay.Laid row) {field : String}
    (hvalues : ∀ value path, ⟨some value, path⟩ ∈ overlay.own → ¬ [field] <+: fieldNames path)
    (hcopies : ∀ value path, ⟨some value, path⟩ ∈ overlay.copies → fieldNames path ≠ [field])
    (hplain : ∀ step next rest, step :: next :: rest ∈ overlay.paths → step.field = field →
      ¬ HasObject field row) : (overlay.apply row).get? field = row.get? field := by
  by_cases hlong : ∃ step next rest, step :: next :: rest ∈ overlay.paths ∧ step.field = field
  · -- paths lead on, but none with a value
    rcases hlong with ⟨step, next, rest, hmem, rfl⟩
    refine h.get?_kept hmem (fun hfilled => ?_) (hplain step next rest hmem rfl)
    rcases (h.isFilled_under hmem).1 hfilled with ⟨value, path, -, hvalue⟩
    exact hvalues value _ hvalue ⟨fieldNames path, rfl⟩
  · refine h.get?_untouched (fun step next rest hmem hfield => ?_) ?_
    · exact hlong ⟨step, next, rest, hmem, hfield⟩
    · rintro ⟨value, path⟩ hwrite hsome hnames
      rcases Option.isSome_iff_exists.1 hsome with ⟨value, rfl⟩
      rcases List.mem_append.1 hwrite with hown | hcopy
      · refine hvalues value path hown ⟨[], ?_⟩
        rw [List.append_nil]
        exact hnames.symm
      · exact hcopies value path hcopy hnames

/-- A copy is made in the row itself, as that is an object. -/
theorem Laid.copy_ne (h : overlay.Laid row) {field : String} {rest : List String}
    (hcopies : ∀ value path, ⟨some value, path⟩ ∈ overlay.copies → ∀ holder,
      read? path.dropLast (overlay.apply row) = some holder → holder.isObject = true →
        Apart (field :: rest) (fieldNames path)) :
    ∀ value path, ⟨some value, path⟩ ∈ overlay.copies → fieldNames path ≠ [field] := by
  intro value path hcopy hnames
  rcases List.map_eq_singleton_iff.1 hnames with ⟨step, rfl, hfield⟩
  have hapart := hcopies value [step] hcopy _ rfl (isObject_apply h.sorted h.out.root)
  rw [hnames] at hapart
  exact not_apart_nil rest (apart_cons.1 hapart)

/-- Where no value leads, nothing changes but for copies, and for the members of an object that paths
lead into. -/
theorem Laid.lookup?_unvalued (h : overlay.Laid row) {field : String} {rest : List String}
    (hvalues : ∀ value path, ⟨some value, path⟩ ∈ overlay.own → ¬ [field] <+: fieldNames path)
    (hcopies : ∀ value path, ⟨some value, path⟩ ∈ overlay.copies → ∀ holder,
      read? path.dropLast (overlay.apply row) = some holder → holder.isObject = true →
        Apart (field :: rest) (fieldNames path))
    (hinner : ∀ path ∈ overlay.paths, field :: rest <+: fieldNames path →
      field :: rest ≠ fieldNames path → ∀ item, lookup? (field :: rest) row = some item →
        item.isObject = false) :
    lookup? (field :: rest) (overlay.apply row) = lookup? (field :: rest) row := by
  induction rest generalizing overlay row field with
  | nil =>
      have hkept : (overlay.apply row).get? field = row.get? field := by
        refine h.get?_unvalued hvalues (h.copy_ne hcopies) ?_
        rintro step next tail hmem rfl ⟨item, hitem, hobject⟩
        -- paths lead into this object
        have hlonger : [step.field] <+: fieldNames (step :: next :: tail) :=
          ⟨fieldNames (next :: tail), rfl⟩
        have hplain := hinner _ hmem hlonger (by simp [fieldNames]) item
          (by rw [lookup?_field, hitem])
        rw [hobject] at hplain
        cases hplain
      rw [lookup?_field, lookup?_field, hkept]
  | cons second later ih =>
      rw [Json.lookup?_cons, Json.lookup?_cons]
      by_cases hlong : ∃ step next tail, step :: next :: tail ∈ overlay.paths ∧
          step.field = field ∧ HasObject field row
      · rcases hlong with ⟨step, next, tail, hmem, rfl, item, hitem, hobject⟩
        have hmade : (overlay.under step.field).isFilled ∨ HasObject step.field row :=
          .inr ⟨item, hitem, hobject⟩
        have hunder := h.under hmem
        have hread := h.read?_made hmem hmade
        have hget := h.get?_made hmem hmade
        rw [PathStep.hold_of_plain (h.out.many_of_object hmem ⟨item, hitem, hobject⟩)] at hget
        rw [hitem, step.slot_of_object hobject] at hunder hget hread
        rw [hget, hitem, Option.bind_some, Option.bind_some]
        -- what is behind the field is laid over the object there
        refine ih hunder ?_ ?_ ?_
        · intro value path hvalue _
          exact hvalues value _ ((h.mem_own_under hmem).1 hvalue).2 ⟨fieldNames path, rfl⟩
        · intro value path hcopy holder hholder hisObject
          rcases (h.mem_copies_under hmem).1 hcopy with ⟨hne, hwhole⟩
          rw [← hread, ← List.dropLast_cons_of_ne_nil hne] at hholder
          exact apart_cons.1 (hcopies value _ hwhole holder hholder hisObject)
        · intro path hpath hprefix hstrict inner hfound
          rcases (h.mem_paths_under hmem).1 hpath with ⟨hne, hwhole⟩
          refine hinner _ hwhole ((List.prefix_cons_inj _).2 hprefix) ?_ inner ?_
          · exact fun heq => hstrict (List.cons.inj heq).2
          · rw [Json.lookup?_cons, hitem]
            exact hfound
      · -- no path leads into an object at the field, so all that is behind it stays
        have hkept : (overlay.apply row).get? field = row.get? field := by
          refine h.get?_unvalued hvalues (h.copy_ne hcopies) ?_
          intro step next tail hmem hfield hobject
          exact hlong ⟨step, next, tail, hmem, hfield, hobject⟩
        rw [hkept]

/-- The same holds in an object that there is a value below, of what the object starts from. -/
theorem Laid.lookup?_rest (h : overlay.Laid row) {front : List PathStep} {field : String}
    {rest : List String}
    (hfront : front = [] ∨ ∃ value tail, tail ≠ [] ∧ ⟨some value, front ++ tail⟩ ∈ overlay.own)
    (hvalues : ∀ value path, ⟨some value, path⟩ ∈ overlay.own →
      ¬ fieldNames front ++ [field] <+: fieldNames path)
    (hcopies : ∀ value path, ⟨some value, path⟩ ∈ overlay.copies → ∀ holder,
      read? path.dropLast (overlay.apply row) = some holder → holder.isObject = true →
        Apart (fieldNames front ++ field :: rest) (fieldNames path))
    (hinner : ∀ path ∈ overlay.paths, fieldNames front ++ field :: rest <+: fieldNames path →
      fieldNames front ++ field :: rest ≠ fieldNames path →
        ∀ item, lookup? (field :: rest) (origin front row) = some item → item.isObject = false) :
    (read? front (overlay.apply row)).bind (lookup? (field :: rest)) =
      lookup? (field :: rest) (origin front row) := by
  induction front generalizing overlay row with
  | nil => exact h.lookup?_unvalued hvalues hcopies hinner
  | cons step front ih =>
      rcases hfront with hnil | ⟨value, tail, hne, hvalue⟩
      · cases hnil
      -- the value below makes the object at the first step
      have hlater : front ++ tail ≠ [] := List.append_ne_nil_of_right_ne_nil _ hne
      rcases List.exists_cons_of_ne_nil hlater with ⟨next, later, hnext⟩
      have hmem : step :: next :: later ∈ overlay.paths := by
        rw [← hnext]
        exact mem_paths_own hvalue
      have hfilled := (h.isFilled_under hmem).2 ⟨value, _, hlater, hvalue⟩
      have hread := h.read?_made hmem (.inl hfilled)
      rw [origin_cons] at hinner ⊢
      rw [hread]
      refine ih (h.under hmem) (.inr ⟨value, tail, hne, ?_⟩) ?_ ?_ ?_
      · exact (h.mem_own_under hmem).2 ⟨hlater, hvalue⟩
      · intro other path hother hprefix
        refine hvalues other _ ((h.mem_own_under hmem).1 hother).2 ?_
        exact (List.prefix_cons_inj _).2 hprefix
      · intro other path hcopy holder hholder hisObject
        rcases (h.mem_copies_under hmem).1 hcopy with ⟨hpath, hwhole⟩
        rw [← hread, ← List.dropLast_cons_of_ne_nil hpath] at hholder
        exact apart_cons.1 (hcopies other _ hwhole holder hholder hisObject)
      · intro path hpath hprefix hstrict
        rcases (h.mem_paths_under hmem).1 hpath with ⟨-, hwhole⟩
        refine hinner _ hwhole ((List.prefix_cons_inj _).2 hprefix) ?_
        exact fun heq => hstrict (List.cons.inj heq).2

end Overlay

/-! ## Rows of selected columns -/

/-- The paths of selected columns and of their copies. -/
def routes (entries : List Entry) : List (List PathStep) :=
  entries.map (·.path) ++ entries.flatMap (·.copies)

/-- A record has a value for a column, and it is not null. -/
def Entry.HasValue (entry : Entry) (record : Record) (value : Json) : Prop :=
  record.get? entry.label = some value ∧ value ≠ .null

theorem Entry.value?_eq_some {entry : Entry} {record : Record} {value : Json} :
    entry.value? record = some value ↔ entry.HasValue record value := by
  unfold value? HasValue
  cases record.get? entry.label with
  | none => simp
  | some found =>
      have hnull : found.isNull = true ↔ found = .null := by
        cases found <;> simp [Json.isNull]
      simp only [hnull, Option.ite_none_left_eq_some, Option.some.injEq]
      constructor
      · rintro ⟨hne, rfl⟩
        exact ⟨rfl, hne⟩
      · rintro ⟨rfl, hne⟩
        exact ⟨hne, rfl⟩

/-- Some selected column below an object has a value. -/
def ValuedBelow (entries : List Entry) (record : Record) (front : List PathStep) : Prop :=
  ∃ entry ∈ entries, ∃ value tail,
    entry.HasValue record value ∧ tail ≠ [] ∧ entry.path = front ++ tail

/-- A row that is the default of its model, overlaid with the values that a record has for selected
columns. -/
structure Overlays (entries : List Entry) (record : Record) (fresh row : Json) : Prop where
  values : ∀ entry ∈ entries, ∀ value, entry.HasValue record value →
    read? entry.path row = some value
  copies : ∀ entry ∈ entries, ∀ value, entry.HasValue record value →
    ∀ path ∈ entry.copies, ∀ holder, read? path.dropLast row = some holder →
      holder.isObject = true → read? path row = some value
  related : ∀ front step next rest, front ++ step :: next :: rest ∈ routes entries →
    ¬ HasObject step.field (origin front fresh) →
      ((∃ item, read? (front ++ [step]) row = some item ∧ item.isObject = true) ↔
        ValuedBelow entries record (front ++ [step]))
  rest : ∀ front field rest, front = [] ∨ ValuedBelow entries record front →
    (∀ entry ∈ entries, ∀ value, entry.HasValue record value →
      ¬ fieldNames front ++ [field] <+: fieldNames entry.path) →
    (∀ entry ∈ entries, ∀ value, entry.HasValue record value → ∀ path ∈ entry.copies, ∀ holder,
      read? path.dropLast row = some holder → holder.isObject = true →
        Apart (fieldNames front ++ field :: rest) (fieldNames path)) →
    (∀ path ∈ routes entries, fieldNames front ++ field :: rest <+: fieldNames path →
      fieldNames front ++ field :: rest ≠ fieldNames path →
        ∀ item, lookup? (field :: rest) (origin front fresh) = some item →
          item.isObject = false) →
    (read? front row).bind (lookup? (field :: rest)) = lookup? (field :: rest) (origin front fresh)

section Rows

variable {entries : List Entry} {record : Record} {fresh : Json}

theorem paths_overlay (entries : List Entry) (record : Record) :
    (overlay entries record).paths = routes entries := by
  simp [Overlay.paths, overlay, routes, List.map_flatMap, Function.comp_def]

theorem mem_own_overlay {value : Json} {path : List PathStep} :
    ⟨some value, path⟩ ∈ (overlay entries record).own ↔
      ∃ entry ∈ entries, entry.value? record = some value ∧ entry.path = path := by
  simp [overlay]

theorem mem_copies_overlay {value : Json} {path : List PathStep} :
    ⟨some value, path⟩ ∈ (overlay entries record).copies ↔
      ∃ entry ∈ entries, entry.value? record = some value ∧ path ∈ entry.copies := by
  simp [overlay, and_comm]

theorem LaidOut.overlay (h : LaidOut (routes entries) fresh) (record : Record) :
    (overlay entries record).Laid fresh where
  out := by
    rw [paths_overlay]
    exact h
  sorted := listsSorted_overlay entries record
  mem_lists := by
    intro path
    have hlists : path ∈ (FieldQuery.overlay entries record).lists ↔
        ∃ entry ∈ entries, path ∈ manyPaths entry.path := mem_listPaths
    rw [hlists]
    simp [FieldQuery.overlay]

theorem valuedBelow_iff {front : List PathStep} : ValuedBelow entries record front ↔
    ∃ value tail, tail ≠ [] ∧ ⟨some value, front ++ tail⟩ ∈ (overlay entries record).own := by
  simp only [mem_own_overlay, Entry.value?_eq_some]
  constructor
  · rintro ⟨entry, hentry, value, tail, hvalue, hne, hpath⟩
    exact ⟨value, tail, hne, entry, hentry, hvalue, hpath⟩
  · rintro ⟨value, tail, hne, entry, hentry, hvalue, hpath⟩
    exact ⟨entry, hentry, value, tail, hvalue, hne, hpath⟩

/-- Where the paths of the selected columns and of their copies are apart, a row is the default of
its model, overlaid with the record. -/
theorem assemble_overlays (h : LaidOut (routes entries) fresh) (record : Record) :
    Overlays entries record fresh (assemble entries fresh record) := by
  have hlaid := h.overlay record
  rw [assemble_eq_apply]
  constructor
  case values =>
    intro entry hentry value hvalue
    have hknown := Entry.value?_eq_some.2 hvalue
    exact hlaid.read?_value (mem_own_overlay.2 ⟨entry, hentry, hknown, rfl⟩)
  case copies =>
    intro entry hentry value hvalue path hpath holder hholder hobject
    have hknown := Entry.value?_eq_some.2 hvalue
    exact hlaid.read?_copy (mem_copies_overlay.2 ⟨entry, hentry, hknown, hpath⟩) hholder hobject
  case related =>
    intro front step next rest hmem hnone
    rw [← paths_overlay entries record] at hmem
    rw [hlaid.read?_related hmem hnone, valuedBelow_iff]
    simp only [List.append_assoc, List.singleton_append]
  case rest =>
    intro front field rest hfront hvalues hcopies hinner
    rw [valuedBelow_iff] at hfront
    rw [← paths_overlay entries record] at hinner
    refine hlaid.lookup?_rest hfront ?_ ?_ hinner
    · intro value path hown
      rcases mem_own_overlay.1 hown with ⟨entry, hentry, hvalue, rfl⟩
      exact hvalues entry hentry value (Entry.value?_eq_some.1 hvalue)
    · intro value path hcopy
      rcases mem_copies_overlay.1 hcopy with ⟨entry, hentry, hvalue, hpath⟩
      exact hcopies entry hentry value (Entry.value?_eq_some.1 hvalue) path hpath

end Rows

namespace Squads

/-- The default of a team. -/
def unnamed : Json :=
  .obj [("name", .str "unnamed"), ("players", .arr [])]

/-- The step from a team to its players, who start as newcomers. -/
def toPlayers : PathStep where
  field := "players"
  many := true
  default := some newcomer

theorem routes_listed : routes listed.plan.columns.selected =
    [[.plain "id"], [toPlayers, .plain "id"], [toPlayers, .plain "team_id"]] :=
  rfl

theorem step_of_listed {front rest : List PathStep} {step : PathStep}
    (h : front ++ step :: rest ∈ routes listed.plan.columns.selected) :
    front = [] ∧ step = .plain "id" ∨ front = [] ∧ step = toPlayers ∨
      front = [toPlayers] ∧ (step = .plain "id" ∨ step = .plain "team_id") := by
  rw [routes_listed] at h
  match front with
  | [] =>
      simp only [List.nil_append, List.mem_cons, List.cons.injEq, List.not_mem_nil, or_false] at h
      grind
  | [first] =>
      simp only [List.singleton_append, List.mem_cons, List.cons.injEq, reduceCtorEq, and_false,
        List.not_mem_nil, or_false, false_or] at h
      grind
  | first :: second :: later => simp at h

theorem laidOut_listed : LaidOut (routes listed.plan.columns.selected) unnamed where
  root := rfl
  columns := by
    intro path hpath
    rw [routes_listed] at hpath
    simp only [List.mem_cons, List.not_mem_nil, or_false] at hpath
    rcases hpath with rfl | rfl | rfl
    · exact ⟨[], "id", rfl⟩
    · exact ⟨[toPlayers], "id", rfl⟩
    · exact ⟨[toPlayers], "team_id", rfl⟩
  apart := by
    rw [routes_listed]
    decide
  steps := by
    intro front step rest hmem front' step' rest' hmem' hnames hfield
    rcases step_of_listed hmem with ⟨rfl, rfl⟩ | ⟨rfl, rfl⟩ | ⟨rfl, rfl | rfl⟩ <;>
      rcases step_of_listed hmem' with ⟨rfl, rfl⟩ | ⟨rfl, rfl⟩ | ⟨rfl, rfl | rfl⟩ <;>
        first
          | rfl
          | exact absurd hnames (by decide)
          | exact absurd hfield (by decide)
  lists := by
    intro front step rest hmem hmany
    rcases step_of_listed hmem with ⟨rfl, rfl⟩ | ⟨rfl, rfl⟩ | ⟨rfl, rfl | rfl⟩
    · cases hmany
    · exact .inr rfl
    · cases hmany
    · cases hmany

/-- The row of a team with a player: both keys, the copy of the team's, the team's name by default
and the shirt that players start with. -/
theorem assemble_overlays_listed :
    ∃ row, row = assemble listed.plan.columns.selected unnamed kim ∧
      read? [.plain "id"] row = some (.ofInt 1) ∧
      read? [toPlayers, .plain "id"] row = some (.ofInt 7) ∧
      read? [toPlayers, .plain "team_id"] row = some (.ofInt 1) ∧
      lookup? ["name"] row = some (.str "unnamed") ∧
      (read? [toPlayers] row).bind (lookup? ["shirt"]) = some (.str "none") := by
  have h := assemble_overlays laidOut_listed kim
  have hteam : ∃ entry ∈ listed.plan.columns.selected, entry.HasValue kim (.ofInt 1) ∧
      entry.path = [.plain "id"] ∧ entry.copies = [[toPlayers, .plain "team_id"]] :=
    ⟨_, List.mem_cons_self, ⟨rfl, nofun⟩, rfl, rfl⟩
  have hplayer : ∃ entry ∈ listed.plan.columns.selected, entry.HasValue kim (.ofInt 7) ∧
      entry.path = [toPlayers, .plain "id"] :=
    ⟨_, List.mem_cons_of_mem _ List.mem_cons_self, ⟨rfl, nofun⟩, rfl⟩
  rcases hteam with ⟨team, hteam, hkey, hpath, hcopies⟩
  rcases hplayer with ⟨player, hplayer, hvalue, hbelow⟩
  have hmade : ValuedBelow listed.plan.columns.selected kim ([] ++ [toPlayers]) :=
    ⟨player, hplayer, _, [.plain "id"], hvalue, List.cons_ne_nil _ _, hbelow⟩
  have hnone : ¬ HasObject "players" unnamed := by
    rintro ⟨item, hitem, hobject⟩
    cases hitem
    cases hobject
  have hlist : [] ++ toPlayers :: .plain "id" :: [] ∈ routes listed.plan.columns.selected := by
    rw [routes_listed]
    exact List.mem_cons_of_mem _ List.mem_cons_self
  have hroute : ∀ entry ∈ listed.plan.columns.selected, ∀ path ∈ entry.copies,
      path ∈ routes listed.plan.columns.selected := fun entry hentry path hcopy =>
    List.mem_append_right _ (List.mem_flatMap.2 ⟨entry, hentry, hcopy⟩)
  have hfree : ∀ entry ∈ listed.plan.columns.selected, ¬ ["name"] <+: fieldNames entry.path ∧
      ¬ ["players", "shirt"] <+: fieldNames entry.path := by decide
  -- neither path is one that a selected column or a copy takes
  have hapart : ∀ path ∈ routes listed.plan.columns.selected,
      Apart ["name"] (fieldNames path) ∧ Apart ["players", "shirt"] (fieldNames path) := by
    have hother : "name" ≠ "id" ∧ "name" ≠ "players" ∧ "players" ≠ "id" ∧ "shirt" ≠ "id" ∧
        "shirt" ≠ "team_id" := by decide
    intro path hmem
    rw [routes_listed] at hmem
    simp only [List.mem_cons, List.not_mem_nil, or_false] at hmem
    rcases hmem with rfl | rfl | rfl
    · exact ⟨.here hother.1 _ _, .here hother.2.2.1 _ _⟩
    · exact ⟨.here hother.2.1 _ _, .later _ (.here hother.2.2.2.1 _ _)⟩
    · exact ⟨.here hother.2.1 _ _, .later _ (.here hother.2.2.2.2 _ _)⟩
  rcases (h.related [] toPlayers (.plain "id") [] hlist hnone).2 hmade with ⟨item, hitem, hobject⟩
  refine ⟨_, rfl, hpath ▸ h.values team hteam _ hkey, hbelow ▸ h.values player hplayer _ hvalue,
    ?_, ?_, ?_⟩
  · refine h.copies team hteam _ hkey _ ?_ item hitem hobject
    rw [hcopies]
    exact List.mem_cons_self
  · refine h.rest [] "name" [] (.inl rfl) ?_ ?_ ?_
    · exact fun entry hentry _ _ => (hfree entry hentry).1
    · exact fun entry hentry _ _ path hcopy _ _ _ => (hapart path (hroute entry hentry path hcopy)).1
    · intro path hpath hprefix
      exact absurd hprefix (by revert path; decide)
  · refine h.rest [toPlayers] "shirt" [] (.inr hmade) ?_ ?_ ?_
    · exact fun entry hentry _ _ => (hfree entry hentry).2
    · exact fun entry hentry _ _ path hcopy _ _ _ => (hapart path (hroute entry hentry path hcopy)).2
    · intro path hpath hprefix
      exact absurd hprefix (by revert path; decide)

end Squads

end FieldQuery
