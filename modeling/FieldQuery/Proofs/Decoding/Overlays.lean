import Mathlib.Data.List.Pairwise
import FieldQuery.Proofs.Decoding.Writes

/-!
# What an overlay leaves at a field

Where the paths of all writes are apart, each field of a row is a matter of its own.  Where paths lead
on behind the field, the part of the overlay behind it is laid over the object there, if there is one
or there is a value to make one, and a list gets that object as its only item; otherwise the field is
as it was.  Where a path ends, the value stands there.

Main definitions:

- `origin`: the default that an object at the end of a path starts from.
- `LaidOut`: paths that are apart, over a default that has no related models in its lists.
- `Overlay.Laid`: an overlay with such paths, and with the lists on them.

Main statements: `Overlay.Laid.get?_made`, `Overlay.Laid.get?_kept` and `Overlay.Laid.get?_column`.
-/

namespace FieldQuery

/-! ## Steps -/

namespace PathStep

/-- A related model, as a step's field holds it. -/
def hold (step : PathStep) (item : Json) : Json :=
  if step.many then .arr [item] else item

theorem hold_of_plain {step : PathStep} (h : step.many = false) (item : Json) :
    step.hold item = item := by
  rw [hold, h]
  rfl

theorem isObject_fresh (step : PathStep) : step.fresh.isObject = true := by
  unfold fresh
  split <;> rfl

theorem isObject_slot (step : PathStep) (found : Option Json) :
    (step.slot found).isObject = true := by
  unfold slot
  split
  · split
    · assumption
    · exact step.isObject_fresh
  · exact step.isObject_fresh

end PathStep

/-- The default that the object at the end of a path starts from: on the way, an object that a field
holds by default, or else the default of the related type, if that is an object. -/
def origin : List PathStep → Json → Json
  | [], row => row
  | step :: rest, row =>
    match row.get? step.field, step.default with
    | some (.obj members), _ => origin rest (.obj members)
    | _, some (.obj members) => origin rest (.obj members)
    | _, _ => origin rest (.obj [])

/-- What is found or made at a step is what the object there starts from. -/
theorem origin_cons (step : PathStep) (rest : List PathStep) (row : Json) :
    origin (step :: rest) row = origin rest (step.slot (row.get? step.field)) := by
  -- an object by default, an object of the related type, or neither
  rw [origin]
  split
  case h_1 hheld => rw [hheld, step.slot_of_object rfl]
  case h_2 hdefault hplain => rw [step.slot_of_plain hplain, PathStep.fresh, hdefault]
  case h_3 hplain hdefault =>
    rw [step.slot_of_plain hplain, PathStep.fresh]
    split
    · exact absurd ‹_› (hdefault _)
    · rfl

/-! ## Paths -/

theorem map_path_under (field : String) (writes : List Write) :
    (writes.filterMap (Write.under? field)).map (·.path) =
      (writes.map (·.path)).filterMap (pathUnder? field) := by
  rw [List.map_filterMap, List.filterMap_map]
  congr 1
  funext write
  simp [Write.under?, Function.comp_def]

/-- Paths to columns that are apart, over a default.  Paths that lead to the same field take the same
step there, and a list of related models has none by default. -/
structure LaidOut (paths : List (List PathStep)) (row : Json) : Prop where
  root : row.isObject = true
  columns : ∀ path ∈ paths, ∃ front field, path = front ++ [.plain field]
  apart : paths.Pairwise fun p q =>
    ¬ fieldNames p <+: fieldNames q ∧ ¬ fieldNames q <+: fieldNames p
  steps : ∀ front step rest, front ++ step :: rest ∈ paths →
    ∀ front' step' rest', front' ++ step' :: rest' ∈ paths →
      fieldNames front = fieldNames front' → step.field = step'.field → step = step'
  lists : ∀ front step rest, front ++ step :: rest ∈ paths → step.many = true →
    (origin front row).get? step.field = none ∨ (origin front row).get? step.field = some (.arr [])

namespace LaidOut

variable {paths : List (List PathStep)} {row : Json} {step next : PathStep}
  {rest : List PathStep}

theorem ne_nil (h : LaidOut paths row) {path : List PathStep} (hpath : path ∈ paths) :
    path ≠ [] := by
  rcases h.columns path hpath with ⟨front, field, rfl⟩
  exact List.append_ne_nil_of_right_ne_nil _ (List.cons_ne_nil _ _)

/-- Of two paths, none is a part of the other. -/
theorem not_prefix (h : LaidOut paths row) {p q : List PathStep} (hp : p ∈ paths) (hq : q ∈ paths)
    (hne : p ≠ q) : ¬ fieldNames p <+: fieldNames q := by
  have hsymm : Std.Symm fun p q : List PathStep =>
      ¬ fieldNames p <+: fieldNames q ∧ ¬ fieldNames q <+: fieldNames p :=
    ⟨fun _ _ hboth => hboth.symm⟩
  exact (h.apart.forall hp hq hne).1

/-- Where a path leads through a field, none ends. -/
theorem ne_single (h : LaidOut paths row) (hmem : step :: next :: rest ∈ paths)
    {path : List PathStep} (hpath : path ∈ paths) : fieldNames path ≠ [step.field] := by
  intro hnames
  have hne : path ≠ step :: next :: rest := by
    rintro rfl
    simp [fieldNames] at hnames
  refine h.not_prefix hpath hmem hne ?_
  rw [hnames]
  exact ⟨fieldNames (next :: rest), rfl⟩

/-- A column is no list. -/
theorem many_eq_false (h : LaidOut paths row) (hsingle : [step] ∈ paths) : step.many = false := by
  rcases h.columns _ hsingle with ⟨front, field, hplain⟩
  cases front with
  | nil =>
      cases hplain
      rfl
  | cons first front => simp at hplain

/-- What a list of related models holds by default is nothing. -/
theorem eq_of_many (h : LaidOut paths row) (hmem : step :: next :: rest ∈ paths)
    (hmany : step.many = true) {item : Json} (hitem : row.get? step.field = some item) :
    item = .arr [] := by
  rcases h.lists [] step _ hmem hmany with hnone | hdefault
  · cases hitem.symm.trans hnone
  · exact Option.some.inj (hitem.symm.trans hdefault)

/-- A step that holds an object by default leads into no list. -/
theorem many_of_object (h : LaidOut paths row) (hmem : step :: next :: rest ∈ paths)
    (hobject : HasObject step.field row) : step.many = false := by
  rcases hobject with ⟨item, hitem, hobject⟩
  rw [← Bool.not_eq_true]
  intro hmany
  rw [h.eq_of_many hmem hmany hitem] at hobject
  cases hobject

/-- The paths behind a field, over what an object there starts from. -/
theorem under (h : LaidOut paths row) (hmem : step :: next :: rest ∈ paths) :
    LaidOut (paths.filterMap (pathUnder? step.field)) (step.slot (row.get? step.field)) := by
  -- what is left of a path is what it was behind this very step
  have hback : ∀ path ∈ paths.filterMap (pathUnder? step.field), step :: path ∈ paths := by
    intro path hpath
    rcases List.mem_filterMap.1 hpath with ⟨whole, hwhole, hunder⟩
    rcases onward?_eq_some.1 hunder with ⟨-, first, hfield, rfl⟩
    have hsame : first = step :=
      h.steps [] first path hwhole [] step (next :: rest) hmem rfl hfield
    exact hsame ▸ hwhole
  refine ⟨step.isObject_slot _, fun path hpath => ?_, ?_, ?_, ?_⟩
  · rcases h.columns _ (hback path hpath) with ⟨front, field, heq⟩
    have hne : path ≠ [] := by
      rcases List.mem_filterMap.1 hpath with ⟨whole, -, hunder⟩
      exact (onward?_eq_some.1 hunder).1
    cases front with
    | nil =>
        cases heq
        exact absurd rfl hne
    | cons first front =>
        cases heq
        exact ⟨front, field, rfl⟩
  · refine List.pairwise_filterMap.2 (h.apart.imp ?_)
    intro p q hboth p' hp q' hq
    rcases onward?_eq_some.1 hp with ⟨-, first, hfirst, rfl⟩
    rcases onward?_eq_some.1 hq with ⟨-, second, hsecond, rfl⟩
    simpa [fieldNames, hfirst, hsecond] using hboth
  · intro front first tail hpath front' first' tail' hpath' hnames hfield
    refine h.steps (step :: front) first tail (hback _ hpath) (step :: front') first' tail'
      (hback _ hpath') ?_ hfield
    simp only [fieldNames, List.map_cons] at hnames ⊢
    rw [hnames]
  · intro front first tail hpath hmany
    rw [← origin_cons]
    exact h.lists (step :: front) first tail (hback _ hpath) hmany

end LaidOut

namespace Overlay

variable {overlay : Overlay} {row : Json} {step next : PathStep} {rest : List PathStep}

theorem isObject_apply (h : overlay.ListsSorted) (hrow : row.isObject = true) :
    (overlay.apply row).isObject = true := by
  have hput := isObject_foldl_put hrow overlay.own
  exact isObject_foldr_enlist h.ne_nil _ (isObject_foldl_copy hput overlay.copies)

/-- Without values nothing is laid over what is no object. -/
theorem apply_of_not_object (h : overlay.ListsSorted) (hempty : ¬ overlay.isFilled)
    (hrow : row.isObject = false) : overlay.apply row = row := by
  have hkept : overlay.own.foldl Write.put row = row := by
    refine foldl_put_of_none (fun write hmem => ?_) row
    rw [isFilled, Bool.not_eq_true, List.any_eq_false] at hempty
    simpa using hempty write hmem
  rw [apply, hkept, foldl_copy_of_not_object hrow, foldr_enlist_of_not_object h.ne_nil _ hrow]

/-! ## One field -/

/-- The paths of all writes. -/
def paths (overlay : Overlay) : List (List PathStep) :=
  (overlay.own ++ overlay.copies).map (·.path)

theorem paths_under (overlay : Overlay) (field : String) :
    (overlay.under field).paths = overlay.paths.filterMap (pathUnder? field) := by
  simp only [paths, under, List.map_append, List.filterMap_append, map_path_under]

/-- An overlay with paths that are apart, and with the lists on the paths of selected fields. -/
structure Laid (overlay : Overlay) (row : Json) : Prop where
  out : LaidOut overlay.paths row
  sorted : overlay.ListsSorted
  mem_lists : ∀ path, path ∈ overlay.lists ↔ ∃ write ∈ overlay.own, path ∈ manyPaths write.path

theorem mem_paths_own {write : Write} (h : write ∈ overlay.own) : write.path ∈ overlay.paths :=
  List.mem_map_of_mem (List.mem_append_left _ h)

theorem mem_paths_copies {write : Write} (h : write ∈ overlay.copies) :
    write.path ∈ overlay.paths :=
  List.mem_map_of_mem (List.mem_append_right _ h)

theorem Laid.under (h : overlay.Laid row) (hmem : step :: next :: rest ∈ overlay.paths) :
    (overlay.under step.field).Laid (step.slot (row.get? step.field)) where
  out := by
    rw [paths_under]
    exact h.out.under hmem
  sorted := h.sorted.under step.field
  mem_lists := by
    intro path
    simp only [Overlay.under, List.mem_filterMap]
    constructor
    · rintro ⟨whole, hwhole, hunder⟩
      rcases listUnder?_eq_some.1 hunder with ⟨hne, rfl⟩
      rcases (h.mem_lists _).1 hwhole with ⟨write, hwrite, hmany⟩
      rcases List.exists_cons_of_ne_nil hne with ⟨field, tail, rfl⟩
      rcases head_of_mem_manyPaths hmany with ⟨first, later, hpath, hfield⟩
      rw [hpath, mem_manyPaths_cons] at hmany
      have hlater : later ≠ [] := by
        rintro rfl
        exact List.not_mem_nil hmany.2
      refine ⟨⟨write.value?, later⟩, ⟨write, hwrite, ?_⟩, hmany.2⟩
      exact Write.under?_eq_some.2 ⟨rfl, hlater, first, hfield, hpath⟩
    · rintro ⟨later, ⟨write, hwrite, hunder⟩, hmany⟩
      rcases Write.under?_eq_some.1 hunder with ⟨-, -, first, hfield, hpath⟩
      have hne := ne_nil_of_mem_manyPaths hmany
      refine ⟨step.field :: path, (h.mem_lists _).2 ⟨write, hwrite, ?_⟩,
        listUnder?_eq_some.2 ⟨hne, rfl⟩⟩
      rcases List.exists_cons_of_ne_nil hne with ⟨field, tail, rfl⟩
      rw [hpath, mem_manyPaths_cons]
      exact ⟨hfield, hmany⟩

/-- What lies behind a field takes the same step. -/
theorem Laid.step_eq (h : overlay.Laid row) (hmem : step :: next :: rest ∈ overlay.paths)
    {first : PathStep} {tail : List PathStep} (hpath : first :: tail ∈ overlay.paths)
    (hfield : first.field = step.field) : first = step :=
  h.out.steps [] first tail hpath [] step (next :: rest) hmem rfl hfield

theorem mem_filterMap_under? {writes : List Write} {value : Option Json} {path : List PathStep}
    (hsame : ∀ write ∈ writes, ∀ first tail, write.path = first :: tail →
      first.field = step.field → first = step) :
    ⟨value, path⟩ ∈ writes.filterMap (Write.under? step.field) ↔
      path ≠ [] ∧ ⟨value, step :: path⟩ ∈ writes := by
  rw [List.mem_filterMap]
  constructor
  · rintro ⟨⟨value', whole⟩, hwrite, hunder⟩
    rcases Write.under?_eq_some.1 hunder with ⟨rfl, hne, first, hfield, rfl⟩
    exact ⟨hne, hsame _ hwrite first path rfl hfield ▸ hwrite⟩
  · rintro ⟨hne, hwrite⟩
    exact ⟨_, hwrite, Write.under?_eq_some.2 ⟨rfl, hne, step, rfl, rfl⟩⟩

theorem Laid.mem_own_under (h : overlay.Laid row) (hmem : step :: next :: rest ∈ overlay.paths)
    {value : Option Json} {path : List PathStep} :
    ⟨value, path⟩ ∈ (overlay.under step.field).own ↔
      path ≠ [] ∧ ⟨value, step :: path⟩ ∈ overlay.own :=
  mem_filterMap_under? fun _ hwrite _ _ hpath hfield =>
    h.step_eq hmem (hpath ▸ mem_paths_own hwrite) hfield

theorem Laid.mem_copies_under (h : overlay.Laid row) (hmem : step :: next :: rest ∈ overlay.paths)
    {value : Option Json} {path : List PathStep} :
    ⟨value, path⟩ ∈ (overlay.under step.field).copies ↔
      path ≠ [] ∧ ⟨value, step :: path⟩ ∈ overlay.copies :=
  mem_filterMap_under? fun _ hwrite _ _ hpath hfield =>
    h.step_eq hmem (hpath ▸ mem_paths_copies hwrite) hfield

theorem Laid.mem_paths_under (h : overlay.Laid row) (hmem : step :: next :: rest ∈ overlay.paths)
    {path : List PathStep} : path ∈ (overlay.under step.field).paths ↔
      path ≠ [] ∧ step :: path ∈ overlay.paths := by
  rw [paths_under, List.mem_filterMap]
  constructor
  · rintro ⟨whole, hwhole, hunder⟩
    rcases onward?_eq_some.1 hunder with ⟨hne, first, hfield, rfl⟩
    exact ⟨hne, h.step_eq hmem hwhole hfield ▸ hwhole⟩
  · rintro ⟨hne, hwhole⟩
    exact ⟨_, hwhole, onward?_eq_some.2 ⟨hne, step, rfl, rfl⟩⟩

/-- There is a value behind a field if a value's path goes on there. -/
theorem Laid.isFilled_under (h : overlay.Laid row) (hmem : step :: next :: rest ∈ overlay.paths) :
    (overlay.under step.field).isFilled ↔
      ∃ value path, path ≠ [] ∧ ⟨some value, step :: path⟩ ∈ overlay.own := by
  rw [isFilled, List.any_eq_true]
  constructor
  · rintro ⟨⟨value, path⟩, hunder, hsome⟩
    rcases Option.isSome_iff_exists.1 hsome with ⟨value, rfl⟩
    exact ⟨value, path, (h.mem_own_under hmem).1 hunder⟩
  · rintro ⟨value, path, hpath⟩
    exact ⟨_, (h.mem_own_under hmem).2 hpath, rfl⟩

/-- A field that paths lead through is a list if its step is one. -/
theorem Laid.field_mem_lists (h : overlay.Laid row) (hmem : step :: next :: rest ∈ overlay.paths) :
    [step.field] ∈ overlay.lists ↔
      step.many = true ∧ ∃ write ∈ overlay.own, (write.under? step.field).isSome := by
  rw [h.mem_lists]
  constructor
  · rintro ⟨write, hwrite, hlist⟩
    rcases singleton_mem_manyPaths.1 hlist with ⟨first, tail, hpath, hmany, hfield⟩
    have hwhole : first :: tail ∈ overlay.paths := hpath ▸ mem_paths_own hwrite
    have hfirst := h.step_eq hmem hwhole hfield
    subst hfirst
    cases tail with
    | nil => exact absurd rfl (h.out.ne_single hmem hwhole)
    | cons second tail =>
        have hunder : write.under? first.field = some ⟨write.value?, second :: tail⟩ :=
          Write.under?_eq_some.2 ⟨rfl, List.cons_ne_nil _ _, first, rfl, hpath⟩
        refine ⟨hmany, write, hwrite, ?_⟩
        rw [hunder]
        rfl
  · rintro ⟨hmany, write, hwrite, hunder⟩
    rcases Option.isSome_iff_exists.1 hunder with ⟨later, hlater⟩
    rcases Write.under?_eq_some.1 hlater with ⟨-, -, first, hfield, hpath⟩
    have hfirst := h.step_eq hmem (hpath ▸ mem_paths_own hwrite) hfield
    subst hfirst
    exact ⟨write, hwrite, singleton_mem_manyPaths.2 ⟨first, _, hpath, hmany, rfl⟩⟩

/-- A list with a value in it is filled. -/
theorem Laid.field_filled (h : overlay.Laid row) (hmem : step :: next :: rest ∈ overlay.paths)
    (hmany : step.many = true) (hfilled : (overlay.under step.field).isFilled) :
    overlay.filled.contains [step.field] = true := by
  rcases List.any_eq_true.1 hfilled with ⟨later, hlater, hvalue⟩
  rcases List.mem_filterMap.1 hlater with ⟨write, hwrite, hunder⟩
  rcases Write.under?_eq_some.1 hunder with ⟨hsame, hne, first, hfield, hpath⟩
  have hfirst := h.step_eq hmem (hpath ▸ mem_paths_own hwrite) hfield
  subst hfirst
  rw [List.contains_iff_mem]
  refine List.mem_flatMap.2 ⟨write, List.mem_filter.2 ⟨hwrite, hsame ▸ hvalue⟩, ?_⟩
  rw [hpath, List.dropLast_cons_of_ne_nil hne]
  exact singleton_mem_manyPaths.2 ⟨first, _, rfl, hmany, rfl⟩

theorem Laid.get?_apply (h : overlay.Laid row) (hmem : step :: next :: rest ∈ overlay.paths) :
    (overlay.apply row).get? step.field =
      (if (overlay.under step.field).isFilled then some (step.slot (row.get? step.field))
        else row.get? step.field).map
          fun item => overlay.wrapAt step.field ((overlay.under step.field).apply item) := by
  refine Overlay.get?_apply h.sorted ?_ ?_ row
  · intro write hwrite first second tail hpath hfield
    exact h.step_eq hmem (hpath ▸ mem_paths_own hwrite) hfield
  · intro write hwrite _
    exact h.out.ne_single hmem (List.mem_map_of_mem hwrite)

/-- Where there is a value behind a field, or an object by default, the overlay goes on behind it. -/
theorem Laid.get?_made (h : overlay.Laid row) (hmem : step :: next :: rest ∈ overlay.paths)
    (hmade : (overlay.under step.field).isFilled ∨ HasObject step.field row) :
    (overlay.apply row).get? step.field =
      some (step.hold ((overlay.under step.field).apply (step.slot (row.get? step.field)))) := by
  -- either way it is the object of the slot that the overlay is laid over
  have hslot : (if (overlay.under step.field).isFilled then
      some (step.slot (row.get? step.field)) else row.get? step.field) =
        some (step.slot (row.get? step.field)) := by
    split
    · rfl
    · rename_i hempty
      rcases hmade.resolve_left hempty with ⟨item, hitem, hobject⟩
      rw [hitem, step.slot_of_object hobject]
  rw [h.get?_apply hmem, hslot, Option.map_some]
  congr 1
  have hobject : ((overlay.under step.field).apply (step.slot (row.get? step.field))).isObject =
      true := isObject_apply (h.under hmem).sorted (step.isObject_slot _)
  unfold wrapAt PathStep.hold
  cases hmany : step.many with
  | false =>
      have hplain : [step.field] ∉ overlay.lists := by
        intro hlist
        rw [((h.field_mem_lists hmem).1 hlist).1] at hmany
        cases hmany
      rw [if_neg hplain]
      rfl
  | true =>
      -- a list holds no object by default, so there is a value
      have hfilled : (overlay.under step.field).isFilled := by
        refine hmade.resolve_right fun hobject => ?_
        rw [h.out.many_of_object hmem hobject] at hmany
        cases hmany
      have hlist : [step.field] ∈ overlay.lists := by
        rcases List.any_eq_true.1 hfilled with ⟨later, hlater, -⟩
        rcases List.mem_filterMap.1 hlater with ⟨write, hwrite, hunder⟩
        refine (h.field_mem_lists hmem).2 ⟨hmany, write, hwrite, ?_⟩
        rw [hunder]
        rfl
      rw [if_pos hlist, enlisted, h.field_filled hmem hmany hfilled, hobject]
      rfl

/-- Otherwise the field is as it was. -/
theorem Laid.get?_kept (h : overlay.Laid row) (hmem : step :: next :: rest ∈ overlay.paths)
    (hempty : ¬ (overlay.under step.field).isFilled) (hnone : ¬ HasObject step.field row) :
    (overlay.apply row).get? step.field = row.get? step.field := by
  rw [h.get?_apply hmem, if_neg hempty]
  cases hitem : row.get? step.field with
  | none => rfl
  | some item =>
      have hplain : item.isObject = false := by
        rw [← Bool.not_eq_true]
        exact fun hobject => hnone ⟨item, hitem, hobject⟩
      rw [Option.map_some, apply_of_not_object (h.under hmem).sorted hempty hplain]
      congr 1
      unfold wrapAt
      split
      · rename_i hlist
        -- the list is empty, as it is by default
        have hmany := ((h.field_mem_lists hmem).1 hlist).1
        have hdefault := h.out.eq_of_many hmem hmany hitem
        subst hdefault
        rw [enlisted, if_neg]
        simp [Json.isObject]
      · rfl

/-! ## A column -/

/-- A path that leads through the field of a column is the column's. -/
theorem Laid.path_eq (h : overlay.Laid row) (hsingle : [step] ∈ overlay.paths)
    {first : PathStep} {tail : List PathStep} (hmem : first :: tail ∈ overlay.paths)
    (hfield : first.field = step.field) : first :: tail = [step] := by
  by_contra hne
  refine h.out.not_prefix hsingle hmem (Ne.symm hne) ⟨fieldNames tail, ?_⟩
  simp [fieldNames, hfield]

/-- Behind the field of a list there are paths that go on. -/
theorem Laid.exists_path (h : overlay.Laid row) {field : String} {tail : List String}
    (hlist : field :: tail ∈ overlay.lists) :
    ∃ step next rest, step :: next :: rest ∈ overlay.paths ∧ step.field = field := by
  rcases (h.mem_lists _).1 hlist with ⟨write, hwrite, hmany⟩
  have hwhole := mem_paths_own hwrite
  rcases head_of_mem_manyPaths hmany with ⟨step, rest, hpath, hfield⟩
  rw [hpath] at hwhole hmany
  cases rest with
  | nil =>
      -- a column is no list
      rw [manyPaths, h.out.many_eq_false hwhole] at hmany
      cases hmany
  | cons next rest => exact ⟨step, next, rest, hwhole, hfield⟩

/-- A field that no list lies at or behind is left alone by the last pass. -/
theorem get?_lists (h : overlay.ListsSorted) {field : String}
    (hnone : ∀ tail, field :: tail ∉ overlay.lists) (item : Json) :
    (overlay.lists.foldr (fun path row => enlist overlay.filled row path) item).get? field =
      item.get? field := by
  refine get?_foldr_enlist_of_ne (fun path hpath => ?_) _ item
  rcases List.exists_cons_of_ne_nil (h.ne_nil path hpath) with ⟨key, rest, rfl⟩
  refine ⟨key, rest, rfl, ?_⟩
  rintro rfl
  exact hnone rest hpath

/-- A value that is put into a field or copied there stands there at the end. -/
theorem Laid.get?_column (h : overlay.Laid row) {write : Write}
    (hmem : write ∈ overlay.own ++ overlay.copies) {value : Json} (hvalue : write.value? = some value)
    (hpath : write.path = [step]) : (overlay.apply row).get? step.field = some value := by
  have hsingle : [step] ∈ overlay.paths := hpath ▸ List.mem_map_of_mem hmem
  rcases write with ⟨_, _⟩
  subst hvalue hpath
  rcases List.append_of_mem hmem with ⟨front, back, hsplit⟩
  -- none of the later writes leads through the field
  have hback : ∀ other ∈ back, other.Avoids step.field := by
    intro other hother
    refine Write.avoids_of_path fun first rest hfirst hfield => ?_
    have hapart := h.out.apart
    rw [paths, hsplit, List.map_append, List.map_cons, List.pairwise_append,
      List.pairwise_cons] at hapart
    refine (hapart.2.1.1 _ (List.mem_map_of_mem hother)).1 ⟨fieldNames rest, ?_⟩
    rw [hfirst]
    simp [fieldNames, hfield]
  have hplain : ∀ tail, step.field :: tail ∉ overlay.lists := by
    intro tail hlist
    rcases h.exists_path hlist with ⟨first, next, rest, hwhole, hfield⟩
    cases h.path_eq hsingle hwhole hfield
  rw [apply, get?_lists h.sorted hplain]
  exact get?_last_value hsplit hback (isObject_foldl_put h.out.root _)

end Overlay

end FieldQuery
