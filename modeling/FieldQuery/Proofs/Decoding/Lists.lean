import Mathlib.Data.List.Forall2
import FieldQuery.Proofs.Decoding.Groups
import FieldQuery.Proofs.Decoding.Merging
import FieldQuery.Proofs.Decoding.Repeats

/-!
# What the models of a list of rows hold

With lists of related models at the root only, each of them is filled field by field: a row brings
the model that its columns below the field make, unless they are all null, and the lists of the rows
of a key are joined without repetitions.  All other fields are those of the first row.

Main definitions:

- `ListsFirst`: selected columns that make lists of related models only at the root.
- `placed`: a row's value before the lists are made; `related?`: the related model that it brings.
- `IsListOf`: a list of items, each once.
- `Collected`: what a model holds of the rows that it is made of.

Main statement: `ColumnMap.gather_collected`.
-/

namespace FieldQuery

open Json (lookup?)

/-! ## Fields -/

section Fields

variable {paths : List (List String)} {field : String}

/-- Changes at fields, each of which depends on the field alone, do not get in each other's way. -/
theorem get?_foldl_fields (change : Json → List String → Json)
    (effect : String → Option Json → Option Json)
    (hself : ∀ value field, (change value [field]).get? field = effect field (value.get? field))
    (hothers : ∀ value field other, other ≠ field →
      (change value [field]).get? other = value.get? other)
    (hpaths : ∀ p ∈ paths, ∃ field, p = [field]) (hnodup : paths.Nodup) (value : Json) :
    (paths.foldl change value).get? field =
      if [field] ∈ paths then effect field (value.get? field) else value.get? field := by
  induction paths generalizing value with
  | nil => rfl
  | cons p rest ih =>
      obtain ⟨other, rfl⟩ := hpaths p List.mem_cons_self
      obtain ⟨hnew, hrest⟩ := List.nodup_cons.1 hnodup
      rw [List.foldl_cons, ih (fun q hq => hpaths q (List.mem_cons_of_mem _ hq)) hrest]
      by_cases hfield : field = other
      · subst hfield
        simp [hnew, hself]
      · have hkept := hothers value other field hfield
        simp [hfield, hkept]

theorem lookup?_field (field : String) (value : Json) : lookup? [field] value = value.get? field := by
  cases h : value.get? field <;> simp [lookup?, h]

end Fields

/-! ## Selected columns -/

/-- A column is selected below a list of related models: the list's field and the column's path. -/
def Entry.isBelow (field : String) (entry : Entry) : Bool :=
  match entry.path with
  | step :: _ :: _ => step.many && step.field == field
  | _ => false

/-- Selected columns that make lists of related models only at the root: no step but the first one
holds many models, no column is itself such a step, and nothing else of the root is called like one
of the lists. -/
structure ListsFirst (entries : List Entry) : Prop where
  first : ∀ entry ∈ entries, ∀ step ∈ entry.path.tail, step.many = false
  columns : ∀ entry ∈ entries, ∀ step, entry.path = [step] → step.many = false
  apart : ∀ entry ∈ entries, ∀ step, [step] ∈ entry.path :: entry.copies →
    ∀ other ∈ entries, other.isBelow step.field = false

section Paths

variable {entries : List Entry} {field : String} {p : List String}

theorem manyPaths_of_first (step : PathStep) {rest : List PathStep}
    (h : ∀ later ∈ rest, later.many = false) :
    manyPaths (step :: rest) = if step.many then [[step.field]] else [] := by
  have hrest : manyPaths rest = [] := by
    induction rest with
    | nil => rfl
    | cons next rest ih =>
        have hlater := ih fun later hmem => h later (List.mem_cons_of_mem next hmem)
        simp [manyPaths, h next List.mem_cons_self, hlater]
  rw [manyPaths, hrest, List.map_nil, List.append_nil]

theorem ListsFirst.mem_manyPaths (h : ListsFirst entries) {entry : Entry} (hentry : entry ∈ entries) :
    p ∈ manyPaths entry.path ↔ ∃ field, p = [field] ∧ entry.isBelow field = true := by
  unfold Entry.isBelow
  match hpath : entry.path with
  | [] => simp [manyPaths]
  | [step] => simp [manyPaths, h.columns entry hentry step hpath]
  | step :: next :: rest =>
      have htail : ∀ later ∈ next :: rest, later.many = false := by
        simpa [hpath] using h.first entry hentry
      rw [manyPaths_of_first step htail]
      cases hmany : step.many <;> simp [hmany]

/-- The last step of a path is that of a column. -/
theorem ListsFirst.manyPaths_dropLast (h : ListsFirst entries) {entry : Entry}
    (hentry : entry ∈ entries) : manyPaths entry.path.dropLast = manyPaths entry.path := by
  match hpath : entry.path with
  | [] => rfl
  | [step] => simp [manyPaths, h.columns entry hentry step hpath]
  | step :: next :: rest =>
      have htail : ∀ later ∈ next :: rest, later.many = false := by
        simpa [hpath] using h.first entry hentry
      rw [List.dropLast_cons_cons, manyPaths_of_first step htail,
        manyPaths_of_first step fun later hmem => htail later (List.mem_of_mem_dropLast hmem)]

theorem ListsFirst.mem_listPaths (h : ListsFirst entries) :
    p ∈ listPaths entries ↔ ∃ field, p = [field] ∧ ∃ entry ∈ entries, entry.isBelow field = true := by
  rw [FieldQuery.mem_listPaths]
  constructor
  · rintro ⟨entry, hentry, hmem⟩
    obtain ⟨field, rfl, hbelow⟩ := (h.mem_manyPaths hentry).1 hmem
    exact ⟨field, rfl, entry, hentry, hbelow⟩
  · rintro ⟨field, rfl, entry, hentry, hbelow⟩
    exact ⟨entry, hentry, (h.mem_manyPaths hentry).2 ⟨field, rfl, hbelow⟩⟩

theorem ListsFirst.field_mem (h : ListsFirst entries) :
    [field] ∈ listPaths entries ↔ ∃ entry ∈ entries, entry.isBelow field = true := by
  rw [h.mem_listPaths]
  constructor
  · rintro ⟨_, heq, hbelow⟩
    obtain rfl := (List.cons.inj heq).1
    exact hbelow
  · exact fun hbelow => ⟨field, rfl, hbelow⟩

theorem nodup_listPaths (entries : List Entry) : (listPaths entries).Nodup :=
  nodup_sorted _ _

theorem ListsFirst.outermost_eq (h : ListsFirst entries) :
    outermost (listPaths entries) = listPaths entries := by
  refine List.filter_eq_self.2 fun p hp => ?_
  obtain ⟨field, rfl, -⟩ := h.mem_listPaths.1 hp
  have hshort : ∀ outer ∈ listPaths entries, outer = [] → ¬ outer <+: [field] :=
    fun outer houter hnil => absurd hnil (ne_nil_of_mem_listPaths houter)
  simpa using hshort

/-- Whether a row has a value below a list. -/
def isFilled (entries : List Entry) (field : String) (record : Record) : Bool :=
  entries.any fun entry => entry.isBelow field && (entry.value? record).isSome

theorem ListsFirst.contains_filledPaths (h : ListsFirst entries) (record : Record) :
    (filledPaths record entries).contains [field] = isFilled entries field record := by
  rw [Bool.eq_iff_iff, List.contains_iff_mem, isFilled, List.any_eq_true]
  simp only [filledPaths, List.mem_flatMap, List.mem_filter, Bool.and_eq_true]
  constructor
  · rintro ⟨entry, ⟨hentry, hvalue⟩, hmem⟩
    rw [h.manyPaths_dropLast hentry] at hmem
    obtain ⟨_, heq, hbelow⟩ := (h.mem_manyPaths hentry).1 hmem
    obtain rfl := (List.cons.inj heq).1
    exact ⟨entry, hentry, hbelow, hvalue⟩
  · rintro ⟨entry, hentry, hbelow, hvalue⟩
    refine ⟨entry, ⟨hentry, hvalue⟩, ?_⟩
    rw [h.manyPaths_dropLast hentry]
    exact (h.mem_manyPaths hentry).2 ⟨field, rfl, hbelow⟩

end Paths

/-! ## Placed values -/

/-- The value of a row before lists are made of the related models. -/
def placed (entries : List Entry) (fresh : Json) (record : Record) : Json :=
  entries.foldl (Entry.placeCopies record) (entries.foldl (Entry.placeIn record) fresh)

/-- The related model that a row brings to a list, if any of its columns below the list is not
null. -/
def related? (entries : List Entry) (fresh : Json) (field : String) (record : Record) :
    Option Json :=
  if isFilled entries field record then (placed entries fresh record).get? field else none

/-- There is an object at a field. -/
def HasObject (field : String) (row : Json) : Prop :=
  ∃ item, row.get? field = some item ∧ item.isObject = true

section Placed

variable {entries : List Entry} {field : String} {row value : Json} {record : Record}

theorem isObject_place (value : Json) {steps : List PathStep} (hne : steps ≠ []) (row : Json) :
    (place value steps row).isObject = true := by
  match steps with
  | [_] => rfl
  | _ :: _ :: _ => rfl

theorem isObject_update {change : Json → Json}
    (hchange : ∀ item, item.isObject = true → (change item).isObject = true) (keys : List String)
    (hrow : row.isObject = true) : (Json.update change keys row).isObject = true := by
  cases keys with
  | nil => exact hchange row hrow
  | cons key rest =>
      unfold Json.update
      split
      · exact Json.isObject_set _ _ _
      · exact hrow

/-- What is placed below a field leaves an object there. -/
theorem hasObject_place_below {step next : PathStep} (rest : List PathStep) (value row : Json) :
    HasObject step.field (place value (step :: next :: rest) row) := by
  rw [place]
  exact ⟨_, Json.get?_set_self _ _ _, isObject_place value (List.cons_ne_nil _ _) _⟩

theorem HasObject.set (h : HasObject field row) {other : String} (hne : other ≠ field)
    (value : Json) : HasObject field (row.set other value) := by
  obtain ⟨item, hitem, hobject⟩ := h
  exact ⟨item, (Json.get?_set_of_ne (Ne.symm hne) row value).trans hitem, hobject⟩

theorem HasObject.place (h : HasObject field row) {steps : List PathStep}
    (hsteps : ∀ step, steps = [step] → step.field ≠ field) (value : Json) :
    HasObject field (place value steps row) := by
  match steps with
  | [] => exact h
  | [step] => exact h.set (hsteps step rfl) value
  | step :: next :: rest =>
      by_cases hstep : step.field = field
      · exact hstep ▸ hasObject_place_below rest value row
      · rw [FieldQuery.place]
        exact h.set hstep _

theorem HasObject.update (h : HasObject field row) {change : Json → Json}
    (hchange : ∀ item, item.isObject = true → (change item).isObject = true) (key : String)
    (rest : List String) : HasObject field (Json.update change (key :: rest) row) := by
  obtain ⟨item, hitem, hobject⟩ := h
  rw [Json.update_cons]
  by_cases hkey : field = key
  · subst hkey
    refine ⟨Json.update change rest item, ?_, isObject_update hchange rest hobject⟩
    rw [Json.get?_update_self, hitem, Option.map_some]
  · exact ⟨item, (Json.get?_update_of_ne hkey _ row).trans hitem, hobject⟩

theorem HasObject.placeCopy (h : HasObject field row) {steps : List PathStep}
    (hsteps : ∀ step, steps = [step] → step.field ≠ field) (value : Json) :
    HasObject field (placeCopy value row steps) := by
  match steps with
  | [] => exact h
  | [step] =>
      by_cases hrow : row.isObject = true
      · simpa [FieldQuery.placeCopy, Json.update, hrow] using h.set (hsteps step rfl) value
      · simpa [FieldQuery.placeCopy, Json.update, hrow] using h
  | step :: next :: rest =>
      have hlast : (step :: next :: rest).getLast? = some ((next :: rest).getLast (by simp)) := by
        rw [List.getLast?_cons_cons, List.getLast?_eq_some_getLast]
      simp only [FieldQuery.placeCopy, hlast, List.dropLast_cons_cons, List.map_cons]
      refine h.update (fun item hitem => ?_) _ _
      rw [if_pos hitem]
      exact Json.isObject_set _ _ _

theorem HasObject.foldl {α : Type} {change : Json → α → Json} {items : List α}
    (h : HasObject field row)
    (hchange : ∀ item ∈ items, ∀ row, HasObject field row → HasObject field (change row item)) :
    HasObject field (items.foldl change row) := by
  induction items generalizing row with
  | nil => exact h
  | cons item rest ih =>
      exact ih (hchange item List.mem_cons_self row h)
        fun later hmem => hchange later (List.mem_cons_of_mem item hmem)

variable (hlists : ListsFirst entries) {entry other : Entry}
include hlists

/-- No column of the root is called like a list. -/
theorem ListsFirst.field_ne (hother : other ∈ entries) (hbelow : other.isBelow field = true)
    (hentry : entry ∈ entries) {steps : List PathStep} (hsteps : steps ∈ entry.path :: entry.copies) :
    ∀ step, steps = [step] → step.field ≠ field := by
  rintro step rfl rfl
  have hnot := hlists.apart entry hentry step hsteps other hother
  rw [hbelow] at hnot
  cases hnot

theorem HasObject.placeIn (h : HasObject field row) (hother : other ∈ entries)
    (hbelow : other.isBelow field = true) (hentry : entry ∈ entries) :
    HasObject field (entry.placeIn record row) := by
  unfold Entry.placeIn
  split
  · exact h.place (hlists.field_ne hother hbelow hentry List.mem_cons_self) _
  · exact h

theorem HasObject.placeCopies (h : HasObject field row) (hother : other ∈ entries)
    (hbelow : other.isBelow field = true) (hentry : entry ∈ entries) :
    HasObject field (entry.placeCopies record row) := by
  unfold Entry.placeCopies
  split
  case h_1 value _ =>
    refine h.foldl fun steps hsteps row hrow => ?_
    exact hrow.placeCopy
      (hlists.field_ne hother hbelow hentry (List.mem_cons_of_mem _ hsteps)) value
  case h_2 => exact h

/-- A row with a value below a list has the related model in the list's place. -/
theorem ListsFirst.hasObject_placed (fresh : Json) (h : isFilled entries field record = true) :
    HasObject field (placed entries fresh record) := by
  obtain ⟨entry, hentry, hboth⟩ := List.any_eq_true.1 h
  obtain ⟨hbelow, hvalue⟩ : entry.isBelow field = true ∧ (entry.value? record).isSome = true := by
    simpa using hboth
  obtain ⟨front, back, hsplit⟩ := List.append_of_mem hentry
  have hback : ∀ other ∈ back, other ∈ entries := by
    intro other hmem
    rw [hsplit]
    exact List.mem_append_right front (List.mem_cons_of_mem entry hmem)
  have hown : ∀ row, HasObject field (entry.placeIn record row) := by
    intro row
    obtain ⟨value, hvalue⟩ := Option.isSome_iff_exists.1 hvalue
    unfold Entry.isBelow at hbelow
    split at hbelow
    case h_1 step next rest hpath =>
      obtain ⟨-, rfl⟩ : step.many = true ∧ step.field = field := by simpa using hbelow
      simpa [Entry.placeIn, hvalue, hpath] using hasObject_place_below rest value row
    case h_2 => cases hbelow
  -- the entry's own value makes the object, and nothing that comes later takes it away
  have hplaced : HasObject field (entries.foldl (Entry.placeIn record) fresh) := by
    rw [hsplit, List.foldl_append, List.foldl_cons]
    exact (hown _).foldl fun other hmem row hrow =>
      hrow.placeIn hlists hentry hbelow (hback other hmem)
  exact hplaced.foldl fun other hmem row hrow => hrow.placeCopies hlists hentry hbelow hmem

end Placed

/-! ## Lists -/

/-- Each item once, in the order of the first ones. -/
def distinct (items : List Json) : List Json :=
  items.eraseDupsBy fun item known => known.same item

/-- A field holds the list of some items, each once; a list of none may be missing. -/
def IsListOf (items : List Json) (found : Option Json) : Prop :=
  found = some (.arr (distinct items)) ∨ items = [] ∧ found = none

/-- A field of a model after a row has been merged into it at that field. -/
def mergedField (known own : Option Json) : Option Json :=
  match own with
  | some (.arr items) => some (.arr (withItems items known))
  | _ => known

theorem addAll_nil (items : List Json) : items.foldl addMissing [] = distinct items := by
  have hloop : ∀ known : List Json,
      List.eraseDupsBy.loop (fun item known => known.same item) items known =
        items.foldl addMissing known.reverse := by
    induction items with
    | nil => exact fun known => rfl
    | cons item rest ih =>
        intro known
        rw [List.eraseDupsBy.loop, List.foldl_cons, addMissing, List.any_reverse]
        cases hany : known.any (·.same item) with
        | true => simpa [hany] using ih known
        | false => simpa [hany] using ih (item :: known)
  exact (hloop []).symm

theorem distinct_toList (item : Option Json) : distinct item.toList = item.toList := by
  cases item <;> rfl

/-- A list goes on with what a row brings. -/
theorem IsListOf.merged {items : List Json} {known own : Option Json} {item : Option Json}
    (hknown : IsListOf items known) (hown : IsListOf item.toList own) :
    IsListOf (items ++ item.toList) (mergedField known own) := by
  rcases hown with rfl | ⟨hnone, rfl⟩
  · left
    rw [distinct_toList, mergedField]
    rcases hknown with rfl | ⟨rfl, rfl⟩
    · rw [withItems, ← addAll_nil, ← addAll_nil, ← List.foldl_append]
    · rw [List.nil_append, distinct_toList]
      rfl
  · rw [hnone, List.append_nil]
    exact hknown

/-! ## Assembled rows -/

section Assembled

variable {entries : List Entry} (h : ListsFirst entries) (fresh : Json) (field : String)
include h

theorem ListsFirst.get?_assemble (record : Record) :
    (assemble entries fresh record).get? field =
      if [field] ∈ listPaths entries then
        ((placed entries fresh record).get? field).map fun _ =>
          .arr (related? entries fresh field record).toList
      else (placed entries fresh record).get? field := by
  let effect : String → Option Json → Option Json := fun field found => found.map fun item =>
    if (filledPaths record entries).contains [field] && item.isObject then .arr [item] else .arr []
  have hpaths : ∀ p ∈ (listPaths entries).reverse, ∃ field, p = [field] := by
    intro p hp
    exact (h.mem_listPaths.1 (List.mem_reverse.1 hp)).imp fun _ hfound => hfound.1
  have hfold : (assemble entries fresh record).get? field =
      if [field] ∈ (listPaths entries).reverse then
        effect field ((placed entries fresh record).get? field)
      else (placed entries fresh record).get? field :=
    get?_foldl_fields (enlist (filledPaths record entries)) effect
      (fun value field => Json.get?_update_self _ field value)
      (fun value _ _ hne => Json.get?_update_of_ne hne _ value)
      hpaths (List.nodup_reverse.2 (nodup_listPaths entries)) _
  have hlisted : effect field ((placed entries fresh record).get? field) =
      ((placed entries fresh record).get? field).map fun _ =>
        .arr (related? entries fresh field record).toList := by
    simp only [effect, h.contains_filledPaths]
    cases hfilled : isFilled entries field record with
    | false => simp [related?, hfilled]
    | true =>
        obtain ⟨item, hitem, hobject⟩ := h.hasObject_placed fresh hfilled
        simp [related?, hfilled, hitem, hobject]
  rw [hfold, hlisted]
  simp only [List.mem_reverse]

/-- A row has its related model in the list, or no list at all if the model it starts from has
nothing in the list's place. -/
theorem ListsFirst.isListOf_assemble (hlist : [field] ∈ listPaths entries) (record : Record) :
    IsListOf (related? entries fresh field record).toList
      ((assemble entries fresh record).get? field) := by
  rw [h.get?_assemble, if_pos hlist]
  cases hplaced : (placed entries fresh record).get? field with
  | some item =>
      left
      rw [distinct_toList]
      rfl
  | none => exact .inr ⟨by simp [related?, hplaced], rfl⟩

end Assembled

/-! ## Models -/

section Models

variable {entries : List Entry} (h : ListsFirst entries) (fresh : Json) {field : String}

theorem get?_mergeList_self (row model : Json) (field : String) :
    (mergeList row model [field]).get? field = mergedField (model.get? field) (row.get? field) := by
  have hne : [field] ≠ [] := List.cons_ne_nil _ _
  by_cases hrow : ∃ items, lookup? [field] row = some (.arr items)
  · obtain ⟨items, hitems⟩ := hrow
    rw [mergeList_of_list hne hitems, lookup?_field]
    rw [lookup?_field] at hitems
    rw [hitems]
    exact Json.get?_set_self _ _ _
  · have hnone : ∀ items, lookup? [field] row ≠ some (.arr items) :=
      fun items hitems => hrow ⟨items, hitems⟩
    rw [mergeList_of_no_list hnone]
    simp only [lookup?_field] at hnone
    unfold mergedField
    split
    case h_1 items hitems => exact absurd hitems (hnone items)
    case h_2 => rfl

theorem get?_mergeList_of_ne {other : String} (hne : other ≠ field) (row model : Json) :
    (mergeList row model [field]).get? other = model.get? other := by
  obtain hkept | ⟨items, hadded⟩ := mergeList_cases (List.cons_ne_nil field []) row
  · rw [hkept]
  · rw [hadded]
    exact Json.get?_set_of_ne hne _ _

include h

theorem ListsFirst.get?_mergeRow (row model : Json) (field : String) :
    (mergeRow (listPaths entries) model row).get? field =
      if [field] ∈ listPaths entries then mergedField (model.get? field) (row.get? field)
      else model.get? field := by
  unfold mergeRow
  rw [h.outermost_eq]
  exact get?_foldl_fields (mergeList row) (fun field known => mergedField known (row.get? field))
    (get?_mergeList_self row) (fun model _ _ hne => get?_mergeList_of_ne hne row model)
    (fun p hp => (h.mem_listPaths.1 hp).imp fun _ hfound => hfound.1) (nodup_listPaths entries) model

theorem ListsFirst.get?_modelOf (hfield : [field] ∉ listPaths entries) (first : Record)
    (later : List Record) :
    (modelOf entries fresh (first :: later)).get? field =
      (assemble entries fresh first).get? field := by
  induction later using List.reverseRecOn with
  | nil => rfl
  | append_singleton later last ih =>
      rw [← List.cons_append, modelOf_concat entries fresh (List.cons_ne_nil _ _),
        h.get?_mergeRow, if_neg hfield, ih]

/-- A list has the related models of all rows, each once. -/
theorem ListsFirst.isListOf_modelOf (hlist : [field] ∈ listPaths entries) {records : List Record}
    (hne : records ≠ []) : IsListOf (records.filterMap (related? entries fresh field))
      ((modelOf entries fresh records).get? field) := by
  induction records using List.reverseRecOn with
  | nil => exact absurd rfl hne
  | append_singleton records last ih =>
      have hlast : [last].filterMap (related? entries fresh field) =
          (related? entries fresh field last).toList := by
        cases hrelated : related? entries fresh field last <;> simp [hrelated]
      have hown := h.isListOf_assemble fresh field hlist last
      rw [List.filterMap_append, hlast]
      by_cases hempty : records = []
      · subst hempty
        exact hown
      · rw [modelOf_concat entries fresh hempty, h.get?_mergeRow, if_pos hlist]
        exact (ih hempty).merged hown

end Models

/-- What a model holds of the rows that it is made of: in each list the related models that the rows
bring, each once and in the order in which they come, and everywhere else what the first row has.
A list to which no row brings anything is empty, or missing as it is in the value of a fresh
model. -/
structure Collected (entries : List Entry) (fresh : Json) (records : List Record) (model : Json) :
    Prop where
  plain : ∃ first, records.head? = some first ∧
    ∀ field, (∀ entry ∈ entries, entry.isBelow field = false) →
      model.get? field = (assemble entries fresh first).get? field
  lists : ∀ field, (∃ entry ∈ entries, entry.isBelow field = true) →
    IsListOf (records.filterMap (related? entries fresh field)) (model.get? field)

theorem ListsFirst.collected {entries : List Entry} (h : ListsFirst entries) (fresh : Json)
    {records : List Record} (hne : records ≠ []) :
    Collected entries fresh records (modelOf entries fresh records) := by
  constructor
  case plain =>
    cases records with
    | nil => exact absurd rfl hne
    | cons first later =>
        refine ⟨first, rfl, fun field hfield => h.get?_modelOf fresh ?_ first later⟩
        rw [h.field_mem]
        rintro ⟨entry, hentry, hbelow⟩
        rw [hfield entry hentry] at hbelow
        cases hbelow
  case lists =>
    intro field hfield
    exact h.isListOf_modelOf fresh (h.field_mem.2 hfield) hne

/-- Where lists of related models are made at the root only, there is one model for each tuple of the
selected keys' values, in the order in which the tuples come first, and it holds what the rows of
the tuple bring together.  Without a selected key each row is a model. -/
theorem ColumnMap.gather_collected (columns : ColumnMap) (fresh : Json)
    (h : ListsFirst columns.selected) (records : List Record) :
    (keyAliases columns.selected ≠ [] →
      List.Forall₂ (fun values model => Collected columns.selected fresh
          (records.filter (rowKey (keyAliases columns.selected) · == values)) model)
        (records.map (rowKey (keyAliases columns.selected))).eraseDups
        (gather columns.selected fresh records)) ∧
      (keyAliases columns.selected = [] →
        gather columns.selected fresh records =
          records.map (assemble columns.selected fresh)) := by
  constructor
  · intro hkeys
    rw [gather_keyed _ _ hkeys, List.forall₂_map_right_iff, List.forall₂_same]
    intro values hvalues
    refine h.collected fresh ?_
    -- a tuple is that of some row
    obtain ⟨record, hrecord, hkey⟩ := List.mem_map.1 (List.mem_eraseDups.1 hvalues)
    exact List.ne_nil_of_mem (List.mem_filter.2 ⟨hrecord, beq_iff_eq.2 hkey⟩)
  · exact fun hkeys => gather_keyless _ _ hkeys records

namespace Squads

/-- The row of a team without players. -/
def empty : Record :=
  ⟨[("id", .ofInt 2), ("players_id", .null)]⟩

theorem listsFirst_listed : ListsFirst listed.plan.columns.selected where
  first := by decide
  columns := by
    intro entry hentry step hpath
    rcases List.mem_cons.1 hentry with rfl | hentry
    · cases hpath
      rfl
    · rcases List.mem_cons.1 hentry with rfl | hentry
      · cases hpath
      · cases hentry
  apart := by
    intro entry hentry step hstep
    rcases List.mem_cons.1 hentry with rfl | hentry
    · rcases List.mem_cons.1 hstep with heq | hcopy
      · cases heq
        decide
      · -- the key's copy lies below the players
        rcases List.mem_cons.1 hcopy with heq | hnone
        · cases heq
        · cases hnone
    · rcases List.mem_cons.1 hentry with rfl | hentry
      · rcases List.mem_cons.1 hstep with heq | hnone
        · cases heq
        · cases hnone
      · cases hentry

/-- Two rows of one team and the row of a team without players are two models. -/
theorem gather_collected_listed : List.Forall₂
    (fun values model => Collected listed.plan.columns.selected (.obj [])
      ([kim, alex, empty].filter
        (rowKey (keyAliases listed.plan.columns.selected) · == values)) model)
    [[.ofInt 1], [.ofInt 2]]
    (gather listed.plan.columns.selected (.obj []) [kim, alex, empty]) := by
  have hkeys : keyAliases listed.plan.columns.selected ≠ [] := List.cons_ne_nil _ _
  exact (listed.plan.columns.gather_collected (.obj []) listsFirst_listed
    [kim, alex, empty]).1 hkeys

example : [kim, alex, empty].filterMap
    (related? listed.plan.columns.selected (.obj []) "players") =
      [.obj [("id", .ofInt 7), ("team_id", .ofInt 1), ("team", .null), ("shirt", .str "none")],
        .obj [("id", .ofInt 8), ("team_id", .ofInt 1), ("team", .null), ("shirt", .str "none")]] := by
  rfl

end Squads

end FieldQuery
