import FieldQuery.Proofs.Decoding.Lists

/-!
# What writes leave at a field

A row is made in three passes: the values of the selected fields are put at the ends of their paths,
then copied to where linked columns expect them, and then the related models of lists are put into
lists, inner ones first.  Seen from one field of the row, each pass is the same pass over that field's
value, with the writes whose paths lead through the field, cut behind it.

Main definitions:

- `Write`: a value that is to be put at the end of a path, if there is one.
- `Overlay`: the writes of the first two passes and the paths of the last; `Overlay.apply`: the row.
- `Overlay.under`: the part of an overlay that lies behind a field.

Main statements: `get?_last_write`, `Overlay.get?_apply` and `assemble_eq_apply`.
-/

namespace FieldQuery

/-! ## Paths -/

/-- The names on a path. -/
def fieldNames (path : List PathStep) : List String :=
  path.map (·.field)

/-- What is left of a path behind a field that it leads through. -/
def onward? {α : Type} (name : α → String) (field : String) : List α → Option (List α)
  | first :: next :: rest => if name first = field then some (next :: rest) else none
  | _ => none

theorem onward?_eq_some {α : Type} {name : α → String} {field : String} {path later : List α} :
    onward? name field path = some later ↔
      later ≠ [] ∧ ∃ first, name first = field ∧ path = first :: later := by
  match path with
  | [] => simp [onward?]
  | [first] =>
      simp only [onward?, reduceCtorEq, false_iff, List.cons.injEq]
      rintro ⟨hne, other, -, -, rfl⟩
      exact hne rfl
  | first :: next :: rest =>
      simp only [onward?, Option.ite_none_right_eq_some, Option.some.injEq, List.cons.injEq]
      constructor
      · rintro ⟨hfield, rfl⟩
        exact ⟨List.cons_ne_nil _ _, first, hfield, rfl, rfl⟩
      · rintro ⟨-, other, hfield, rfl, rfl⟩
        exact ⟨hfield, rfl⟩

/-- What is left of the path of a column. -/
abbrev pathUnder? (field : String) : List PathStep → Option (List PathStep) :=
  onward? (·.field) field

/-- What is left of the path of a list. -/
abbrev listUnder? (field : String) : List String → Option (List String) :=
  onward? id field

theorem listUnder?_eq_some {field : String} {path later : List String} :
    listUnder? field path = some later ↔ later ≠ [] ∧ path = field :: later := by
  simp [onward?_eq_some]

/-! ## Writes -/

/-- A value that is to be put at the end of a path, if there is one. -/
structure Write where
  value? : Option Json
  path : List PathStep

namespace Write

/-- Puts the value at the end of the path, making the objects on the way. -/
def put (row : Json) (write : Write) : Json :=
  match write.value? with
  | some value => place value write.path row
  | none => row

/-- Puts the value at the end of the path, if there is an object to hold it. -/
def copy (row : Json) (write : Write) : Json :=
  match write.value? with
  | some value => placeCopy value row write.path
  | none => row

/-- What is left of a write behind a field that its path leads through. -/
def under? (field : String) (write : Write) : Option Write :=
  (pathUnder? field write.path).map (Write.mk write.value?)

variable {field : String} {write : Write}

/-- A write that changes nothing at a field: its path does not lead on behind the field, and no value
of it ends there. -/
structure Avoids (field : String) (write : Write) : Prop where
  under : write.under? field = none
  names : write.value?.isSome → fieldNames write.path ≠ [field]

theorem under?_eq_some {later : Write} : write.under? field = some later ↔
    later.value? = write.value? ∧ later.path ≠ [] ∧
      ∃ step, step.field = field ∧ write.path = step :: later.path := by
  rcases later with ⟨value, path⟩
  simp only [under?, Option.map_eq_some_iff, onward?_eq_some, mk.injEq]
  constructor
  · rintro ⟨_, hpath, rfl, rfl⟩
    exact ⟨rfl, hpath⟩
  · rintro ⟨rfl, hpath⟩
    exact ⟨path, hpath, rfl, rfl⟩

theorem avoids_of_path (h : ∀ first rest, write.path = first :: rest → first.field ≠ field) :
    write.Avoids field where
  under := by
    refine Option.eq_none_iff_forall_ne_some.2 fun later hlater => ?_
    rcases under?_eq_some.1 hlater with ⟨-, -, step, hfield, hpath⟩
    exact h step later.path hpath hfield
  names _ hnames := by
    rcases List.map_eq_singleton_iff.1 hnames with ⟨step, hpath, hfield⟩
    exact h step [] hpath hfield

end Write

/-! ## Objects -/

theorem get?_of_not_object {row : Json} (hrow : row.isObject = false) (field : String) :
    row.get? field = none := by
  cases row with
  | obj members => cases hrow
  | _ => rfl

theorem update_of_not_object {row : Json} (hrow : row.isObject = false) (change : Json → Json)
    {path : List String} (hne : path ≠ []) : Json.update change path row = row := by
  rcases List.exists_cons_of_ne_nil hne with ⟨field, rest, rfl⟩
  rw [Json.update_cons, Json.update_of_missing (get?_of_not_object hrow field)]

/-! ## The first two passes at a field -/

section Passes

variable {writes : List Write} {field : String}

/-- Without values nothing is put anywhere. -/
theorem foldl_put_of_none (h : ∀ write ∈ writes, write.value? = none) (row : Json) :
    writes.foldl Write.put row = row := by
  induction writes generalizing row with
  | nil => rfl
  | cons write rest ih =>
      have hfirst : write.put row = row := by
        rw [Write.put, h write List.mem_cons_self]
      rw [List.foldl_cons, hfirst]
      exact ih (fun later hmem => h later (List.mem_cons_of_mem write hmem)) row

theorem isObject_foldl_put {row : Json} (hrow : row.isObject = true) (writes : List Write) :
    (writes.foldl Write.put row).isObject = true := by
  refine List.foldlRecOn (motive := fun held => held.isObject = true) writes Write.put hrow ?_
  intro held hheld write _
  unfold Write.put
  split
  · by_cases hpath : write.path = []
    · rw [hpath]
      exact hheld
    · exact isObject_place _ hpath held
  · exact hheld

/-- The object that is found at a step, or made there. -/
def PathStep.slot (step : PathStep) (found : Option Json) : Json :=
  match found with
  | some item => if item.isObject then item else step.fresh
  | none => step.fresh

theorem PathStep.slot_of_object (step : PathStep) {item : Json} (h : item.isObject = true) :
    step.slot (some item) = item :=
  if_pos h

theorem PathStep.slot_of_plain (step : PathStep) {found : Option Json}
    (h : ∀ members, found ≠ some (.obj members)) : step.slot found = step.fresh := by
  unfold slot
  split
  case h_1 item =>
    cases item with
    | obj members => exact absurd rfl (h members)
    | _ => rfl
  case h_2 => rfl

theorem place_cons_cons (value : Json) (step next : PathStep) (rest : List PathStep) (row : Json) :
    place value (step :: next :: rest) row =
      row.set step.field (place value (next :: rest) (step.slot (row.get? step.field))) := by
  rw [place]
  cases row.get? step.field with
  | none => rfl
  | some item => rfl

/-- A value put somewhere else leaves a field alone. -/
theorem Write.Avoids.get?_put {write : Write} (h : write.Avoids field) (row : Json) :
    (write.put row).get? field = row.get? field := by
  rcases h with ⟨hunder, hnone⟩
  rcases write with ⟨_ | value, path⟩
  · rfl
  · show (place value path row).get? field = row.get? field
    match path with
    | [] => rfl
    | [step] =>
        have hne : field ≠ step.field := fun heq => hnone rfl (by simp [fieldNames, heq])
        exact Json.get?_set_of_ne hne row value
    | step :: next :: rest =>
        have hne : field ≠ step.field := by
          rintro rfl
          simp [Write.under?, onward?] at hunder
        rw [place_cons_cons]
        exact Json.get?_set_of_ne hne _ _

/-- A value put behind a field is put into the object there. -/
theorem get?_put_of_under {write later : Write} (hunder : write.under? field = some later)
    {step : PathStep} (hsame : ∀ first, write.path = first :: later.path → first = step)
    (hvalue : write.value?.isSome) (row : Json) :
    (write.put row).get? field = some (later.put (step.slot (row.get? field))) := by
  rcases Write.under?_eq_some.1 hunder with ⟨hlater, hne, first, rfl, hpath⟩
  have hfirst := hsame first hpath
  subst hfirst
  rcases Option.isSome_iff_exists.1 hvalue with ⟨value, hvalue⟩
  rw [hvalue] at hlater
  rcases List.exists_cons_of_ne_nil hne with ⟨next, rest, hnext⟩
  rw [Write.put, hvalue, hpath, Write.put, hlater, hnext]
  dsimp only
  rw [place_cons_cons, Json.get?_set_self]

/-- What the first pass leaves at a field that no value is put at itself: what is put behind the field
is put into the object there. -/
theorem get?_foldl_put {step : PathStep}
    (hsame : ∀ write ∈ writes, ∀ first next rest, write.path = first :: next :: rest →
      first.field = field → first = step)
    (hnone : ∀ write ∈ writes, write.value?.isSome → fieldNames write.path ≠ [field]) (row : Json) :
    (writes.foldl Write.put row).get? field =
      if (writes.filterMap (Write.under? field)).any (·.value?.isSome) then
        some ((writes.filterMap (Write.under? field)).foldl Write.put
          (step.slot (row.get? field)))
      else row.get? field := by
  induction writes generalizing row with
  | nil => rfl
  | cons write rest ih =>
      have hrest := ih (fun later hmem => hsame later (List.mem_cons_of_mem write hmem))
        (fun later hmem => hnone later (List.mem_cons_of_mem write hmem)) (write.put row)
      rw [List.foldl_cons, hrest]
      cases hunder : write.under? field with
      | none =>
          have havoids : write.Avoids field := ⟨hunder, hnone write List.mem_cons_self⟩
          rw [havoids.get?_put, List.filterMap_cons_none hunder]
      | some later =>
          rw [List.filterMap_cons_some hunder, List.any_cons, List.foldl_cons]
          have hvalue := (Write.under?_eq_some.1 hunder).1
          cases hsome : write.value? with
          | none =>
              -- nothing is put, here or behind the field
              rw [hsome] at hvalue
              have hwrite : write.put row = row := by rw [Write.put, hsome]
              have hlater (item : Json) : later.put item = item := by rw [Write.put, hvalue]
              rw [hwrite, hlater, hvalue, Option.isSome_none, Bool.false_or]
          | some value =>
              rw [hsome] at hvalue
              -- the first value makes an object, which the later ones find
              have hfirst : ∀ first, write.path = first :: later.path → first = step := by
                intro first hpath
                rcases Write.under?_eq_some.1 hunder with ⟨-, hne, other, hfield, hother⟩
                rcases List.exists_cons_of_ne_nil hne with ⟨next, tail, hnext⟩
                rw [hpath] at hother
                cases hother
                rw [hnext] at hpath
                exact hsame write List.mem_cons_self first next tail hpath hfield
              have hput := get?_put_of_under hunder hfirst (by rw [hsome]; rfl) row
              have hobject : (later.put (step.slot (row.get? field))).isObject = true := by
                rw [Write.put, hvalue]
                exact isObject_place value (Write.under?_eq_some.1 hunder).2.1 _
              rw [hput, step.slot_of_object hobject, hvalue, Option.isSome_some, Bool.true_or,
                if_pos rfl]
              split
              · rfl
              · rename_i hvalues
                rw [Bool.not_eq_true, List.any_eq_false] at hvalues
                rw [foldl_put_of_none fun last hmem => by simpa using hvalues last hmem]

theorem placeCopy_single (value row : Json) (step : PathStep) :
    placeCopy value row [step] = if row.isObject then row.set step.field value else row :=
  rfl

theorem placeCopy_cons_cons (value row : Json) (step next : PathStep) (rest : List PathStep) :
    placeCopy value row (step :: next :: rest) =
      Json.update (placeCopy value · (next :: rest)) [step.field] row := by
  have hlast : (next :: rest).getLast? = some ((next :: rest).getLast (List.cons_ne_nil _ _)) :=
    List.getLast?_eq_some_getLast _
  have hbehind : (placeCopy value · (next :: rest)) = Json.update
      (fun item => if item.isObject then
        item.set ((next :: rest).getLast (List.cons_ne_nil _ _)).field value else item)
      ((next :: rest).dropLast.map (·.field)) := by
    funext item
    rw [placeCopy, hlast]
  rw [hbehind, placeCopy, List.getLast?_cons_cons, hlast]
  rfl

/-- Where there is no object a copy changes nothing. -/
theorem placeCopy_of_not_object {row : Json} (hrow : row.isObject = false) (value : Json)
    (path : List PathStep) : placeCopy value row path = row := by
  match path with
  | [] => rfl
  | [step] => exact if_neg (by rw [hrow]; exact Bool.false_ne_true)
  | step :: next :: rest =>
      rw [placeCopy_cons_cons]
      exact update_of_not_object hrow _ (List.cons_ne_nil _ _)

theorem isObject_placeCopy {row : Json} (hrow : row.isObject = true) (value : Json)
    (path : List PathStep) : (placeCopy value row path).isObject = true := by
  unfold placeCopy
  split
  · refine isObject_update (fun item hitem => ?_) _ hrow
    rw [if_pos hitem]
    exact Json.isObject_set _ _ _
  · exact hrow

theorem isObject_foldl_copy {row : Json} (hrow : row.isObject = true) (writes : List Write) :
    (writes.foldl Write.copy row).isObject = true := by
  refine List.foldlRecOn (motive := fun held => held.isObject = true) writes Write.copy hrow ?_
  intro held hheld write _
  unfold Write.copy
  split
  · exact isObject_placeCopy hheld _ _
  · exact hheld

theorem foldl_copy_of_not_object {row : Json} (hrow : row.isObject = false) (writes : List Write) :
    writes.foldl Write.copy row = row := by
  induction writes with
  | nil => rfl
  | cons write rest ih =>
      have hfirst : write.copy row = row := by
        unfold Write.copy
        split
        · exact placeCopy_of_not_object hrow _ _
        · rfl
      rw [List.foldl_cons, hfirst, ih]

/-- A value copied somewhere else leaves a field alone. -/
theorem Write.Avoids.get?_copy {write : Write} (h : write.Avoids field) (row : Json) :
    (write.copy row).get? field = row.get? field := by
  rcases h with ⟨hunder, hnone⟩
  rcases write with ⟨_ | value, path⟩
  · rfl
  · show (placeCopy value row path).get? field = row.get? field
    match path with
    | [] => rfl
    | [step] =>
        have hne : field ≠ step.field := fun heq => hnone rfl (by simp [fieldNames, heq])
        rw [placeCopy_single]
        split
        · exact Json.get?_set_of_ne hne row value
        · rfl
    | step :: next :: rest =>
        have hne : field ≠ step.field := by
          rintro rfl
          simp [Write.under?, onward?] at hunder
        rw [placeCopy_cons_cons]
        exact Json.get?_update_of_ne hne _ _

/-- A value copied behind a field is copied into what stands there. -/
theorem get?_copy_of_under {write later : Write} (hunder : write.under? field = some later)
    (row : Json) : (write.copy row).get? field = (row.get? field).map later.copy := by
  rcases Write.under?_eq_some.1 hunder with ⟨hlater, hne, step, rfl, hpath⟩
  rcases List.exists_cons_of_ne_nil hne with ⟨next, rest, hnext⟩
  unfold Write.copy
  rw [hlater]
  cases write.value? with
  | none => simp
  | some value =>
      dsimp only
      rw [hpath, hnext, placeCopy_cons_cons, Json.get?_update_self]

/-- What the second pass leaves at a field that no value is copied to itself. -/
theorem get?_foldl_copy (hnone : ∀ write ∈ writes, write.value?.isSome → fieldNames write.path ≠ [field])
    (row : Json) : (writes.foldl Write.copy row).get? field =
      (row.get? field).map ((writes.filterMap (Write.under? field)).foldl Write.copy) := by
  induction writes generalizing row with
  | nil => exact (Option.map_id_apply).symm
  | cons write rest ih =>
      have hrest := ih (fun later hmem => hnone later (List.mem_cons_of_mem write hmem))
        (write.copy row)
      rw [List.foldl_cons, hrest]
      cases hunder : write.under? field with
      | none =>
          have havoids : write.Avoids field := ⟨hunder, hnone write List.mem_cons_self⟩
          rw [havoids.get?_copy, List.filterMap_cons_none hunder]
      | some later =>
          rw [get?_copy_of_under hunder, List.filterMap_cons_some hunder, Option.map_map]
          rfl

/-- A pass whose writes all leave a field alone leaves it alone. -/
theorem get?_foldl_of_kept {change : Json → Write → Json}
    (h : ∀ write ∈ writes, ∀ row, (change row write).get? field = row.get? field) (row : Json) :
    (writes.foldl change row).get? field = row.get? field :=
  List.foldlRecOn (motive := fun held => held.get? field = row.get? field) writes change rfl
    fun held hheld write hmem => (h write hmem held).trans hheld

end Passes

/-! ## The last write at a field -/

/-- What the first two passes leave at a field is what the last write leaves there that may change
it. -/
theorem get?_last_write {own copies front back : List Write} {write : Write} {field : String}
    (hsplit : own ++ copies = front ++ write :: back) (hback : ∀ other ∈ back, other.Avoids field)
    (row : Json) : ∃ before : Json,
      (copies.foldl Write.copy (own.foldl Write.put row)).get? field = (write.put before).get? field ∨
      ((own.foldl Write.put row).isObject = true → before.isObject = true) ∧
        (copies.foldl Write.copy (own.foldl Write.put row)).get? field =
          (write.copy before).get? field := by
  -- the write is a copy, and all later ones are
  have hcopied : ∀ {front}, copies = front ++ write :: back → ∃ before : Json,
      ((own.foldl Write.put row).isObject = true → before.isObject = true) ∧
        (copies.foldl Write.copy (own.foldl Write.put row)).get? field =
          (write.copy before).get? field := by
    rintro front rfl
    refine ⟨front.foldl Write.copy (own.foldl Write.put row), fun hobject => ?_, ?_⟩
    · exact isObject_foldl_copy hobject front
    · rw [List.foldl_append, List.foldl_cons,
        get?_foldl_of_kept fun other hmem => (hback other hmem).get?_copy]
  rcases List.append_eq_append_iff.1 hsplit with ⟨more, rfl, hcopies⟩ | ⟨more, rfl, hmore⟩
  · rcases hcopied hcopies with ⟨before, hboth⟩
    exact ⟨before, .inr hboth⟩
  · cases more with
    | nil =>
        -- it is the very first copy
        rcases @hcopied [] hmore.symm with ⟨before, hboth⟩
        exact ⟨before, .inr hboth⟩
    | cons first more =>
        rw [List.cons_append, List.cons.injEq] at hmore
        rcases hmore with ⟨rfl, rfl⟩
        rcases List.forall_mem_append.1 hback with ⟨hown, hcopies⟩
        refine ⟨front.foldl Write.put row, .inl ?_⟩
        rw [get?_foldl_of_kept fun other hmem => (hcopies other hmem).get?_copy,
          List.foldl_append, List.foldl_cons,
          get?_foldl_of_kept fun other hmem => (hown other hmem).get?_put]

/-- The value of a write that ends at a field is what the first two passes leave there. -/
theorem get?_last_value {own copies front back : List Write} {step : PathStep} {value : Json}
    (hsplit : own ++ copies = front ++ ⟨some value, [step]⟩ :: back)
    (hback : ∀ other ∈ back, other.Avoids step.field) {row : Json}
    (hobject : (own.foldl Write.put row).isObject = true) :
    (copies.foldl Write.copy (own.foldl Write.put row)).get? step.field = some value := by
  rcases get?_last_write hsplit hback row with ⟨before, hput | ⟨hrow, hcopy⟩⟩
  · rw [hput]
    exact Json.get?_set_self _ _ _
  · rw [hcopy]
    show (placeCopy value before [step]).get? step.field = some value
    rw [placeCopy_single, if_pos (hrow hobject)]
    exact Json.get?_set_self _ _ _

/-! ## The last pass at a field -/

/-- A path has a list at its first field if it takes a step of many there. -/
theorem singleton_mem_manyPaths {field : String} {path : List PathStep} :
    [field] ∈ manyPaths path ↔ ∃ step rest, path = step :: rest ∧ step.many = true ∧
      step.field = field := by
  cases path with
  | nil => simp [manyPaths]
  | cons step rest =>
      have hinner : ∀ path ∈ manyPaths rest, path ≠ [] := fun _ => ne_nil_of_mem_manyPaths
      rw [manyPaths, List.mem_append, List.mem_map]
      constructor
      · rintro (hown | ⟨path, hpath, heq⟩)
        · have hboth : step.many = true ∧ field = step.field := by simpa using hown
          exact ⟨step, rest, rfl, hboth.1, hboth.2.symm⟩
        · exact absurd (List.cons.inj heq).2 (hinner path hpath)
      · rintro ⟨_, _, ⟨⟩, hmany, rfl⟩
        rw [if_pos hmany]
        exact .inl List.mem_cons_self

/-- All lists on a path lie at its first field or behind it. -/
theorem head_of_mem_manyPaths {field : String} {tail : List String} {path : List PathStep}
    (h : field :: tail ∈ manyPaths path) : ∃ step rest, path = step :: rest ∧ step.field = field := by
  cases path with
  | nil => cases h
  | cons step rest =>
      refine ⟨step, rest, rfl, ?_⟩
      rw [manyPaths, List.mem_append, List.mem_map] at h
      rcases h with hown | ⟨path, -, heq⟩
      · have hboth : step.many = true ∧ field = step.field ∧ tail = [] := by simpa using hown
        exact hboth.2.1.symm
      · exact (List.cons.inj heq).1

/-- Behind a field a path leads to the lists that the rest of it leads to. -/
theorem mem_manyPaths_cons {field next : String} {rest : List String} {step : PathStep}
    {tail : List PathStep} : field :: next :: rest ∈ manyPaths (step :: tail) ↔
      step.field = field ∧ next :: rest ∈ manyPaths tail := by
  simp only [manyPaths, List.mem_append, List.mem_map]
  constructor
  · rintro (hown | ⟨path, hpath, heq⟩)
    · split at hown <;> simp at hown
    · cases heq
      exact ⟨rfl, hpath⟩
  · rintro ⟨rfl, hpath⟩
    exact .inr ⟨_, hpath, rfl⟩

/-- A related model in the list that stands for it; without a value in the row the list is empty. -/
def enlisted (filled : Bool) (item : Json) : Json :=
  if filled && item.isObject then .arr [item] else .arr []

theorem enlist_eq (filled : List (List String)) (row : Json) (path : List String) :
    enlist filled row path = Json.update (enlisted (filled.contains path)) path row :=
  rfl

theorem isObject_foldr_enlist {lists : List (List String)} (hne : ∀ path ∈ lists, path ≠ [])
    (filled : List (List String)) {row : Json} (hrow : row.isObject = true) :
    (lists.foldr (fun path row => enlist filled row path) row).isObject = true := by
  induction lists with
  | nil => exact hrow
  | cons path rest ih =>
      have hrest := ih fun later hmem => hne later (List.mem_cons_of_mem _ hmem)
      -- a list is made in a member, not of the row itself
      rcases List.exists_cons_of_ne_nil (hne path List.mem_cons_self) with ⟨field, tail, rfl⟩
      rw [List.foldr_cons, enlist_eq]
      unfold Json.update
      split
      · exact Json.isObject_set _ _ _
      · exact hrest

/-- What is no object has no lists. -/
theorem foldr_enlist_of_not_object {lists : List (List String)} (hne : ∀ path ∈ lists, path ≠ [])
    (filled : List (List String)) {row : Json} (hrow : row.isObject = false) :
    lists.foldr (fun path row => enlist filled row path) row = row := by
  induction lists with
  | nil => rfl
  | cons path rest ih =>
      have hrest := ih fun later hmem => hne later (List.mem_cons_of_mem _ hmem)
      rw [List.foldr_cons, hrest, enlist_eq]
      exact update_of_not_object hrow _ (hne path List.mem_cons_self)

/-- Lists that lie elsewhere leave a field alone. -/
theorem get?_foldr_enlist_of_ne {field : String} {lists : List (List String)}
    (h : ∀ path ∈ lists, ∃ key rest, path = key :: rest ∧ key ≠ field)
    (filled : List (List String)) (row : Json) :
    (lists.foldr (fun path row => enlist filled row path) row).get? field = row.get? field := by
  induction lists with
  | nil => rfl
  | cons path rest ih =>
      rcases h path List.mem_cons_self with ⟨key, tail, rfl, hne⟩
      rw [List.foldr_cons, enlist_eq, Json.update_cons, Json.get?_update_of_ne (Ne.symm hne)]
      exact ih fun later hmem => h later (List.mem_cons_of_mem _ hmem)

/-- What the last pass leaves at a field: inner lists are made before the field's own. -/
theorem get?_foldr_enlist {field : String} {filled behind lists : List (List String)}
    (hbehind : ∀ next rest, behind.contains (next :: rest) = filled.contains (field :: next :: rest))
    (hne : ∀ path ∈ lists, path ≠ []) (hsorted : lists.Pairwise fun p q => p.length ≤ q.length)
    (hnodup : lists.Nodup) (row : Json) :
    (lists.foldr (fun path row => enlist filled row path) row).get? field =
      (row.get? field).map fun item =>
        let inner := (lists.filterMap (listUnder? field)).foldr
          (fun path item => enlist behind item path) item
        if [field] ∈ lists then enlisted (filled.contains [field]) inner else inner := by
  induction lists with
  | nil => simp
  | cons path rest ih =>
      rcases List.nodup_cons.1 hnodup with ⟨hnew, hnodup⟩
      rcases List.pairwise_cons.1 hsorted with ⟨hshort, hsorted⟩
      have hrest := ih (fun later hmem => hne later (List.mem_cons_of_mem path hmem)) hsorted hnodup
      rw [List.foldr_cons, enlist_eq]
      match path with
      | [] => exact absurd rfl (hne [] List.mem_cons_self)
      | [key] =>
          have hunder : listUnder? field [key] = none := rfl
          rw [List.filterMap_cons_none hunder]
          by_cases hkey : key = field
          · subst hkey
            rw [Json.get?_update_self, hrest, Option.map_map]
            simp only [hnew, if_false, List.mem_cons_self, if_true]
            rfl
          · rw [Json.get?_update_of_ne (Ne.symm hkey), hrest]
            simp [Ne.symm hkey]
      | key :: next :: tail =>
          -- the field's own list is shorter, so it is made later
          have hlater : [field] ∉ rest := by
            intro hmem
            have hlength := hshort [field] hmem
            simp at hlength
          rw [Json.update_cons]
          by_cases hkey : key = field
          · subst hkey
            have hunder : listUnder? key (key :: next :: tail) = some (next :: tail) :=
              if_pos rfl
            rw [Json.get?_update_self, hrest, List.filterMap_cons_some hunder, Option.map_map]
            simp only [hlater, if_false, List.mem_cons, List.cons.injEq, reduceCtorEq, and_false,
              or_self, List.foldr_cons, enlist_eq behind, hbehind]
            rfl
          · have hunder : listUnder? field (key :: next :: tail) = none := if_neg hkey
            rw [Json.get?_update_of_ne (Ne.symm hkey), hrest, List.filterMap_cons_none hunder]
            simp [hlater]

/-! ## All passes -/

/-- What is laid over a default: values of the selected fields, their copies, and lists. -/
structure Overlay where
  own : List Write
  copies : List Write
  lists : List (List String)

/-- What a row lays over the default of its model. -/
def overlay (entries : List Entry) (record : Record) : Overlay where
  own := entries.map fun entry => ⟨entry.value? record, entry.path⟩
  copies := entries.flatMap fun entry =>
    entry.copies.map fun path => ⟨entry.value? record, path⟩
  lists := listPaths entries

namespace Overlay

/-- Whether there is any value of a selected field. -/
def isFilled (overlay : Overlay) : Bool :=
  overlay.own.any (·.value?.isSome)

/-- The lists that there is a value for. -/
def filled (overlay : Overlay) : List (List String) :=
  (overlay.own.filter (·.value?.isSome)).flatMap fun write => manyPaths write.path.dropLast

def apply (overlay : Overlay) (row : Json) : Json :=
  overlay.lists.foldr (fun path row => enlist overlay.filled row path)
    (overlay.copies.foldl Write.copy (overlay.own.foldl Write.put row))

/-- The part of an overlay that lies behind a field. -/
def under (overlay : Overlay) (field : String) : Overlay where
  own := overlay.own.filterMap (Write.under? field)
  copies := overlay.copies.filterMap (Write.under? field)
  lists := overlay.lists.filterMap (listUnder? field)

/-- The paths of lists, outer ones first and each of them once. -/
structure ListsSorted (overlay : Overlay) : Prop where
  ne_nil : ∀ path ∈ overlay.lists, path ≠ []
  sorted : overlay.lists.Pairwise fun p q => p.length ≤ q.length
  nodup : overlay.lists.Nodup

variable {overlay : Overlay} {field : String}

theorem ListsSorted.under (h : overlay.ListsSorted) (field : String) :
    (overlay.under field).ListsSorted where
  ne_nil := by
    intro path hpath
    rcases List.mem_filterMap.1 hpath with ⟨whole, -, hunder⟩
    exact (listUnder?_eq_some.1 hunder).1
  sorted := by
    refine (List.pairwise_filterMap).2 (h.sorted.imp ?_)
    intro p q hlength p' hp q' hq
    rw [(listUnder?_eq_some.1 hp).2, (listUnder?_eq_some.1 hq).2] at hlength
    simpa using hlength
  nodup := by
    refine List.Nodup.filterMap ?_ h.nodup
    intro p q path hp hq
    rw [(listUnder?_eq_some.1 hp).2, (listUnder?_eq_some.1 hq).2]

theorem contains_filled_under (overlay : Overlay) (field next : String) (rest : List String) :
    (overlay.under field).filled.contains (next :: rest) =
      overlay.filled.contains (field :: next :: rest) := by
  rw [Bool.eq_iff_iff, List.contains_iff_mem, List.contains_iff_mem]
  simp only [filled, under, List.mem_flatMap, List.mem_filter, List.mem_filterMap]
  constructor
  · rintro ⟨later, ⟨⟨write, hwrite, hunder⟩, hvalue⟩, hmem⟩
    rcases Write.under?_eq_some.1 hunder with ⟨hsame, hne, step, rfl, hpath⟩
    refine ⟨write, ⟨hwrite, hsame ▸ hvalue⟩, ?_⟩
    rw [hpath, List.dropLast_cons_of_ne_nil hne, mem_manyPaths_cons]
    exact ⟨rfl, hmem⟩
  · rintro ⟨write, ⟨hwrite, hvalue⟩, hmem⟩
    -- a list behind the field needs a path that goes on there
    match hpath : write.path with
    | [] => simp [hpath, manyPaths] at hmem
    | [step] => simp [hpath, manyPaths] at hmem
    | step :: second :: tail =>
        rw [hpath, List.dropLast_cons_of_ne_nil (List.cons_ne_nil _ _), mem_manyPaths_cons] at hmem
        refine ⟨⟨write.value?, second :: tail⟩, ⟨⟨write, hwrite, ?_⟩, hvalue⟩, hmem.2⟩
        exact Write.under?_eq_some.2 ⟨rfl, List.cons_ne_nil _ _, step, hmem.1, hpath⟩

/-- The list at a field, if the field is one. -/
def wrapAt (overlay : Overlay) (field : String) (item : Json) : Json :=
  if [field] ∈ overlay.lists then enlisted (overlay.filled.contains [field]) item else item

/-- What is laid over a default is laid over what the default has at a field, if nothing is put at the
field itself. -/
theorem get?_apply (h : overlay.ListsSorted) {step : PathStep}
    (hsame : ∀ write ∈ overlay.own, ∀ first next rest, write.path = first :: next :: rest →
      first.field = field → first = step)
    (hnone : ∀ write ∈ overlay.own ++ overlay.copies, write.value?.isSome →
      fieldNames write.path ≠ [field]) (row : Json) :
    (overlay.apply row).get? field =
      (if (overlay.under field).isFilled then some (step.slot (row.get? field))
        else row.get? field).map
          fun item => overlay.wrapAt field ((overlay.under field).apply item) := by
  rcases List.forall_mem_append.1 hnone with ⟨hown, hcopies⟩
  rw [apply, get?_foldr_enlist (overlay.contains_filled_under field) h.ne_nil h.sorted h.nodup,
    get?_foldl_copy hcopies, get?_foldl_put hsame hown]
  by_cases hfilled : (overlay.under field).isFilled
  · have hany : (overlay.own.filterMap (Write.under? field)).any (·.value?.isSome) = true := hfilled
    rw [if_pos hfilled, if_pos hany, Option.map_some, Option.map_some, Option.map_some]
    rfl
  · -- without values the first pass does nothing behind the field
    have hany : ¬ (overlay.own.filterMap (Write.under? field)).any (·.value?.isSome) = true :=
      hfilled
    have hkept : ∀ item, (overlay.under field).own.foldl Write.put item = item := by
      refine foldl_put_of_none fun write hmem => ?_
      rw [Bool.not_eq_true, List.any_eq_false] at hany
      simpa using hany write hmem
    rw [if_neg hfilled, if_neg hany, Option.map_map]
    congr 1
    funext item
    rw [apply, hkept]
    rfl

end Overlay

theorem placeCopies_eq (record : Record) (row : Json) (entry : Entry) :
    entry.placeCopies record row =
      (entry.copies.map (Write.mk (entry.value? record))).foldl Write.copy row := by
  rw [Entry.placeCopies, List.foldl_map]
  cases hvalue : entry.value? record with
  | some value => rfl
  | none =>
      have hkept : ∀ (paths : List (List PathStep)) (row : Json),
          paths.foldl (fun row path => Write.copy row ⟨none, path⟩) row = row := by
        intro paths row
        induction paths with
        | nil => rfl
        | cons path rest ih => exact ih
      exact (hkept entry.copies row).symm

theorem filled_overlay (entries : List Entry) (record : Record) :
    (overlay entries record).filled = filledPaths record entries := by
  rw [Overlay.filled, overlay, filledPaths, List.filter_map, List.flatMap_map]
  rfl

theorem listsSorted_overlay (entries : List Entry) (record : Record) :
    (overlay entries record).ListsSorted where
  ne_nil := fun _ hpath => ne_nil_of_mem_listPaths hpath
  sorted := by
    have hsorted : (listPaths entries).Pairwise fun p q => decide (p.length ≤ q.length) = true := by
      refine List.pairwise_mergeSort ?_ ?_ _
      · intro p q r hpq hqr
        simp only [decide_eq_true_eq] at hpq hqr ⊢
        omega
      · intro p q
        simp only [Bool.or_eq_true, decide_eq_true_eq]
        omega
    exact hsorted.imp fun hlength => of_decide_eq_true hlength
  nodup := nodup_listPaths entries

/-- The first two passes as writes. -/
theorem placed_eq (entries : List Entry) (fresh : Json) (record : Record) :
    placed entries fresh record = (overlay entries record).copies.foldl Write.copy
      ((overlay entries record).own.foldl Write.put fresh) := by
  have hown : (overlay entries record).own.foldl Write.put fresh =
      entries.foldl (Entry.placeIn record) fresh := by
    rw [overlay, List.foldl_map]
    rfl
  rw [hown, overlay, List.foldl_flatMap, placed]
  congr 1
  funext row entry
  exact placeCopies_eq record row entry

/-- A row is what is laid over the default of its model. -/
theorem assemble_eq_apply (entries : List Entry) (fresh : Json) (record : Record) :
    assemble entries fresh record = (overlay entries record).apply fresh := by
  rw [assemble, Overlay.apply, filled_overlay, ← placed_eq, List.foldl_reverse]
  rfl

end FieldQuery
