import FieldQuery.Assembly
import FieldQuery.Proofs.Json.Equality
import FieldQuery.Proofs.Json.Paths

/-!
# Merging a row into a model

A model absorbs a row if merging the row into it changes nothing.  A row that has been merged stays
absorbed, whatever rows are merged later; an assembled row absorbs itself.  Both are proved list by
list: the outermost lists of a model lie on paths that part, so that merging at one of them does not
touch the others, and at one list the models that are there stay there.

Main definitions:

- `Absorbs`, `AbsorbsRow`: nothing is left to merge, at one path and at all of them.
- `Kept`: what is at a path is a list, and the objects on the way are as written last.

Main statements: `absorbsRow_mergeRow`, `AbsorbsRow.mergeRow`, `absorbsRow_assemble`.
-/

namespace FieldQuery

open Json (Apart lookup? put reaches)

/-! ## Items -/

section Items

variable {item : Json} {items known : List Json}

theorem any_addMissing_self (known : List Json) (item : Json) :
    (addMissing known item).any (·.same item) = true := by
  unfold addMissing
  split
  case isTrue h => exact h
  case isFalse => simp [Json.same_refl]

theorem any_addMissing (h : known.any (·.same item) = true) (other : Json) :
    (addMissing known other).any (·.same item) = true := by
  unfold addMissing
  split
  · exact h
  · rw [List.any_append, h, Bool.true_or]

theorem any_addAll (h : known.any (·.same item) = true) (items : List Json) :
    (items.foldl addMissing known).any (·.same item) = true := by
  induction items generalizing known with
  | nil => exact h
  | cons first rest ih => exact ih (any_addMissing h first)

/-- Every added item is found afterwards. -/
theorem any_addAll_self (h : item ∈ items) (known : List Json) :
    (items.foldl addMissing known).any (·.same item) = true := by
  obtain ⟨front, back, rfl⟩ := List.append_of_mem h
  rw [List.foldl_append, List.foldl_cons]
  exact any_addAll (any_addMissing_self _ item) back

theorem addAll_of_known (h : ∀ item ∈ items, known.any (·.same item) = true) :
    items.foldl addMissing known = known := by
  induction items with
  | nil => rfl
  | cons first rest ih =>
      have hfirst : addMissing known first = known := by simp [addMissing, h first]
      rw [List.foldl_cons, hfirst]
      exact ih fun item hmem => h item (List.mem_cons_of_mem first hmem)

theorem addAll_self (items : List Json) : items.foldl addMissing items = items :=
  addAll_of_known fun item hmem => List.any_eq_true.2 ⟨item, hmem, Json.same_refl item⟩

end Items

/-! ## Absorbed rows -/

section Absorbed

variable {row other model : Json} {path q : List String} {items : List Json}

/-- A list after items have been added to it; where there is none, the items are the list. -/
def withItems (items : List Json) : Option Json → List Json
  | some (.arr known) => items.foldl addMissing known
  | _ => items

theorem mergeList_of_list (hne : path ≠ []) (h : lookup? path row = some (.arr items))
    (model : Json) :
    mergeList row model path = put (.arr (withItems items (lookup? path model))) path model := by
  have hlast : path.getLast? = some (path.getLast hne) := List.getLast?_eq_some_getLast hne
  -- without a list of its own the model takes the row's, as any value is put under a key
  have hput : Json.update (·.set (path.getLast hne) (.arr items)) path.dropLast model =
      put (.arr items) path model := by
    rw [← Json.put_concat, List.dropLast_concat_getLast]
  cases hknown : lookup? path model with
  | none => simpa [mergeList, h, hknown, hlast, withItems] using hput
  | some found =>
      cases found with
      | arr known => simpa [mergeList, h, hknown, withItems] using Json.update_eq_put hknown _
      | _ => simpa [mergeList, h, hknown, hlast, withItems] using hput

theorem mergeList_of_no_list (h : ∀ items, lookup? path row ≠ some (.arr items)) (model : Json) :
    mergeList row model path = model := by
  unfold mergeList
  split
  case h_1 items hrow => exact absurd hrow (h items)
  case h_2 => rfl

/-- A row that has no list at a path changes no model there; one that has adds its items. -/
theorem mergeList_cases (hne : path ≠ []) (row : Json) :
    (∀ model, mergeList row model path = model) ∨
      ∃ items, ∀ model, mergeList row model path =
        put (.arr (withItems items (lookup? path model))) path model := by
  by_cases h : ∃ items, lookup? path row = some (.arr items)
  · obtain ⟨items, hitems⟩ := h
    exact .inr ⟨items, mergeList_of_list hne hitems⟩
  · exact .inl (mergeList_of_no_list fun items hitems => h ⟨items, hitems⟩)

theorem any_withItems_self {item : Json} (h : item ∈ items) (found : Option Json) :
    (withItems items found).any (·.same item) = true := by
  unfold withItems
  split
  · exact any_addAll_self h _
  · exact List.any_eq_true.2 ⟨item, h, Json.same_refl item⟩

/-- Merging a row at a path changes nothing. -/
def Absorbs (row model : Json) (path : List String) : Prop :=
  mergeList row model path = model

/-- What merging did once, it does not do again. -/
theorem absorbs_mergeList (hne : path ≠ []) (row model : Json) :
    Absorbs row (mergeList row model path) path := by
  rcases mergeList_cases hne row with hsame | ⟨items, hput⟩
  · exact hsame _
  · simp only [Absorbs, hput, Json.put_put]
    cases hreach : reaches path model with
    -- without an object to hold the list nothing is put, now and then
    | false => exact Json.put_of_not_reaches hreach _ _
    | true =>
        have hheld : ∀ item ∈ items,
            (withItems items (lookup? path model)).any (·.same item) = true :=
          fun item hmem => any_withItems_self hmem _
        rw [Json.lookup?_put_self hreach, withItems, addAll_of_known hheld]

/-- At the same path other rows only add to what is there. -/
theorem Absorbs.mergeList_same (hne : path ≠ []) (h : Absorbs row model path) (other : Json) :
    Absorbs row (mergeList other model path) path := by
  rcases mergeList_cases hne row with hsame | ⟨items, hput⟩
  · exact hsame _
  rcases mergeList_cases hne other with hother | ⟨added, hother⟩
  · rw [hother]
    exact h
  simp only [Absorbs, hput, hother, Json.put_put]
  cases hreach : reaches path model with
  | false => exact Json.put_of_not_reaches hreach _ _
  | true =>
      -- the list that is there holds the row's items already, or merging would have changed it
      have hfixed : put (.arr (withItems items (lookup? path model))) path model = model :=
        (hput model).symm.trans h
      have hknown : lookup? path model = some (.arr (withItems items (lookup? path model))) := by
        have hfound := Json.lookup?_put_self hreach (.arr (withItems items (lookup? path model)))
        rwa [hfixed] at hfound
      have hheld : ∀ item ∈ items,
          (withItems added (lookup? path model)).any (·.same item) = true := by
        intro item hmem
        rw [hknown]
        exact any_addAll (any_withItems_self hmem _) added
      rw [Json.lookup?_put_self hreach]
      exact congrArg (fun known => put (.arr known) path model) (addAll_of_known hheld)

theorem mergeList_comm (hne : path ≠ []) (hne' : q ≠ []) (h : Apart path q)
    (row other model : Json) :
    mergeList row (mergeList other model q) path = mergeList other (mergeList row model path) q := by
  rcases mergeList_cases hne row with hsame | ⟨items, hput⟩
  · rw [hsame, hsame]
  rcases mergeList_cases hne' other with hother | ⟨added, hother⟩
  · rw [hother, hother]
  · simp only [hput, hother, Json.lookup?_put_of_apart h, Json.lookup?_put_of_apart h.symm,
      Json.put_comm h]

/-- Merging at a path that parts from this one does not touch it. -/
theorem Absorbs.mergeList_apart (h : Absorbs row model path) (hne : path ≠ []) (hne' : q ≠ [])
    (hapart : Apart path q) (other : Json) : Absorbs row (mergeList other model q) path := by
  calc
    mergeList row (mergeList other model q) path
        = mergeList other (mergeList row model path) q := mergeList_comm hne hne' hapart _ _ _
    _ = mergeList other model q := by rw [show mergeList row model path = model from h]

theorem Absorbs.foldl (h : Absorbs row model path) (hne : path ≠ []) {paths : List (List String)}
    (hpaths : ∀ q ∈ paths, q ≠ [] ∧ (q = path ∨ Apart path q)) (other : Json) :
    Absorbs row (paths.foldl (mergeList other) model) path := by
  induction paths generalizing model with
  | nil => exact h
  | cons q rest ih =>
      have hnext : Absorbs row (mergeList other model q) path := by
        obtain ⟨hne', rfl | hapart⟩ := hpaths q List.mem_cons_self
        · exact h.mergeList_same hne other
        · exact h.mergeList_apart hne hne' hapart other
      exact ih hnext fun q hmem => hpaths q (List.mem_cons_of_mem _ hmem)

end Absorbed

/-! ## The outermost lists -/

section Outermost

variable {paths : List (List String)} {p q : List String}

theorem ne_nil_of_mem_manyPaths : ∀ {steps : List PathStep}, p ∈ manyPaths steps → p ≠ []
  | [], h => by simp [manyPaths] at h
  | step :: rest, h => by
      simp only [manyPaths, List.mem_append, List.mem_map] at h
      rcases h with hhere | ⟨q, _, rfl⟩
      · by_cases hmany : step.many
        · have hp : p = [step.field] := by simpa [hmany] using hhere
          exact hp ▸ List.cons_ne_nil _ _
        · simp [hmany] at hhere
      · exact List.cons_ne_nil _ _

theorem mem_listPaths {entries : List Entry} :
    p ∈ listPaths entries ↔ ∃ entry ∈ entries, p ∈ manyPaths entry.path := by
  simp [listPaths, List.mem_mergeSort]

theorem ne_nil_of_mem_listPaths {entries : List Entry} (h : p ∈ listPaths entries) : p ≠ [] := by
  obtain ⟨entry, _, hmem⟩ := mem_listPaths.1 h
  exact ne_nil_of_mem_manyPaths hmem

theorem mem_of_mem_outermost (h : p ∈ outermost paths) : p ∈ paths :=
  (List.mem_filter.1 h).1

/-- No path leads to an outermost one, apart from itself. -/
theorem eq_of_prefix_outermost (h : p ∈ outermost paths) (hq : q ∈ paths) (hleads : q <+: p) :
    q = p := by
  have hnone : ∀ outer ∈ paths, outer.length < p.length → ¬ outer <+: p := by
    simpa [outermost] using (List.mem_filter.1 h).2
  refine hleads.eq_of_length_le ?_
  exact Nat.le_of_not_lt fun hlt => hnone q hq hlt hleads

theorem apart_of_outermost (hp : p ∈ outermost paths) (hq : q ∈ outermost paths) :
    q = p ∨ Apart p q := by
  by_cases hqp : q <+: p
  · exact .inl (eq_of_prefix_outermost hp (mem_of_mem_outermost hq) hqp)
  · by_cases hpq : p <+: q
    · exact .inl (eq_of_prefix_outermost hq (mem_of_mem_outermost hp) hpq).symm
    · exact .inr (Json.apart_of_neither hpq hqp)

end Outermost

/-! ## Rows -/

section Rows

variable {paths : List (List String)} {row other model : Json}

/-- Merging a row changes nothing at any of the outermost paths. -/
def AbsorbsRow (paths : List (List String)) (row model : Json) : Prop :=
  ∀ p ∈ outermost paths, Absorbs row model p

theorem AbsorbsRow.mergeRow_eq (h : AbsorbsRow paths row model) :
    mergeRow paths model row = model := by
  have hfold : ∀ {ps : List (List String)}, (∀ p ∈ ps, Absorbs row model p) →
      ps.foldl (mergeList row) model = model := by
    intro ps hps
    induction ps with
    | nil => rfl
    | cons p rest ih =>
        rw [List.foldl_cons, show mergeList row model p = model from hps p List.mem_cons_self]
        exact ih fun q hmem => hps q (List.mem_cons_of_mem p hmem)
  exact hfold h

/-- A row that has been merged is absorbed. -/
theorem absorbsRow_mergeRow (hne : ∀ p ∈ paths, p ≠ []) (row model : Json) :
    AbsorbsRow paths row (mergeRow paths model row) := by
  intro p hp
  obtain ⟨front, back, hsplit⟩ := List.append_of_mem hp
  have hpath : p ≠ [] := hne p (mem_of_mem_outermost hp)
  unfold mergeRow
  rw [hsplit, List.foldl_append, List.foldl_cons]
  refine (absorbs_mergeList hpath row _).foldl hpath ?_ row
  intro q hq
  have hmem : q ∈ outermost paths := by
    rw [hsplit]
    exact List.mem_append_right front (List.mem_cons_of_mem p hq)
  exact ⟨hne q (mem_of_mem_outermost hmem), apart_of_outermost hp hmem⟩

/-- An absorbed row stays absorbed when other rows are merged. -/
theorem AbsorbsRow.mergeRow (h : AbsorbsRow paths row model) (hne : ∀ p ∈ paths, p ≠ [])
    (other : Json) : AbsorbsRow paths row (mergeRow paths model other) := by
  intro p hp
  refine (h p hp).foldl (hne p (mem_of_mem_outermost hp)) ?_ other
  intro q hq
  exact ⟨hne q (mem_of_mem_outermost hq), apart_of_outermost hp hq⟩

end Rows

/-! ## Assembled rows -/

section Assembled

variable {p q : List String} {value item : Json} {change : Json → Json}

/-- What is at a path is a list, and putting it there again changes nothing. -/
def Kept (p : List String) (value : Json) : Prop :=
  ∀ item, lookup? p value = some item → (∃ items, item = .arr items) ∧ put item p value = value

/-- A change of what is at a path keeps a list there, if it makes lists of what it can find. -/
theorem kept_update (h : ∀ item, lookup? p value = some item → ∃ items, change item = .arr items) :
    Kept p (Json.update change p value) := by
  intro item hitem
  rw [Json.lookup?_update_self] at hitem
  obtain ⟨old, hold, rfl⟩ := Option.map_eq_some_iff.1 hitem
  refine ⟨h old hold, ?_⟩
  rw [Json.update_eq_put hold, Json.put_put]

theorem Kept.update_below (h : Kept p value) {rest : List String} (hrest : rest ≠ []) :
    Kept p (Json.update change (p ++ rest) value) := by
  rw [Json.update_append]
  refine kept_update fun item hitem => ?_
  obtain ⟨items, rfl⟩ := (h item hitem).1
  -- nothing lies below a list
  cases rest with
  | nil => exact absurd rfl hrest
  | cons key rest => exact ⟨items, rfl⟩

theorem Kept.update_apart (h : Kept p value) (hapart : Apart p q) :
    Kept p (Json.update change q value) := by
  intro item hitem
  rw [Json.lookup?_update_of_apart hapart] at hitem
  obtain ⟨hlist, hput⟩ := h item hitem
  exact ⟨hlist, by rw [Json.put_update_comm hapart, hput]⟩

theorem kept_enlist (filled : List (List String)) (p : List String) (value : Json) :
    Kept p (enlist filled value p) := by
  refine kept_update fun item _ => ?_
  split
  · exact ⟨[item], rfl⟩
  · exact ⟨[], rfl⟩

theorem Kept.enlist (h : Kept p value) (hq : q <+: p → q = p) (filled : List (List String)) :
    Kept p (enlist filled value q) := by
  by_cases hqp : q <+: p
  · exact hq hqp ▸ kept_enlist filled q value
  · by_cases hpq : p <+: q
    · obtain ⟨rest, rfl⟩ := hpq
      refine h.update_below ?_
      rintro rfl
      exact hqp (by simp)
    · exact h.update_apart (Json.apart_of_neither hpq hqp)

theorem kept_foldl_enlist {paths : List (List String)} (hp : p ∈ paths)
    (houter : ∀ q ∈ paths, q <+: p → q = p) (filled : List (List String)) (value : Json) :
    Kept p (paths.foldl (FieldQuery.enlist filled) value) := by
  have hafter : ∀ {rest : List (List String)} {value : Json}, (∀ q ∈ rest, q <+: p → q = p) →
      Kept p value → Kept p (rest.foldl (FieldQuery.enlist filled) value) := by
    intro rest
    induction rest with
    | nil => exact fun _ h => h
    | cons q rest ih =>
        intro value hrest h
        exact ih (fun q hmem => hrest q (List.mem_cons_of_mem _ hmem))
          (h.enlist (hrest q List.mem_cons_self) filled)
  obtain ⟨front, back, rfl⟩ := List.append_of_mem hp
  rw [List.foldl_append, List.foldl_cons]
  refine hafter ?_ (kept_enlist filled p _)
  intro q hq
  exact houter q (List.mem_append_right front (List.mem_cons_of_mem p hq))

theorem Kept.absorbs (h : Kept p value) (hne : p ≠ []) : Absorbs value value p := by
  by_cases hlist : ∃ items, lookup? p value = some (.arr items)
  · obtain ⟨items, hitems⟩ := hlist
    rw [Absorbs, mergeList_of_list hne hitems, hitems, withItems, addAll_self]
    exact (h _ hitems).2
  · exact mergeList_of_no_list (fun items hitems => hlist ⟨items, hitems⟩) value

/-- A row's own related models are all in the lists that it comes with. -/
theorem absorbsRow_assemble (entries : List Entry) (fresh : Json) (record : Record) :
    AbsorbsRow (listPaths entries) (assemble entries fresh record)
      (assemble entries fresh record) := by
  intro p hp
  have hmem : p ∈ listPaths entries := mem_of_mem_outermost hp
  refine Kept.absorbs ?_ (ne_nil_of_mem_listPaths hmem)
  refine kept_foldl_enlist (List.mem_reverse.2 hmem) ?_ _ _
  intro q hq
  exact eq_of_prefix_outermost hp (List.mem_reverse.1 hq)

end Assembled

end FieldQuery
