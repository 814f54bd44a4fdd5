import FieldQuery.Json.Path

/-!
# Putting values at paths

A value is put at the end of a path through objects.  Nothing is asked of the order of members:
what is put under a key is found there, another key keeps its value, and values put under two keys,
or at two paths that part somewhere, do not get in each other's way.

Main definitions:

- `Apart`: paths that part before either ends.
- `put`: a value with another one at the end of a path, where the objects on the way are there.

Main statements: `lookup?_put_self`, `lookup?_put_of_apart`, `put_put` and `put_comm`.
-/

namespace FieldQuery.Json

/-! ## Members -/

namespace Members

variable {key other : String} {value item : Json}

theorem insert_of_lt (h : key < other) (rest : Members) :
    insert key value ((other, item) :: rest) = (key, value) :: (other, item) :: rest := by
  simp [insert, h]

theorem insert_of_eq (rest : Members) :
    insert key value ((key, item) :: rest) = (key, value) :: rest := by
  simp [insert]

theorem insert_of_gt (h : other < key) (rest : Members) :
    insert key value ((other, item) :: rest) = (other, item) :: insert key value rest := by
  have hne : key ≠ other := fun heq => String.lt_irrefl other (heq ▸ h)
  simp [insert, String.lt_asymm h, hne]

/-- Two keys are in order, equal, or in the other order. -/
theorem order_cases (key other : String) : key < other ∨ key = other ∨ other < key := by
  by_cases hlt : key < other
  · exact .inl hlt
  · by_cases heq : key = other
    · exact .inr (.inl heq)
    · exact .inr (.inr (Std.lt_of_le_of_ne hlt (Ne.symm heq)))

@[simp] theorem get?_insert_self (key : String) (value : Json) (members : Members) :
    get? key (insert key value members) = some value := by
  induction members with
  | nil => simp [insert, get?]
  | cons first rest ih =>
      rcases first with ⟨other, item⟩
      rcases order_cases key other with hlt | rfl | hgt
      · simp [insert_of_lt hlt, get?]
      · simp [insert_of_eq, get?]
      · have hne : other ≠ key := fun heq => String.lt_irrefl key (heq ▸ hgt)
        simpa [insert_of_gt hgt, get?, hne] using ih

theorem get?_insert_of_ne (h : other ≠ key) (value : Json) (members : Members) :
    get? other (insert key value members) = get? other members := by
  induction members with
  | nil => simp [insert, get?, Ne.symm h]
  | cons first rest ih =>
      rcases first with ⟨name, item⟩
      rcases order_cases key name with hlt | rfl | hgt
      · simp [insert_of_lt hlt, get?, Ne.symm h]
      · simp [insert_of_eq, get?, Ne.symm h]
      · rw [insert_of_gt hgt]
        by_cases hname : name = other
        · simp [get?, hname]
        · simpa [get?, hname] using ih

/-- Of values put under one key the last counts. -/
theorem insert_insert (key : String) (value item : Json) (members : Members) :
    insert key value (insert key item members) = insert key value members := by
  induction members with
  | nil => simp [insert]
  | cons first rest ih =>
      rcases first with ⟨other, old⟩
      rcases order_cases key other with hlt | rfl | hgt
      · simp [insert_of_lt hlt, insert_of_eq]
      · simp [insert_of_eq]
      · simp [insert_of_gt hgt, ih]

theorem insert_comm_of_lt (h : key < other) (value item : Json) (members : Members) :
    insert key value (insert other item members) =
      insert other item (insert key value members) := by
  induction members with
  | nil => simp [insert, h, String.lt_asymm h, Ne.symm (String.ne_of_lt h)]
  | cons first rest ih =>
      rcases first with ⟨name, old⟩
      rcases order_cases key name with hlt | rfl | hgt
      -- the first of the two keys goes in front of whatever the second one leaves here
      · rcases order_cases other name with hbefore | rfl | hbehind
        · simp [insert_of_lt hlt, insert_of_lt hbefore, insert_of_lt h, insert_of_gt h]
        · simp [insert_of_lt hlt, insert_of_eq, insert_of_gt h]
        · simp [insert_of_lt hlt, insert_of_gt hbehind, insert_of_gt h]
      · simp [insert_of_eq, insert_of_gt h]
      · simp [insert_of_gt hgt, insert_of_gt (String.lt_trans hgt h), ih]

theorem insert_comm (h : key ≠ other) (value item : Json) (members : Members) :
    insert key value (insert other item members) =
      insert other item (insert key value members) := by
  rcases order_cases key other with hlt | heq | hgt
  · exact insert_comm_of_lt hlt value item members
  · exact absurd heq h
  · exact (insert_comm_of_lt hgt item value members).symm

end Members

/-! ## Keys -/

variable {key other : String}

@[simp] theorem get?_set_self (value : Json) (key : String) (item : Json) :
    (value.set key item).get? key = some item :=
  Members.get?_insert_self key item value.membersOrNone

/-- A value that is no object has nothing under the other keys, before and after. -/
theorem get?_set_of_ne (h : other ≠ key) (value item : Json) :
    (value.set key item).get? other = value.get? other := by
  have hkept : (value.set key item).get? other = Members.get? other value.membersOrNone :=
    Members.get?_insert_of_ne h item value.membersOrNone
  cases value <;> exact hkept

@[simp] theorem set_set (value : Json) (key : String) (item last : Json) :
    (value.set key item).set key last = value.set key last :=
  congrArg Json.obj (Members.insert_insert key last item value.membersOrNone)

theorem set_comm (h : key ≠ other) (value item last : Json) :
    (value.set other item).set key last = (value.set key last).set other item :=
  congrArg Json.obj (Members.insert_comm h last item value.membersOrNone)

@[simp] theorem isObject_set (value : Json) (key : String) (item : Json) :
    (value.set key item).isObject = true := rfl

/-! ## One step -/

section Steps

variable {change first : Json → Json} {value item : Json}

theorem update_cons (change : Json → Json) (key : String) (rest : List String) (value : Json) :
    update change (key :: rest) value = update (update change rest) [key] value := rfl

theorem update_of_get? (h : value.get? key = some item) :
    update change [key] value = value.set key (change item) := by
  simp [update, h]

theorem update_of_missing (h : value.get? key = none) : update change [key] value = value := by
  simp [update, h]

theorem get?_update_self (change : Json → Json) (key : String) (value : Json) :
    (update change [key] value).get? key = (value.get? key).map change := by
  cases h : value.get? key with
  | none => simp [update_of_missing h, h]
  | some item => simp [update_of_get? h]

theorem get?_update_of_ne (h : other ≠ key) (change : Json → Json) (value : Json) :
    (update change [key] value).get? other = value.get? other := by
  cases hitem : value.get? key with
  | none => rw [update_of_missing hitem]
  | some item => rw [update_of_get? hitem, get?_set_of_ne h]

theorem update_update_key (change first : Json → Json) (key : String) (value : Json) :
    update change [key] (update first [key] value) = update (change ∘ first) [key] value := by
  cases h : value.get? key with
  | none => simp [update_of_missing h]
  | some item => simp [update_of_get? h, update_of_get? (get?_set_self value key _)]

theorem set_update_comm (h : key ≠ other) (change : Json → Json) (item value : Json) :
    (update change [other] value).set key item = update change [other] (value.set key item) := by
  have hother : (value.set key item).get? other = value.get? other :=
    get?_set_of_ne (Ne.symm h) value item
  cases hinner : value.get? other with
  | none => rw [update_of_missing hinner, update_of_missing (hother.trans hinner)]
  | some inner =>
      calc
        (update change [other] value).set key item
            = (value.set other (change inner)).set key item := by rw [update_of_get? hinner]
        _ = (value.set key item).set other (change inner) := set_comm h value (change inner) item
        _ = update change [other] (value.set key item) :=
            (update_of_get? (hother.trans hinner)).symm

theorem update_comm_key (h : key ≠ other) (change first : Json → Json) (value : Json) :
    update change [key] (update first [other] value) =
      update first [other] (update change [key] value) := by
  have hkey : (update first [other] value).get? key = value.get? key :=
    get?_update_of_ne h first value
  cases hinner : value.get? key with
  | none => rw [update_of_missing hinner, update_of_missing (hkey.trans hinner)]
  | some inner =>
      calc
        update change [key] (update first [other] value)
            = (update first [other] value).set key (change inner) :=
              update_of_get? (hkey.trans hinner)
        _ = update first [other] (value.set key (change inner)) := set_update_comm h _ _ _
        _ = update first [other] (update change [key] value) := by rw [update_of_get? hinner]

end Steps

/-! ## Paths -/

/-- Paths that part before either ends. -/
inductive Apart : List String → List String → Prop
  | here {a b : String} (h : a ≠ b) (p q : List String) : Apart (a :: p) (b :: q)
  | later (a : String) {p q : List String} (h : Apart p q) : Apart (a :: p) (a :: q)

theorem Apart.ne_nil {p q : List String} (h : Apart p q) : p ≠ [] := by
  cases h <;> exact List.cons_ne_nil _ _

theorem Apart.symm {p q : List String} (h : Apart p q) : Apart q p := by
  induction h with
  | here h p q => exact .here (Ne.symm h) q p
  | later a _ ih => exact .later a ih

/-- Paths part unless one of them leads to the other. -/
theorem apart_of_neither : ∀ {p q : List String}, ¬ p <+: q → ¬ q <+: p → Apart p q
  | [], _, h, _ => absurd List.nil_prefix h
  | _ :: _, [], _, h => absurd List.nil_prefix h
  | a :: p, b :: q, h, h' => by
      by_cases heq : a = b
      · subst heq
        have hp : ¬ p <+: q := fun hleads => h ((List.prefix_cons_inj a).2 hleads)
        have hq : ¬ q <+: p := fun hleads => h' ((List.prefix_cons_inj a).2 hleads)
        exact .later a (apart_of_neither hp hq)
      · exact .here heq p q

section Lookups

variable {p q : List String} {value item : Json}

theorem lookup?_cons (key : String) (rest : List String) (value : Json) :
    lookup? (key :: rest) value = (value.get? key).bind (lookup? rest) := by
  cases h : value.get? key <;> simp [lookup?, h]

theorem update_append (change : Json → Json) (p q : List String) (value : Json) :
    update change (p ++ q) value = update (update change q) p value := by
  induction p generalizing value with
  | nil => rfl
  | cons key rest ih =>
      cases h : value.get? key <;> simp [update, h, ih]

theorem lookup?_update_self (change : Json → Json) (p : List String) (value : Json) :
    lookup? p (update change p value) = (lookup? p value).map change := by
  induction p generalizing value with
  | nil => rfl
  | cons key rest ih =>
      rw [update_cons, lookup?_cons, lookup?_cons, get?_update_self]
      cases value.get? key <;> simp [ih]

theorem lookup?_update_of_apart (h : Apart p q) (change : Json → Json) (value : Json) :
    lookup? p (update change q value) = lookup? p value := by
  induction h generalizing value with
  | here h p q => rw [update_cons, lookup?_cons, lookup?_cons, get?_update_of_ne h]
  | later a _ ih =>
      rw [update_cons, lookup?_cons, lookup?_cons, get?_update_self]
      cases value.get? a <;> simp [ih]

end Lookups

/-! ## Putting -/

/-- A value with another one at the end of a path, if the objects on the way are there. -/
def put (item : Json) : List String → Json → Json
  | [], _ => item
  | [key], value => value.set key item
  | key :: next :: rest, value => update (fun inner => put item (next :: rest) inner) [key] value

/-- Whether the objects on the way to the end of a path are there. -/
def reaches (p : List String) (value : Json) : Bool :=
  (lookup? p.dropLast value).isSome

section Putting

variable {p q : List String} {value item last : Json}

theorem put_cons_cons (item : Json) (key next : String) (rest : List String) (value : Json) :
    put item (key :: next :: rest) value = update (put item (next :: rest)) [key] value := rfl

theorem put_cons_of_ne (h : p ≠ []) (item : Json) (key : String) (value : Json) :
    put item (key :: p) value = update (put item p) [key] value := by
  cases p with
  | nil => exact absurd rfl h
  | cons next rest => rfl

theorem reaches_cons_cons (key next : String) (rest : List String) (value : Json) :
    reaches (key :: next :: rest) value = (value.get? key).any (reaches (next :: rest)) := by
  simp only [reaches, List.dropLast_cons_cons, lookup?_cons]
  cases value.get? key <;> rfl

theorem lookup?_put_self : ∀ {p : List String} {value : Json}, reaches p value = true →
    ∀ item, lookup? p (put item p value) = some item
  | [], _, _, _ => rfl
  | [_], _, _, _ => by simp [put, lookup?]
  | key :: next :: rest, value, h, item => by
      rw [reaches_cons_cons] at h
      rw [put_cons_cons, lookup?_cons, get?_update_self]
      cases hinner : value.get? key with
      | none => simp [hinner] at h
      | some inner =>
          have hrest : reaches (next :: rest) inner = true := by simpa [hinner] using h
          exact lookup?_put_self hrest item

/-- What is put where nothing leads to is not seen, whatever it is. -/
theorem put_of_not_reaches : ∀ {p : List String} {value : Json}, reaches p value = false →
    ∀ item other, put item p value = put other p value
  | [], _, h, _, _ => nomatch h
  | [_], _, h, _, _ => nomatch h
  | key :: next :: rest, value, h, item, other => by
      rw [reaches_cons_cons] at h
      rw [put_cons_cons, put_cons_cons]
      cases hinner : value.get? key with
      | none => rw [update_of_missing hinner, update_of_missing hinner]
      | some inner =>
          have hrest : reaches (next :: rest) inner = false := by simpa [hinner] using h
          rw [update_of_get? hinner, update_of_get? hinner, put_of_not_reaches hrest item other]

/-- Of values put at one path the last counts. -/
theorem put_put : ∀ (item last : Json) (p : List String) (value : Json),
    put last p (put item p value) = put last p value
  | _, _, [], _ => rfl
  | item, last, [key], value => set_set value key item last
  | item, last, key :: next :: rest, value => by
      have hinner : put last (next :: rest) ∘ put item (next :: rest) = put last (next :: rest) :=
        funext fun inner => put_put item last (next :: rest) inner
      calc
        put last (key :: next :: rest) (put item (key :: next :: rest) value)
            = update (put last (next :: rest) ∘ put item (next :: rest)) [key] value :=
              update_update_key _ _ key value
        _ = put last (key :: next :: rest) value := by rw [hinner, put_cons_cons]

/-- A change at one path and a value put at another do not get in each other's way. -/
theorem put_update_comm (h : Apart p q) (item : Json) (change : Json → Json) (value : Json) :
    put item p (update change q value) = update change q (put item p value) := by
  induction h generalizing value with
  | here h p q =>
      cases p with
      | nil => exact set_update_comm h _ item value
      | cons next rest => exact update_comm_key h _ _ value
  | later a h ih =>
      -- both work on what is under the common key, one after the other
      simp only [put_cons_of_ne h.ne_nil, update_cons change a, update_update_key]
      exact congrArg (update · [a] value) (funext ih)

/-- Values put at paths that part do not get in each other's way. -/
theorem put_comm (h : Apart p q) (item last value : Json) :
    put item p (put last q value) = put last q (put item p value) := by
  induction h generalizing value with
  | here h p q =>
      cases q with
      -- a value that is put further down is a change of what is under the first key
      | cons next rest => exact put_update_comm (.here h p []) item _ value
      | nil =>
          cases p with
          | nil => exact set_comm h value last item
          | cons next rest => exact (put_update_comm (.here h.symm [] []) last _ value).symm
  | later a h ih =>
      simp only [put_cons_of_ne h.ne_nil, put_cons_of_ne h.symm.ne_nil, update_update_key]
      exact congrArg (update · [a] value) (funext ih)

theorem lookup?_put_of_apart (h : Apart p q) (item value : Json) :
    lookup? p (put item q value) = lookup? p value := by
  induction h generalizing value with
  | here h p q =>
      cases q with
      | nil => rw [put, lookup?_cons, lookup?_cons, get?_set_of_ne h]
      | cons next rest => exact lookup?_update_of_apart (.here h p []) _ value
  | later a h ih =>
      rw [put_cons_of_ne h.symm.ne_nil, lookup?_cons, lookup?_cons, get?_update_self]
      cases value.get? a <;> simp [ih]

theorem put_concat (item : Json) (p : List String) (key : String) (value : Json) :
    put item (p ++ [key]) value = update (·.set key item) p value := by
  induction p generalizing value with
  | nil => rfl
  | cons first rest ih =>
      have hinner : put item (rest ++ [key]) = update (·.set key item) rest :=
        funext fun inner => ih inner
      cases rest with
      | nil => rfl
      | cons second rest => exact congrArg (update · [first] value) hinner

/-- A change of what is at a path puts the new value there. -/
theorem update_eq_put (h : lookup? p value = some item) (change : Json → Json) :
    update change p value = put (change item) p value := by
  induction p generalizing value with
  | nil =>
      have hitem : value = item := Option.some.inj h
      rw [hitem]
      rfl
  | cons key rest ih =>
      rw [lookup?_cons] at h
      cases hinner : value.get? key with
      | none => simp [hinner] at h
      | some inner =>
          have hrest : lookup? rest inner = some item := by simpa [hinner] using h
          rw [update_cons, update_of_get? hinner, ih hrest]
          cases rest with
          | nil => rfl
          | cons next rest => rw [put_cons_cons, update_of_get? hinner]

end Putting

end FieldQuery.Json
