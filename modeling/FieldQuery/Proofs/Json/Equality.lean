import FieldQuery.Json.Basic

/-!
# Equality of JSON values

Values are compared in two ways.  As they are written, equal values are one and the same; as what
they stand for, every value equals itself, and so do the two zeros each other.

Main statements: the instance of `LawfulBEq`, `same_refl`.
-/

namespace FieldQuery.Json

section Agreement

variable {numbers : Number → Number → Bool}

mutual

theorem agree_refl (h : ∀ n, numbers n n = true) : ∀ value : Json, agree numbers value value = true
  | .null => rfl
  | .bool b => by simp [agree]
  | .num n => by simp [agree, h n]
  | .str s => by simp [agree]
  | .arr items => by simp [agree, agreeItems_refl h items]
  | .obj members => by simp [agree, agreeMembers_refl h members]

theorem agreeItems_refl (h : ∀ n, numbers n n = true) :
    ∀ items : List Json, agreeItems numbers items items = true
  | [] => rfl
  | item :: rest => by simp [agreeItems, agree_refl h item, agreeItems_refl h rest]

theorem agreeMembers_refl (h : ∀ n, numbers n n = true) :
    ∀ members : List (String × Json), agreeMembers numbers members members = true
  | [] => rfl
  | (key, value) :: rest => by
      simp [agreeMembers, agree_refl h value, agreeMembers_refl h rest]

end

end Agreement

mutual

theorem eq_of_agree : ∀ a b : Json, agree (· == ·) a b = true → a = b
  | .null, b, h => by cases b <;> simp [agree] at h ⊢
  | .bool _, b, h => by cases b <;> simp [agree] at h ⊢; exact h
  | .num _, b, h => by cases b <;> simp [agree] at h ⊢; exact h
  | .str _, b, h => by cases b <;> simp [agree] at h ⊢; exact h
  | .arr items, b, h => by
      cases b with
      | arr others =>
          have hitems : agreeItems (· == ·) items others = true := by simpa [agree] using h
          exact congrArg Json.arr (eq_of_agreeItems items others hitems)
      | _ => simp [agree] at h
  | .obj members, b, h => by
      cases b with
      | obj others =>
          have hmembers : agreeMembers (· == ·) members others = true := by
            simpa [agree] using h
          exact congrArg Json.obj (eq_of_agreeMembers members others hmembers)
      | _ => simp [agree] at h

theorem eq_of_agreeItems : ∀ items others : List Json,
    agreeItems (· == ·) items others = true → items = others
  | [], [], _ => rfl
  | [], _ :: _, h => by simp [agreeItems] at h
  | _ :: _, [], h => by simp [agreeItems] at h
  | item :: rest, other :: others, h => by
      have hboth : agree (· == ·) item other = true ∧ agreeItems (· == ·) rest others = true := by
        simpa [agreeItems] using h
      rw [eq_of_agree item other hboth.1, eq_of_agreeItems rest others hboth.2]

theorem eq_of_agreeMembers : ∀ members others : List (String × Json),
    agreeMembers (· == ·) members others = true → members = others
  | [], [], _ => rfl
  | [], _ :: _, h => by simp [agreeMembers] at h
  | _ :: _, [], h => by simp [agreeMembers] at h
  | (key, value) :: rest, (name, other) :: others, h => by
      have hall : (key = name ∧ agree (· == ·) value other = true) ∧
          agreeMembers (· == ·) rest others = true := by
        simpa [agreeMembers] using h
      rw [hall.1.1, eq_of_agree value other hall.1.2, eq_of_agreeMembers rest others hall.2]

end

instance : LawfulBEq Json where
  rfl := agree_refl (fun n => beq_self_eq_true n) _
  eq_of_beq := fun h => eq_of_agree _ _ h

theorem Number.same_refl : ∀ n : Number, n.same n = true
  | .int i => by simp [Number.same]
  | .float x => by simp [Number.same, Binary64.sameNumber]

/-- Every value stands for what it stands for. -/
theorem same_refl (value : Json) : value.same value = true :=
  agree_refl Number.same_refl value

end FieldQuery.Json
