import FieldQuery.Cache.Basic
import Mathlib.Data.List.Basic

/-!
# Reading renderings

A list of values is rendered in brackets, with commas between the elements, and an element may hold
brackets, commas and quotes itself.  Still no text is the rendering of two lists whose elements are
rendered differently, and no text can be cut in two places into SQL and a rendering.  Both come from
one reading, character by character, that knows whether it is inside of quotes and how many brackets
are open: outside of quotes no rendering has a colon or a backslash, so two readings of one text
that begin on different sides of a quote stay on different sides up to its end.

Main definitions:

- `Spot`: where a character of a rendering stands; `Spot.run` reads characters.
- `Enclosed`: characters that leave no bracket and no quote open, and no comma outside of brackets.

Main statements: `BindValue.enclosed_rendering`, `renderings_inj` and `keyText_inj`.
-/

namespace FieldQuery.Cache

/-- Where a character stands: below so many open brackets, and there outside of quotes, inside of
them, or behind a backslash inside of them. -/
inductive Spot
  | plain (depth : Nat)
  | quoted (depth : Nat)
  | escaped (depth : Nat)
  deriving DecidableEq

namespace Spot

/-- The spot behind a character.  Outside of all brackets there is no comma, and outside of quotes
neither a colon nor a backslash. -/
def step : Spot → Char → Option Spot
  | .plain depth, c =>
    if c = '"' then some (.quoted depth)
    else if c = '\\' ∨ c = ':' then none
    else if c = '[' then some (.plain (depth + 1))
    else if c = ']' then if depth = 0 then none else some (.plain (depth - 1))
    else if c = ',' ∧ depth = 0 then none
    else some (.plain depth)
  | .quoted depth, c =>
    if c = '"' then some (.plain depth)
    else if c = '\\' then some (.escaped depth)
    else some (.quoted depth)
  | .escaped depth, _ => some (.quoted depth)

/-- The spot behind characters. -/
def run : Spot → List Char → Option Spot
  | spot, [] => some spot
  | spot, c :: rest => (spot.step c).bind fun next => next.run rest

theorem run_append (spot : Spot) (front back : List Char) :
    spot.run (front ++ back) = (spot.run front).bind fun next => next.run back := by
  induction front generalizing spot with
  | nil => rfl
  | cons c rest ih =>
      rw [List.cons_append, run, run, Option.bind_assoc]
      exact Option.bind_congr fun next _ => ih next

/-- Outside of quotes a reading stays there until the next quote. -/
theorem step_plain {depth : Nat} {c : Char} {next : Spot} (h : (plain depth).step c = some next)
    (hquote : c ≠ '"') : (c ≠ '\\' ∧ c ≠ ':') ∧ ∃ depth', next = plain depth' := by
  simp only [step, if_neg hquote] at h
  split at h
  · cases h
  · rename_i hallowed
    refine ⟨not_or.1 hallowed, ?_⟩
    repeat' split at h
    all_goals cases h
    all_goals exact ⟨_, rfl⟩

/-- Readings that begin on different sides of a quote do not both end outside of quotes. -/
theorem not_both_plain {chars : List Char} {depth depth' last last' : Nat}
    (hquoted : (quoted depth).run chars = some (plain last))
    (hplain : (plain depth').run chars = some (plain last')) : False := by
  induction chars generalizing depth depth' last last' with
  | nil => cases hquoted
  | cons c rest ih =>
      rcases Option.bind_eq_some_iff.1 hquoted with ⟨next, hnext, hrest⟩
      rcases Option.bind_eq_some_iff.1 hplain with ⟨next', hnext', hrest'⟩
      by_cases hquote : c = '"'
      -- the two readings change sides
      · subst hquote
        cases hnext
        cases hnext'
        exact ih hrest' hrest
      · rcases step_plain hnext' hquote with ⟨⟨hslash, -⟩, depth', rfl⟩
        have hstays : next = quoted depth := by
          simpa [step, hquote, hslash] using hnext.symm
        rw [hstays] at hrest
        exact ih hrest hrest'

end Spot

/-- Characters that leave no bracket and no quote open, and have no comma outside of brackets. -/
def Enclosed (chars : List Char) : Prop :=
  ∀ depth, (Spot.plain depth).run chars = some (.plain depth)

/-- A character that means nothing to the reading. -/
def Inert (c : Char) : Prop :=
  c ∉ ['"', '\\', ':', '[', ']', ',']

instance : DecidablePred Inert :=
  fun c => inferInstanceAs (Decidable (c ∉ _))

namespace Enclosed

variable {chars front back : List Char}

theorem nil : Enclosed [] :=
  fun _ => rfl

theorem append (hfront : Enclosed front) (hback : Enclosed back) : Enclosed (front ++ back) := by
  intro depth
  rw [Spot.run_append, hfront depth]
  exact hback depth

theorem of_inert (h : ∀ c ∈ chars, Inert c) : Enclosed chars := by
  intro depth
  induction chars with
  | nil => rfl
  | cons c rest ih =>
      have hc := h c List.mem_cons_self
      simp only [Inert, List.mem_cons, List.not_mem_nil, not_or, or_false] at hc
      have hstep : (Spot.plain depth).step c = some (.plain depth) := by
        simp [Spot.step, hc]
      rw [Spot.run, hstep]
      exact ih fun d hd => h d (List.mem_cons_of_mem c hd)

/-- Within brackets there may be commas. -/
theorem run_intercalate (depth : Nat) :
    ∀ {items : List (List Char)}, (∀ item ∈ items, Enclosed item) →
      (Spot.plain (depth + 1)).run ([',', ' '].intercalate items) = some (.plain (depth + 1))
  | [], _ => rfl
  | [item], h => by
      have hitem := h item List.mem_cons_self
      simpa [List.intercalate] using hitem (depth + 1)
  | item :: second :: rest, h => by
      have hitem := h item List.mem_cons_self
      have hrest := run_intercalate depth fun other hother =>
        h other (List.mem_cons_of_mem item hother)
      have hcomma : (Spot.plain (depth + 1)).run [',', ' '] = some (.plain (depth + 1)) := by
        simp [Spot.run, Spot.step]
      rw [List.intercalate_cons_cons, Spot.run_append, Spot.run_append, hitem, Option.bind_some,
        hcomma]
      exact hrest

theorem bracketed {items : List String} (h : ∀ item ∈ items, Enclosed item.toList) :
    Enclosed (BindValue.bracketed items).toList := by
  intro depth
  have hitems : ∀ item ∈ items.map String.toList, Enclosed item := by
    intro item hitem
    rcases List.mem_map.1 hitem with ⟨text, htext, rfl⟩
    exact h text htext
  have hchars : (BindValue.bracketed items).toList =
      '[' :: ([',', ' '].intercalate (items.map String.toList) ++ [']']) := by
    simp [BindValue.bracketed, String.toList_intercalate]
  rw [hchars, Spot.run]
  show (Spot.plain (depth + 1)).run _ = _
  rw [Spot.run_append, run_intercalate depth hitems]
  simp [Spot.run, Spot.step]

end Enclosed

/-! ## Renderings of values -/

/-- Within quotes only quotes and backslashes mean anything. -/
theorem Spot.run_quoted {chars : List Char} (h : ∀ c ∈ chars, c ≠ '"' ∧ c ≠ '\\') (depth : Nat) :
    (quoted depth).run chars = some (quoted depth) := by
  induction chars with
  | nil => rfl
  | cons c rest ih =>
      have hc := h c List.mem_cons_self
      have hstep : (quoted depth).step c = some (quoted depth) := by
        simp [step, hc]
      rw [run, hstep]
      exact ih fun d hd => h d (List.mem_cons_of_mem c hd)

/-- The digits of a number in a base are those below the base. -/
theorem exists_digit_of_mem {base : Nat} (hbase : 1 < base) (n : Nat) {c : Char}
    (h : c ∈ Nat.toDigits base n) : ∃ digit < base, c = Nat.digitChar digit := by
  induction n using Nat.strongRecOn with
  | _ n ih =>
      by_cases hlt : n < base
      · rw [Nat.toDigits_of_lt_base hlt] at h
        exact ⟨n, hlt, List.mem_singleton.1 h⟩
      · have hle := Nat.not_lt.1 hlt
        rw [Nat.toDigits_of_base_le hbase hle] at h
        rcases List.mem_append.1 h with hfront | hlast
        · exact ih _ (Nat.div_lt_self (by omega) hbase) hfront
        · exact ⟨n % base, Nat.mod_lt n (by omega), List.mem_singleton.1 hlast⟩

theorem inert_digitChar {digit : Nat} (h : digit < 16) : Inert (Nat.digitChar digit) := by
  revert digit
  decide

theorem inert_of_mem_toDigits {base : Nat} (hbase : 1 < base) (hle : base ≤ 16) {n : Nat} {c : Char}
    (h : c ∈ Nat.toDigits base n) : Inert c := by
  rcases exists_digit_of_mem hbase n h with ⟨digit, hdigit, rfl⟩
  exact inert_digitChar (Nat.lt_of_lt_of_le hdigit hle)

/-- The three ways to write a character of a quoted text. -/
theorem escape_cases (c : Char) :
    (∃ short, Text.escape c = ['\\', short]) ∨
      Text.escape c = ['\\', 'u', '\x7b'] ++ Text.hexCode c ++ ['\x7d'] ∨
      (Text.escape c = [c] ∧ c ≠ '"' ∧ c ≠ '\\') := by
  unfold Text.escape
  split_ifs with hnul htab hline hreturn hquote hslash hcode
  all_goals first
    | exact .inl ⟨_, rfl⟩
    | exact .inr (.inl rfl)
    | exact .inr (.inr ⟨rfl, hquote, hslash⟩)

/-- No character ends the quoted text that it is written in. -/
theorem run_escape (depth : Nat) (c : Char) :
    (Spot.quoted depth).run (Text.escape c) = some (.quoted depth) := by
  rcases escape_cases c with ⟨short, hshort⟩ | hcode | ⟨hself, hquote, hslash⟩
  · rw [hshort]
    rfl
  · have hhex : ∀ d ∈ '\x7b' :: (Text.hexCode c ++ ['\x7d']), d ≠ '"' ∧ d ≠ '\\' := by
      intro d hd
      rcases List.mem_cons.1 hd with rfl | hd
      · decide
      · rcases List.mem_append.1 hd with hd | hd
        · have hinert : Inert d := inert_of_mem_toDigits (by decide) (by decide) hd
          simp only [Inert, List.mem_cons, not_or] at hinert
          exact ⟨hinert.1, hinert.2.1⟩
        · rcases List.mem_singleton.1 hd with rfl
          decide
    rw [hcode]
    exact Spot.run_quoted hhex depth
  · rw [hself]
    exact Spot.run_quoted (by simpa using ⟨hquote, hslash⟩) depth

theorem run_escapes (depth : Nat) (chars : List Char) :
    (Spot.quoted depth).run (chars.flatMap Text.escape) = some (.quoted depth) := by
  induction chars with
  | nil => rfl
  | cons c rest ih =>
      rw [List.flatMap_cons, Spot.run_append, run_escape]
      exact ih

theorem enclosed_quoted (text : String) : Enclosed (Text.quoted text).toList := by
  intro depth
  have hchars : (Text.quoted text).toList = '"' :: (text.toList.flatMap Text.escape ++ ['"']) := by
    simp [Text.quoted]
  rw [hchars, Spot.run]
  show (Spot.quoted depth).run _ = _
  rw [Spot.run_append, run_escapes]
  rfl

/-- A text whose characters mean nothing to the reading. -/
def InertText (text : String) : Prop :=
  ∀ c ∈ text.toList, Inert c

instance : DecidablePred InertText :=
  fun text => List.decidableBAll Inert text.toList

theorem enclosed_of_inertText {text : String} (h : InertText text) : Enclosed text.toList :=
  .of_inert h

theorem InertText.append {front back : String} (hfront : InertText front) (hback : InertText back) :
    InertText (front ++ back) := by
  intro c hc
  rw [String.toList_append] at hc
  exact (List.mem_append.1 hc).elim (hfront c) (hback c)

theorem inertText_natRepr (n : Nat) : InertText n.repr := by
  intro c hc
  rw [Nat.toList_repr] at hc
  exact inert_of_mem_toDigits (by decide) (by decide) hc

theorem inertText_toString (i : Int) : InertText (toString i) := by
  rw [Int.toString_eq_repr]
  cases i with
  | ofNat n => exact inertText_natRepr n
  | negSucc n =>
      have hsign : InertText "-" := by decide
      exact hsign.append (inertText_natRepr (n + 1))

theorem inertText_zeros (n : Int) : InertText (Decimal.zeros n) := by
  intro c hc
  rw [Decimal.zeros, String.toList_ofList] at hc
  rw [List.eq_of_mem_replicate hc]
  decide

/-- Digits, a point and an exponent mean nothing to the reading. -/
theorem inertText_magnitude {layout : Decimal.Layout} (hplus : InertText layout.plus)
    (d : Decimal) : InertText (layout.magnitude d) := by
  have hdigits : InertText (toString d.digits) := inertText_natRepr d.digits
  have htake (n : Nat) : InertText (String.ofList ((toString d.digits).toList.take n)) := by
    intro c hc
    rw [String.toList_ofList] at hc
    exact hdigits c (List.mem_of_mem_take hc)
  have hdrop (n : Nat) : InertText (String.ofList ((toString d.digits).toList.drop n)) := by
    intro c hc
    rw [String.toList_ofList] at hc
    exact hdigits c (List.mem_of_mem_drop hc)
  have hpoint : InertText "." := by decide
  unfold Decimal.Layout.magnitude
  dsimp only
  split
  · decide
  · split
    · split
      · exact (hdigits.append (inertText_zeros _)).append (by decide)
      · split
        · exact ((htake _).append hpoint).append (hdrop _)
        · exact (InertText.append (by decide) (inertText_zeros _)).append hdigits
    · have hfraction : InertText (if ((toString d.digits).toList.drop 1).isEmpty then "" else
          "." ++ String.ofList ((toString d.digits).toList.drop 1)) := by
        split
        · decide
        · exact hpoint.append (hdrop 1)
      have hsign : InertText (if 1 ≤ ((toString d.digits).length : Int) + d.power then layout.plus
          else "") := by
        split
        · exact hplus
        · decide
      have hmark : InertText "e" := by decide
      exact ((((htake 1).append hfraction).append hmark).append hsign).append
        (inertText_toString _)

theorem inertText_float (x : Binary64) : InertText (BindValue.floatLayout.text x) := by
  unfold Decimal.Layout.text
  split
  · refine InertText.append ?_ (inertText_magnitude (by decide) _)
    split
    · decide
    · decide
  · repeat' split
    all_goals decide

theorem inertText_uuid (id : Uuid) : InertText id.text := by
  have hdigits (first count : Nat) :
      ∀ c ∈ (List.range count).map fun i => id.digitChar (first + i), Inert c := by
    intro c hc
    rcases List.mem_map.1 hc with ⟨i, -, rfl⟩
    exact inert_digitChar (Nat.mod_lt _ (by decide))
  have hhyphen : Inert '-' := by decide
  unfold InertText
  simp only [Uuid.text, String.toList_ofList, List.forall_mem_append, List.forall_mem_cons]
  exact ⟨⟨⟨⟨hdigits 0 8, hhyphen, hdigits 8 4⟩, hhyphen, hdigits 12 4⟩, hhyphen, hdigits 16 4⟩,
    hhyphen, hdigits 20 12⟩

theorem enclosed_rendering (value : BindValue) : Enclosed value.rendering.toList := by
  induction value with
  | none => exact enclosed_of_inertText (by decide)
  | some value ih =>
      have hchars : (BindValue.some value).rendering.toList =
          "Some(".toList ++ value.rendering.toList ++ ")".toList := by
        simp [BindValue.rendering]
      rw [hchars]
      exact ((enclosed_of_inertText (by decide)).append ih).append
        (enclosed_of_inertText (by decide))
  | bool value => cases value <;> exact enclosed_of_inertText (by decide)
  | int value => exact .of_inert (inertText_toString value)
  | float value => exact .of_inert (inertText_float value)
  | text value => exact enclosed_quoted value
  | bytes value =>
      refine Enclosed.bracketed fun item hitem => ?_
      rcases List.mem_map.1 hitem with ⟨byte, -, rfl⟩
      exact .of_inert (inertText_natRepr _)
  | ints value =>
      refine Enclosed.bracketed fun item hitem => ?_
      rcases List.mem_map.1 hitem with ⟨i, -, rfl⟩
      exact .of_inert (inertText_toString i)
  | texts value =>
      refine Enclosed.bracketed fun item hitem => ?_
      rcases List.mem_map.1 hitem with ⟨text, -, rfl⟩
      exact enclosed_quoted text
  | uuid value => exact .of_inert (inertText_uuid value)

/-! ## Reading lists of renderings -/

/-- The characters that end an element of a list. -/
def EndsElement (c : Char) : Prop :=
  c = ',' ∨ c = ']'

/-- A comma or a closing bracket outside of brackets is part of no rendering. -/
theorem Enclosed.not_extended {front more : List Char} {c : Char} (hfront : Enclosed front)
    (hc : EndsElement c) : ¬Enclosed (front ++ c :: more) := by
  intro hwhole
  have hstep : (Spot.plain 0).step c = none := by
    rcases hc with rfl | rfl
    · rfl
    · rfl
  have hrun := hwhole 0
  rw [Spot.run_append, hfront 0, Option.bind_some, Spot.run, hstep] at hrun
  cases hrun

/-- An element of a list ends where its rendering does. -/
theorem Enclosed.unique {first second rest rest' : List Char} {c c' : Char}
    (hfirst : Enclosed first) (hsecond : Enclosed second) (hc : EndsElement c)
    (hc' : EndsElement c') (h : first ++ c :: rest = second ++ c' :: rest') :
    first = second ∧ c :: rest = c' :: rest' := by
  rcases List.append_eq_append_iff.1 h with ⟨more, rfl, htail⟩ | ⟨more, rfl, htail⟩
  · cases more with
    | nil => exact ⟨(List.append_nil first).symm, htail⟩
    | cons d more =>
        obtain ⟨rfl, -⟩ := List.cons.inj htail
        exact absurd hsecond (hfirst.not_extended hc)
  · cases more with
    | nil => exact ⟨List.append_nil second, htail.symm⟩
    | cons d more =>
        obtain ⟨rfl, -⟩ := List.cons.inj htail
        exact absurd hfirst (hsecond.not_extended hc')

/-- What stands behind an element: the other elements, and the bracket at the end. -/
def behindElement : List (List Char) → List Char
  | [] => [']']
  | items => ',' :: ' ' :: ([',', ' '].intercalate items ++ [']'])

theorem behindElement_eq (items : List (List Char)) :
    ∃ c rest, behindElement items = c :: rest ∧ EndsElement c := by
  cases items with
  | nil => exact ⟨_, _, rfl, .inr rfl⟩
  | cons item items => exact ⟨_, _, rfl, .inl rfl⟩

theorem intercalate_behind (item : List Char) (items : List (List Char)) :
    [',', ' '].intercalate (item :: items) ++ [']'] = item ++ behindElement items := by
  cases items with
  | nil => rw [List.intercalate_singleton, behindElement]
  | cons second rest => simp [List.intercalate_cons_cons, behindElement]

theorem behindElement_inj {items others : List (List Char)} (hitems : ∀ item ∈ items, Enclosed item)
    (hothers : ∀ item ∈ others, Enclosed item) (h : behindElement items = behindElement others) :
    items = others := by
  induction items generalizing others with
  | nil =>
      cases others with
      | nil => rfl
      | cons other others => cases h
  | cons item items ih =>
      cases others with
      | nil => cases h
      | cons other others =>
          have htexts := (List.cons.inj (List.cons.inj h).2).2
          rw [intercalate_behind, intercalate_behind] at htexts
          rcases behindElement_eq items with ⟨c, rest, hbehind, hc⟩
          rcases behindElement_eq others with ⟨c', rest', hbehind', hc'⟩
          rw [hbehind, hbehind'] at htexts
          obtain ⟨rfl, htail⟩ := (hitems item List.mem_cons_self).unique
            (hothers other List.mem_cons_self) hc hc' htexts
          rw [← hbehind, ← hbehind'] at htail
          rw [ih (fun d hd => hitems d (List.mem_cons_of_mem _ hd))
            (fun d hd => hothers d (List.mem_cons_of_mem _ hd)) htail]

/-- No list of elements, none of which is missing, is written like the empty list. -/
theorem intercalate_ne_nil {item : List Char} {items : List (List Char)} (hitem : Enclosed item)
    (hne : item ≠ []) : [',', ' '].intercalate (item :: items) ++ [']'] ≠ [']'] := by
  intro h
  rcases behindElement_eq items with ⟨c, rest, hbehind, hc⟩
  rw [intercalate_behind, hbehind] at h
  exact hne (hitem.unique .nil hc (.inr rfl) h).1

theorem intercalate_inj {items others : List (List Char)}
    (hitems : ∀ item ∈ items, Enclosed item ∧ item ≠ [])
    (hothers : ∀ item ∈ others, Enclosed item ∧ item ≠ [])
    (h : [',', ' '].intercalate items ++ [']'] = [',', ' '].intercalate others ++ [']']) :
    items = others := by
  cases items with
  | nil =>
      cases others with
      | nil => rfl
      | cons other others =>
          have hother := hothers other List.mem_cons_self
          exact absurd h.symm (intercalate_ne_nil hother.1 hother.2)
  | cons item items =>
      cases others with
      | nil =>
          have hitem := hitems item List.mem_cons_self
          exact absurd h (intercalate_ne_nil hitem.1 hitem.2)
      | cons other others =>
          refine behindElement_inj (fun d hd => (hitems d hd).1) (fun d hd => (hothers d hd).1) ?_
          rw [behindElement, behindElement, h]
          · exact List.cons_ne_nil _ _
          · exact List.cons_ne_nil _ _

theorem magnitude_ne_nil (layout : Decimal.Layout) (d : Decimal) :
    (layout.magnitude d).toList ≠ [] := by
  unfold Decimal.Layout.magnitude
  dsimp only
  repeat' split
  all_goals simp

theorem toString_ne_nil (i : Int) : (toString i).toList ≠ [] := by
  rw [Int.toString_eq_repr]
  cases i with
  | ofNat n =>
      have hdigits : n.repr.toList ≠ [] := by
        rw [Nat.toList_repr]
        exact Nat.toDigits_ne_nil
      exact hdigits
  | negSucc n => simp [Int.repr]

theorem rendering_ne_nil (value : BindValue) : value.rendering.toList ≠ [] := by
  cases value with
  | none => decide
  | some value => simp [BindValue.rendering]
  | bool value => cases value <;> decide
  | int value => exact toString_ne_nil value
  | float value =>
      rw [BindValue.rendering, Decimal.Layout.text]
      split
      · rw [String.toList_append]
        exact List.append_ne_nil_of_right_ne_nil _ (magnitude_ne_nil _ _)
      · repeat' split
        all_goals decide
  | text value => simp [BindValue.rendering, Text.quoted]
  | bytes value => simp [BindValue.rendering, BindValue.bracketed]
  | ints value => simp [BindValue.rendering, BindValue.bracketed]
  | texts value => simp [BindValue.rendering, BindValue.bracketed]
  | uuid value => simp [BindValue.rendering, Uuid.text]

theorem enclosed_renderings (values : List BindValue) :
    Enclosed (BindValue.renderings values).toList := by
  refine Enclosed.bracketed fun item hitem => ?_
  rcases List.mem_map.1 hitem with ⟨value, -, rfl⟩
  exact enclosed_rendering value

/-- Lists with the same rendering have elements with the same renderings. -/
theorem renderings_inj {values others : List BindValue} :
    BindValue.renderings values = BindValue.renderings others ↔
      values.map (·.rendering) = others.map (·.rendering) := by
  constructor
  · intro h
    have helements (values : List BindValue) :
        ∀ item ∈ (values.map (·.rendering)).map String.toList, Enclosed item ∧ item ≠ [] := by
      intro item hitem
      rw [List.map_map] at hitem
      rcases List.mem_map.1 hitem with ⟨value, -, rfl⟩
      exact ⟨enclosed_rendering value, rendering_ne_nil value⟩
    have hchars := congrArg String.toList h
    simp only [BindValue.renderings, BindValue.bracketed, String.toList_append,
      String.toList_intercalate, List.append_assoc, List.append_cancel_left_eq] at hchars
    have htexts := intercalate_inj (helements values) (helements others) hchars
    exact List.map_injective_iff.2 (fun _ _ => String.toList_injective) htexts
  · intro h
    rw [BindValue.renderings, BindValue.renderings, h]

/-! ## Reading the text of a key -/

/-- A rendering does not go on behind a colon that stands inside of its quotes. -/
theorem not_enclosed_cut {front back : List Char} (hback : Enclosed back) :
    ¬Enclosed (front ++ ':' :: ' ' :: back) := by
  intro hwhole
  have hrun := hwhole 0
  rw [Spot.run_append] at hrun
  rcases Option.bind_eq_some_iff.1 hrun with ⟨spot, -, hrest⟩
  have hquoted : ∃ depth, (Spot.quoted depth).run back = some (.plain 0) := by
    cases spot with
    | plain depth => cases hrest
    | quoted depth => exact ⟨depth, hrest⟩
    | escaped depth => exact ⟨depth, hrest⟩
  rcases hquoted with ⟨depth, hquoted⟩
  exact Spot.not_both_plain hquoted (hback 0)

/-- A text is cut into SQL and a rendering in one place only. -/
theorem cut_unique {front front' back back' : List Char} (hback : Enclosed back)
    (hback' : Enclosed back') (h : front ++ ':' :: ' ' :: back = front' ++ ':' :: ' ' :: back') :
    front = front' ∧ back = back' := by
  have hcases : ∀ {more first second : List Char}, Enclosed first → Enclosed second →
      ':' :: ' ' :: first = more ++ ':' :: ' ' :: second → more = [] ∧ first = second := by
    intro more first second hfirst hsecond htail
    match more, htail with
    | [], htail => exact ⟨rfl, (List.cons.inj (List.cons.inj htail).2).2⟩
    | [c], htail => cases htail
    | c :: d :: more, htail =>
        have hcut := (List.cons.inj (List.cons.inj htail).2).2
        rw [hcut] at hfirst
        exact absurd hfirst (not_enclosed_cut hsecond)
  rcases List.append_eq_append_iff.1 h with ⟨more, rfl, htail⟩ | ⟨more, rfl, htail⟩
  · rcases hcases hback hback' htail with ⟨rfl, hsame⟩
    exact ⟨(List.append_nil front).symm, hsame⟩
  · rcases hcases hback' hback htail with ⟨rfl, hsame⟩
    exact ⟨List.append_nil front', hsame.symm⟩

/-- SQL and renderings can be read off the text that a key is made of. -/
theorem keyText_inj {sql sql' : String} {arguments arguments' : List BindValue} :
    keyText sql arguments = keyText sql' arguments' ↔
      sql = sql' ∧ arguments.map (·.rendering) = arguments'.map (·.rendering) := by
  constructor
  · intro h
    have hchars (sql : String) (arguments : List BindValue) : (keyText sql arguments).toList =
        sql.toList ++ ':' :: ' ' :: (BindValue.renderings arguments).toList := by
      simp [keyText]
    have htexts := congrArg String.toList h
    rw [hchars, hchars] at htexts
    rcases cut_unique (enclosed_renderings _) (enclosed_renderings _) htexts with ⟨hsql, hvalues⟩
    exact ⟨String.toList_injective hsql, renderings_inj.1 (String.toList_injective hvalues)⟩
  · rintro ⟨rfl, hvalues⟩
    rw [keyText, keyText, renderings_inj.2 hvalues]

end FieldQuery.Cache
