import FieldQuery.Json.Lexeme
import FieldQuery.Json.Printer
import Mathlib.Data.List.Basic

/-!
# Printed strings and integers

A printed string is cut out of a text and read back as it was: each character is written by itself,
by its short name or by its code, and none of these is a quote that ends the string.  A printed
integer is a word of digits that ends in front of the next punctuation character, and has the value
that it was printed from if it fits in 64 bits.

Main definitions:

- `Escaped`: how a character is written in a string, and what it is read as.
- `Number.literal`: the literal of an integer.
- `Breaks`: a text that begins behind the end of a word.

Main statements: `lex?_string`, `decode?_parts`, `lex?_int` and `Number.ofLiteral?_literal`.
-/

namespace FieldQuery.Json

/-! ## Strings -/

/-- What a character of a printed string is read as. -/
def partOf (c : Char) : StringPart :=
  if c.toNat < 0x20 ∧ c ∉ ['\x08', '\x0c', '\n', '\r', '\t'] then .unit c.toNat else .char c

/-- A character, how it is written in a string, and what that is read as. -/
inductive Escaped : Char → List Char → StringPart → Prop
  | named {c name : Char} (hname : name ≠ 'u') (h : shortEscape? name = some c) :
      Escaped c ['\\', name] (.char c)
  | coded {c high low : Char} (h : codeUnit? '0' '0' high low = some c.toNat)
      (hsmall : c.toNat < 0x20) (hhigh : high ≠ '"' ∧ high ≠ '\\')
      (hlow : low ≠ '"' ∧ low ≠ '\\') :
      Escaped c ['\\', 'u', '0', '0', high, low] (.unit c.toNat)
  | plain {c : Char} (hquote : c ≠ '"') (hslash : c ≠ '\\') (hlarge : ¬ c.toNat < 0x20) :
      Escaped c [c] (.char c)

theorem escaped (c : Char) : Escaped c (escape c) (partOf c) := by
  by_cases hnamed : c ∈ ['"', '\\', '\x08', '\x0c', '\n', '\r', '\t']
  · simp only [List.mem_cons, List.not_mem_nil, or_false] at hnamed
    rcases hnamed with rfl | rfl | rfl | rfl | rfl | rfl | rfl
    all_goals exact .named (by decide) (by decide)
  · simp only [List.mem_cons, List.not_mem_nil, or_false, not_or] at hnamed
    rcases hnamed with ⟨hquote, hslash, hb, hf, hn, hr, ht⟩
    by_cases hsmall : c.toNat < 0x20
    · have hcode : ∀ n < 0x20,
          codeUnit? '0' '0' (Nat.digitChar (n / 16)) (Nat.digitChar (n % 16)) = some n ∧
            (Nat.digitChar (n / 16) ≠ '"' ∧ Nat.digitChar (n / 16) ≠ '\\') ∧
            Nat.digitChar (n % 16) ≠ '"' ∧ Nat.digitChar (n % 16) ≠ '\\' := by
        decide
      rcases hcode c.toNat hsmall with ⟨hunit, hhigh, hlow⟩
      have hescape : escape c = ['\\', 'u', '0', '0'] ++ hexPair c.toNat := by
        simp [escape, hquote, hslash, hb, hf, hn, hr, ht, hsmall]
      have hpart : partOf c = .unit c.toNat := by
        simp [partOf, hb, hf, hn, hr, ht, hsmall]
      rw [hescape, hpart]
      exact .coded hunit hsmall hhigh hlow
    · have hescape : escape c = [c] := by
        simp [escape, hquote, hslash, hb, hf, hn, hr, ht, hsmall]
      have hpart : partOf c = .char c := by
        simp [partOf, hsmall]
      rw [hescape, hpart]
      exact .plain hquote hslash hsmall

theorem lex?_escaped {c : Char} {written : List Char} {part : StringPart}
    (h : Escaped c written part) (body rest : List Char) :
    lex? (.inString body false) (written ++ rest) =
      lex? (.inString (written.reverse ++ body) false) rest := by
  cases h with
  | named hname h => simp [lex?]
  | coded h hsmall hhigh hlow =>
      simp [lex?, hhigh.1, hlow.1, beq_eq_false_iff_ne.2 hhigh.2, beq_eq_false_iff_ne.2 hlow.2]
  | plain hquote hslash hlarge => simp [lex?, hquote, beq_eq_false_iff_ne.2 hslash]

theorem lex?_body (cs body rest : List Char) :
    lex? (.inString body false) (cs.flatMap escape ++ rest) =
      lex? (.inString ((cs.flatMap escape).reverse ++ body) false) rest := by
  induction cs generalizing body with
  | nil => rfl
  | cons c cs ih =>
      rw [List.flatMap_cons, List.append_assoc, lex?_escaped (escaped c), ih, List.reverse_append,
        List.append_assoc]

theorem stringParts?_escaped {c : Char} {written : List Char} {part : StringPart}
    (h : Escaped c written part) (rest : List Char) :
    stringParts? (written ++ rest) = (stringParts? rest).map (part :: ·) := by
  cases h with
  | @named name hname h =>
      have hstep : stringParts? ('\\' :: name :: rest) = (do
          let c ← shortEscape? name
          let parts ← stringParts? rest
          return .char c :: parts) := by
        rw [stringParts?]
        rintro a b c d tail rfl
        exact absurd rfl hname
      show stringParts? ('\\' :: name :: rest) = _
      rw [hstep, h]
      cases stringParts? rest <;> rfl
  | coded h hsmall hhigh hlow =>
      show stringParts? ('\\' :: 'u' :: '0' :: '0' :: _ :: _ :: rest) = _
      rw [stringParts?, h]
      cases stringParts? rest <;> rfl
  | plain hquote hslash hlarge =>
      show stringParts? (c :: rest) = _
      rw [stringParts?]
      · rw [if_neg (not_or.2 ⟨hslash, hlarge⟩)]
      · rintro _ _ _ _ _ rfl
        exact absurd rfl hslash
      · rintro _ _ rfl
        exact absurd rfl hslash

theorem stringParts?_body (cs : List Char) :
    stringParts? (cs.flatMap escape) = some (cs.map partOf) := by
  induction cs with
  | nil => rfl
  | cons c cs ih =>
      rw [List.flatMap_cons, stringParts?_escaped (escaped c), ih]
      rfl

/-- A printed string is cut out of a text as a whole. -/
theorem lex?_string (s : String) (rest : List Char) :
    lex? .between (stringChars s ++ rest) =
      (lex? .between rest).map (.str (s.toList.map partOf) :: ·) := by
  have hopen : ∀ tail, lex? .between ('"' :: tail) = lex? (.inString [] false) tail := by
    intro tail
    simp [lex?, isBlank]
  have hclose : ∀ body, lex? (.inString body false) ('"' :: rest) = (do
      let parts ← stringParts? body.reverse
      let lexemes ← lex? .between rest
      return .str parts :: lexemes) := by
    intro body
    simp [lex?]
  have hchars : stringChars s ++ rest = '"' :: (s.toList.flatMap escape ++ '"' :: rest) := by
    simp [stringChars]
  rw [hchars, hopen, lex?_body, hclose, List.append_nil, List.reverse_reverse, stringParts?_body]
  cases lex? .between rest <;> rfl

/-- No control character is half of a pair. -/
theorem decodeParts?_coded {c : Char} (hsmall : c.toNat < 0x20) (parts : List StringPart) :
    decodeParts? (.unit c.toNat :: parts) = (decodeParts? parts).map (c :: ·) := by
  have hhigh : isHighSurrogate c.toNat = false := by
    simp [isHighSurrogate]
    omega
  have hlow : isLowSurrogate c.toNat = false := by
    simp [isLowSurrogate]
    omega
  have hchar : Char.ofNat c.toNat = c := Char.ofNat_toNat c
  cases parts with
  | nil => simp [decodeParts?, hhigh, hlow, hchar]
  | cons part parts =>
      cases part with
      | char d => simp [decodeParts?, hhigh, hlow, hchar]
      | unit code => simp [decodeParts?, hhigh, hlow, hchar]

theorem decodeParts?_parts (cs : List Char) : decodeParts? (cs.map partOf) = some cs := by
  induction cs with
  | nil => rfl
  | cons c cs ih =>
      have hpart := escaped c
      rw [List.map_cons]
      generalize escape c = written at hpart
      generalize partOf c = part at hpart ⊢
      cases hpart with
      | named hname h => rw [decodeParts?, ih, Option.map_some]
      | plain hquote hslash hlarge => rw [decodeParts?, ih, Option.map_some]
      | coded h hsmall hplain => rw [decodeParts?_coded hsmall, ih, Option.map_some]

/-- A printed string stands for the one that it was printed from. -/
theorem decode?_parts (s : String) : decode? (s.toList.map partOf) = some s := by
  rw [decode?, decodeParts?_parts, Option.map_some, String.ofList_toList]

/-! ## Integers -/

/-- The values of a number's decimal digits. -/
def digitValues (n : Nat) : List Nat :=
  (Nat.toDigits 10 n).map fun c => c.toNat - '0'.toNat

/-- The literal of an integer. -/
def Number.literal (i : Int) : NumberLiteral :=
  ⟨decide (i < 0), digitValues i.natAbs, [], false, none⟩

theorem digitsOf_digits {cs : List Char} (h : ∀ c ∈ cs, c.isDigit) :
    digitsOf cs = (cs.map fun c => c.toNat - '0'.toNat, []) := by
  induction cs with
  | nil => rfl
  | cons c cs ih =>
      have hdigit : digitOf? c = some (c.toNat - '0'.toNat) :=
        if_pos (h c List.mem_cons_self)
      rw [digitsOf, hdigit, ih fun d hd => h d (List.mem_cons_of_mem _ hd)]
      rfl

theorem digitsOf_toDigits (n : Nat) : digitsOf (Nat.toDigits 10 n) = (digitValues n, []) :=
  digitsOf_digits fun _ hc => Nat.isDigit_of_mem_toDigits (by decide) (by decide) hc

/-- Only nought is printed with a leading nought. -/
theorem digitValues_cons (n : Nat) : ∃ first rest, digitValues n = first :: rest ∧
    (first = 0 → rest = []) ∧ (n ≠ 0 → first ≠ 0) := by
  induction n using Nat.strongRecOn with
  | _ n ih =>
      rcases Nat.lt_or_ge n 10 with hsmall | hlarge
      · have hvalue : digitValues n = [n] := by
          rw [digitValues, Nat.toDigits_of_lt_base hsmall]
          have hall : ∀ d < 10, (Nat.digitChar d).toNat - '0'.toNat = d := by decide
          exact congrArg (fun d => [d]) (hall n hsmall)
        exact ⟨n, [], hvalue, fun _ => rfl, id⟩
      · rcases ih (n / 10) (by omega) with ⟨first, rest, hfront, -, hfirst⟩
        have hvalue : digitValues n =
            first :: (rest ++ [(Nat.digitChar (n % 10)).toNat - '0'.toNat]) := by
          rw [digitValues, Nat.toDigits_of_base_le (by decide) hlarge, List.map_append]
          show digitValues (n / 10) ++ _ = _
          rw [hfront]
          rfl
        have hnonzero : first ≠ 0 := hfirst (by omega)
        exact ⟨first, _, hvalue, fun hzero => absurd hzero hnonzero, fun _ => hnonzero⟩

theorem unsigned?_toDigits (negative : Bool) (n : Nat) :
    NumberLiteral.unsigned? negative (Nat.toDigits 10 n) =
      some ⟨negative, digitValues n, [], false, none⟩ := by
  rcases digitValues_cons n with ⟨first, rest, hvalues, hzero, -⟩
  unfold NumberLiteral.unsigned?
  rw [digitsOf_toDigits, hvalues]
  cases first with
  | zero =>
      rw [hzero rfl]
      rfl
  | succ first => rfl

/-- The characters of an integer: its sign, and the digits of its magnitude. -/
def integerChars (i : Int) : List Char :=
  (if i < 0 then ['-'] else []) ++ Nat.toDigits 10 i.natAbs

theorem toList_toString (i : Int) : (toString i).toList = integerChars i := by
  cases i with
  | ofNat n =>
      have hpositive : ¬ Int.ofNat n < 0 := Int.not_lt.2 (Int.natCast_nonneg n)
      rw [integerChars, if_neg hpositive]
      exact String.toList_ofList
  | negSucc n =>
      rw [integerChars, if_pos (Int.negSucc_lt_zero n)]
      show ("-" ++ String.ofList (Nat.toDigits 10 (n + 1))).toList = _
      rw [String.toList_append]
      exact congrArg (['-'] ++ ·) String.toList_ofList

theorem digit_of_mem {n : Nat} {c : Char} (h : c ∈ Nat.toDigits 10 n) : c.isDigit :=
  Nat.isDigit_of_mem_toDigits (by decide) (by decide) h

theorem ofChars?_integerChars (i : Int) :
    NumberLiteral.ofChars? (integerChars i) = some (Number.literal i) := by
  by_cases hnegative : i < 0
  · rw [integerChars, if_pos hnegative, Number.literal, decide_eq_true hnegative]
    exact unsigned?_toDigits true i.natAbs
  · rw [integerChars, if_neg hnegative, Number.literal, decide_eq_false hnegative,
      List.nil_append, ← unsigned?_toDigits]
    cases hdigits : Nat.toDigits 10 i.natAbs with
    | nil => rfl
    | cons c cs =>
        have hdigit : c.isDigit := digit_of_mem (hdigits ▸ List.mem_cons_self)
        have hsign : c ≠ '-' := by
          rintro rfl
          exact absurd hdigit (by decide)
        unfold NumberLiteral.ofChars?
        split
        · next heq => exact absurd (List.cons.inj heq).1 hsign
        · rfl

/-- Digits are collected as long as their value fits. -/
theorem whole_digits (digits : List Nat) (value : Nat)
    (h : digits.foldl (fun n d => n * 10 + d) value ≤ digitLimit) :
    (Significand.mk value 0).whole digits =
      ⟨digits.foldl (fun n d => n * 10 + d) value, 0⟩ := by
  have hgrows : ∀ (digits : List Nat) (value : Nat),
      value ≤ digits.foldl (fun n d => n * 10 + d) value := by
    intro digits
    induction digits with
    | nil => exact fun value => Nat.le_refl value
    | cons d ds ih =>
        intro value
        have := ih (value * 10 + d)
        rw [List.foldl_cons]
        omega
  induction digits generalizing value with
  | nil => rfl
  | cons d ds ih =>
      have hfits : value * 10 + d ≤ digitLimit := Nat.le_trans (hgrows ds _) h
      rw [Significand.whole, if_pos hfits, ih _ h]
      rfl

theorem value_digitValues (n : Nat) :
    (digitValues n).foldl (fun n d => n * 10 + d) 0 = n := by
  have hdigits : ∀ (cs : List Char) (value : Nat),
      (cs.map fun c => c.toNat - '0'.toNat).foldl (fun n d => n * 10 + d) value =
        Nat.ofDigitChars 10 cs value := by
    intro cs
    induction cs with
    | nil => exact fun _ => rfl
    | cons c cs ih =>
        intro value
        rw [List.map_cons, List.foldl_cons, ih, Nat.ofDigitChars_cons, Nat.mul_comm]
  rw [digitValues, hdigits, Nat.ofDigitChars_toDigits (by decide) (by decide)]

/-- Whether an integer has 64 bits, signed below zero and unsigned from zero on. -/
def Number.Fits (i : Int) : Prop :=
  -(Nat.pow 2 63 : Int) ≤ i ∧ i < Nat.pow 2 64

/-- A printed integer has the value that it was printed from. -/
theorem Number.ofLiteral?_literal {i : Int} (h : Fits i) :
    Number.ofLiteral? (literal i) = some (.int i) := by
  have hlow : -9223372036854775808 ≤ i := h.1
  have hhigh : i < 18446744073709551616 := h.2
  have hbound : i.natAbs ≤ 18446744073709551615 := by omega
  have hwhole : (Significand.mk 0 0).whole (literal i).whole = ⟨i.natAbs, 0⟩ := by
    have hvalue := value_digitValues i.natAbs
    have hdigits := whole_digits (digitValues i.natAbs) 0 (hvalue.symm ▸ hbound)
    rwa [hvalue] at hdigits
  unfold Number.ofLiteral?
  rw [hwhole]
  by_cases hnegative : i < 0
  · have hzero : i.natAbs ≠ 0 := by omega
    have hsmall : ¬ 9223372036854775808 < i.natAbs := by omega
    have hback : -(i.natAbs : Int) = i := by omega
    simp only [literal, hnegative, hzero, hsmall, hback, decide_true, Nat.pow_eq, false_or,
      Nat.reducePow, if_true, if_false]
    rfl
  · have hback : (i.natAbs : Int) = i := by omega
    simp only [literal, hnegative, hback, decide_false]
    rfl

/-! ## Punctuation and words -/

theorem lex?_punctuation {c : Char} {lexeme : Lexeme} (hquote : isBlank c = false ∧ c ≠ '"')
    (h : punctuation? c = some lexeme) (rest : List Char) :
    lex? .between (c :: rest) = (lex? .between rest).map (lexeme :: ·) := by
  rw [lex?]
  simp only [hquote.1, hquote.2, h, if_false, Bool.false_eq_true]

/-- A character of a number or a word. -/
def IsWordChar (c : Char) : Prop :=
  isBlank c = false ∧ c ≠ '"' ∧ punctuation? c = none

instance : DecidablePred IsWordChar := fun c =>
  inferInstanceAs (Decidable (isBlank c = false ∧ c ≠ '"' ∧ punctuation? c = none))

/-- Nothing but characters of numbers and words. -/
def IsWord (word : List Char) : Prop :=
  ∀ c ∈ word, IsWordChar c

instance : DecidablePred IsWord :=
  fun word => List.decidableBAll IsWordChar word

/-- A text that begins behind the end of a word: with punctuation, or not at all. -/
inductive Breaks : List Char → Prop
  | nil : Breaks []
  | cons {c : Char} (rest : List Char) (h : c ∈ [']', '\x7d', ',', ':']) : Breaks (c :: rest)

theorem lex?_breaks {rest : List Char} (h : Breaks rest) (body : List Char) :
    lex? (.inWord body) rest =
      (wordLexeme? body.reverse).bind fun word => (lex? .between rest).map (word :: ·) := by
  cases h with
  | nil =>
      rw [lex?, lex?]
      cases wordLexeme? body.reverse <;> rfl
  | @cons c rest h =>
      have hpunctuation : isBlank c = false ∧ c ≠ '"' ∧ ∃ p, punctuation? c = some p := by
        simp only [List.mem_cons, List.not_mem_nil, or_false] at h
        rcases h with rfl | rfl | rfl | rfl
        all_goals exact ⟨by decide, by decide, _, rfl⟩
      rcases hpunctuation with ⟨hblank, hquote, p, hp⟩
      rw [lex?, lex?]
      simp only [hblank, hquote, hp, if_false, Bool.false_eq_true]
      cases wordLexeme? body.reverse with
      | none => rfl
      | some word => cases lex? .between rest <;> rfl

theorem lex?_inWord {word : List Char} (h : IsWord word) (body rest : List Char) :
    lex? (.inWord body) (word ++ rest) = lex? (.inWord (word.reverse ++ body)) rest := by
  induction word generalizing body with
  | nil => rfl
  | cons c word ih =>
      rcases h c List.mem_cons_self with ⟨hblank, hquote, hpunctuation⟩
      have hrest := ih (fun d hd => h d (List.mem_cons_of_mem _ hd)) (c :: body)
      rw [List.cons_append, lex?]
      simp only [hblank, hquote, hpunctuation, if_false, Bool.false_eq_true]
      rw [hrest, List.reverse_cons, List.append_assoc, List.singleton_append]

/-- A word ends in front of the next punctuation character. -/
theorem lex?_word {word rest : List Char} {lexeme : Lexeme} (hword : wordLexeme? word = some lexeme)
    (h : IsWord word) (hrest : Breaks rest) :
    lex? .between (word ++ rest) = (lex? .between rest).map (lexeme :: ·) := by
  cases word with
  | nil => cases hword
  | cons c word =>
      rcases h c List.mem_cons_self with ⟨hblank, hquote, hpunctuation⟩
      rw [List.cons_append, lex?]
      simp only [hblank, hquote, hpunctuation, if_false, Bool.false_eq_true]
      rw [lex?_inWord (fun d hd => h d (List.mem_cons_of_mem _ hd)), lex?_breaks hrest,
        List.reverse_append, List.reverse_reverse]
      show (wordLexeme? (c :: word)).bind _ = _
      rw [hword]
      rfl

theorem isWordChar_of_integerChars {i : Int} {c : Char} (h : c ∈ integerChars i) :
    (c = '-' ∨ c.isDigit) ∧ IsWordChar c := by
  have hsign : c = '-' ∨ c.isDigit := by
    rcases List.mem_append.1 h with hminus | hdigit
    · split at hminus
      · exact .inl (List.mem_singleton.1 hminus)
      · cases hminus
    · exact .inr (digit_of_mem hdigit)
  refine ⟨hsign, ?_⟩
  rcases hsign with rfl | hdigit
  · exact ⟨by decide, by decide, by decide⟩
  · have hother : ∀ d : Char, d.isDigit = false → c ≠ d := by
      rintro d hd rfl
      rw [hd] at hdigit
      cases hdigit
    simp [IsWordChar, isBlank, punctuation?, hother]

theorem wordLexeme?_integerChars (i : Int) :
    wordLexeme? (integerChars i) = some (.num (Number.literal i)) := by
  have hother : ∀ {word : List Char} {c : Char}, c ∈ word → c ≠ '-' → c.isDigit = false →
      integerChars i ≠ word := by
    rintro _ c hmem hsign hdigit rfl
    rcases (isWordChar_of_integerChars hmem).1 with heq | hyes
    · exact hsign heq
    · rw [hdigit] at hyes
      cases hyes
  have hnull : integerChars i ≠ "null".toList := @hother _ 'n' (by decide) (by decide) (by decide)
  have htrue : integerChars i ≠ "true".toList := @hother _ 't' (by decide) (by decide) (by decide)
  have hfalse : integerChars i ≠ "false".toList :=
    @hother _ 'f' (by decide) (by decide) (by decide)
  rw [wordLexeme?, if_neg hnull, if_neg htrue, if_neg hfalse, ofChars?_integerChars]
  rfl

/-- A printed integer is cut out of a text as a whole. -/
theorem lex?_int (i : Int) {rest : List Char} (hrest : Breaks rest) :
    lex? .between ((Number.int i).text.toList ++ rest) =
      (lex? .between rest).map (.num (Number.literal i) :: ·) := by
  have htext : (Number.int i).text.toList = integerChars i := toList_toString i
  rw [htext]
  exact lex?_word (wordLexeme?_integerChars i) (fun _ hc => (isWordChar_of_integerChars hc).2)
    hrest

end FieldQuery.Json
