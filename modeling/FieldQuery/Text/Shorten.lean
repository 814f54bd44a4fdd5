/-!
# Shortened text

A text cut to a number of UTF-8 bytes, and never inside a character.  A byte tells by itself whether
a character begins with it, so the cut walks back from the limit until it meets one that does.

Main definitions:

- `isBoundary`: whether a character begins at a byte, or the text ends there.
- `lastBoundary`: where the walk back from a byte ends.
- `truncate`, `shorten`: the cut text, without dots and with them.

Main statement: `isBoundary_iff_isValid`, what the bytes tell is true.
-/

namespace FieldQuery.Text

/-- Whether a byte goes on with a character that an earlier one begins. -/
def isContinuation (byte : UInt8) : Bool :=
  0x80 ≤ byte && byte < 0xC0

/-- Whether a character begins at a byte, or the text ends there. -/
def isBoundary (text : String) (position : Nat) : Bool :=
  if h : position < text.utf8ByteSize then !isContinuation (text.getUTF8Byte ⟨position⟩ h)
  else position == text.utf8ByteSize

/-! ## The bytes of a character -/

theorem isContinuation_ofNat {n : Nat} (h : n < 256) :
    isContinuation (UInt8.ofNat n) = decide (128 ≤ n ∧ n < 192) := by
  have hn : (UInt8.ofNat n).toNat = n := UInt8.toNat_ofNat_of_lt' h
  simp [isContinuation, UInt8.le_iff_toNat_le, UInt8.lt_iff_toNat_lt, hn]

theorem isContinuation_later (n : Nat) : isContinuation (UInt8.ofNat (n % 64 + 128)) = true := by
  rw [isContinuation_ofNat (by omega)]
  exact decide_eq_true (by omega)

theorem isContinuation_first {n : Nat} (h : n < 128 ∨ 192 ≤ n) (hn : n < 256) :
    isContinuation (UInt8.ofNat n) = false := by
  rw [isContinuation_ofNat hn]
  exact decide_eq_false (by omega)

/-- A character begins with its first byte and goes on with all the others. -/
theorem map_isContinuation_encode (c : Char) :
    (String.utf8EncodeChar c).map isContinuation =
      false :: List.replicate (c.utf8Size - 1) true := by
  have hcode : c.val.toNat < 0x110000 := by
    rcases c.valid with h | ⟨-, h⟩ <;> omega
  rw [← String.length_utf8EncodeChar]
  fun_cases String.utf8EncodeChar c with
  | case1 v _ =>
      have hfirst := @isContinuation_first v (by omega) (by omega)
      simp [hfirst]
  | case2 v _ _ =>
      have hfirst := @isContinuation_first (v / 64 % 32 + 0xc0) (by omega) (by omega)
      simp only [List.map_cons, List.map_nil, hfirst, isContinuation_later]
      rfl
  | case3 v _ _ _ =>
      have hfirst := @isContinuation_first (v / 4096 % 16 + 0xe0) (by omega) (by omega)
      simp only [List.map_cons, List.map_nil, hfirst, isContinuation_later]
      rfl
  | case4 v _ _ _ =>
      have hfirst := @isContinuation_first (v / 262144 % 8 + 0xf0) (by omega) (by omega)
      simp only [List.map_cons, List.map_nil, hfirst, isContinuation_later]
      rfl

theorem isContinuation_getElem_encode {c : Char} {i : Nat}
    (h : i < (String.utf8EncodeChar c).length) :
    isContinuation (String.utf8EncodeChar c)[i] = decide (0 < i) := by
  have hget : ((String.utf8EncodeChar c).map isContinuation)[i]? =
      some (isContinuation (String.utf8EncodeChar c)[i]) := by
    rw [List.getElem?_map, List.getElem?_eq_getElem h, Option.map_some]
  rw [String.length_utf8EncodeChar] at h
  rw [map_isContinuation_encode] at hget
  cases i with
  | zero => simpa using hget.symm
  | succ i =>
      have hi : i < c.utf8Size - 1 := by omega
      simpa [hi] using hget.symm

/-! ## Boundaries -/

/-- A character at the end of a text adds the place behind it. -/
theorem isBoundary_push {text : String} {c : Char} {position : Nat} :
    isBoundary (text.push c) position ↔
      isBoundary text position ∨ position = text.utf8ByteSize + c.utf8Size := by
  have hsize := c.utf8Size_pos
  -- the position is in the text, in the new character, or behind both
  simp only [isBoundary, String.utf8ByteSize_push, String.getUTF8Byte, String.toByteArray_push]
  by_cases hin : position < text.utf8ByteSize
  · have hlt : position < text.utf8ByteSize + c.utf8Size := by omega
    have hne : position ≠ text.utf8ByteSize + c.utf8Size := by omega
    simp [hin, hlt, hne, ByteArray.getElem_append_left]
  · by_cases hlt : position < text.utf8ByteSize + c.utf8Size
    · have hne : position ≠ text.utf8ByteSize + c.utf8Size := by omega
      rw [dif_pos hlt, dif_neg hin, ByteArray.getElem_append_right (by simpa using hin)]
      simp only [List.utf8Encode_singleton, List.getElem_toByteArray,
        isContinuation_getElem_encode]
      simp [hne]
      omega
    · have hne : position ≠ text.utf8ByteSize := by omega
      simp [hin, hlt, hne]

/-- The bytes tell where characters begin: a text can be cut exactly there. -/
theorem isBoundary_iff_isValid {text : String} {position : Nat} :
    isBoundary text position ↔ (⟨position⟩ : String.Pos.Raw).IsValid text := by
  induction text using String.push_induction with
  | empty =>
      simp [isBoundary]
  | push text c ih =>
      rw [isBoundary_push, ih, String.Pos.Raw.isValid_push]
      simp [String.Pos.Raw.ext_iff]

/-! ## Cutting -/

/-- The last boundary at or in front of a byte, found by going back from there. -/
def lastBoundary (text : String) : Nat → text.Pos
  | 0 => text.startPos
  | n + 1 =>
    if h : isBoundary text (n + 1) then ⟨⟨n + 1⟩, isBoundary_iff_isValid.1 h⟩
    else lastBoundary text n

/-- The text itself when it takes at most `limit` bytes, else the part of it in front of the last
boundary within the limit. -/
def truncate (limit : Nat) (text : String) : String :=
  if text.utf8ByteSize ≤ limit then text else (text.sliceTo (lastBoundary text limit)).copy

/-- The text itself when it takes at most `limit` bytes, else what is kept of it, followed by three
dots. -/
def shorten (limit : Nat) (text : String) : String :=
  if limit < text.utf8ByteSize then truncate limit text ++ "..." else text

end FieldQuery.Text
