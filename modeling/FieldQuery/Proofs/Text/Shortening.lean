import FieldQuery.Event

/-!
# How far statements are shown

A logger with a limit shows a statement that is too long up to the last place within the limit where
a character ends.  The place is found by walking back over bytes, which may stand in the middle of a
character; since a character takes four bytes at most, three steps back always suffice.

Main definitions:

- `Text.WalksBack`: a finished walk back over the bytes of a text, with its number of steps.
- `Text.Truncates`: what is kept of a text that takes more bytes than it may.

Main statements: `Text.WalksBack.steps_le`, `Text.truncates` and
`SqlLogger.event_whole_or_truncated`.
-/

namespace FieldQuery.Text

variable {text front rest : String} {position start steps stop limit : Nat}

/-! ## Boundaries as cuts -/

/-- A boundary is where a text falls apart into two texts. -/
theorem isBoundary_iff_exists_append :
    isBoundary text position ↔
      ∃ front rest, text = front ++ rest ∧ front.utf8ByteSize = position := by
  rw [isBoundary_iff_isValid, String.Pos.Raw.isValid_iff_exists_append]
  simp only [String.Pos.Raw.ext_iff, String.byteIdx_rawEndPos, eq_comm (a := position)]

theorem isBoundary_zero (text : String) : isBoundary text 0 :=
  isBoundary_iff_exists_append.2 ⟨"", text, by simp⟩

theorem isBoundary_offset (cut : text.Pos) : isBoundary text cut.offset.byteIdx :=
  isBoundary_iff_isValid.2 cut.isValid

/-- The text in front of a boundary begins with the text in front of any earlier one. -/
theorem exists_eq_append_of_le {cut : text.Pos} (h : text = front ++ rest)
    (hle : front.utf8ByteSize ≤ cut.offset.byteIdx) :
    ∃ more, (text.sliceTo cut).copy = front ++ more := by
  have hsplits := String.Pos.splits_ofEqAppend h
  have hearlier : String.Pos.ofEqAppend h ≤ cut := by
    rw [String.Pos.le_iff, hsplits.offset_eq_rawEndPos]
    exact hle
  rcases (hsplits.le_iff_exists_eq_append cut.splits).1 hearlier with ⟨more, hmore, -⟩
  exact ⟨more, hmore⟩

/-- Behind a boundary stands a character of at most four bytes, unless the text ends there. -/
theorem exists_next_isBoundary (h : isBoundary text position) (hlt : position < text.utf8ByteSize) :
    ∃ next, isBoundary text next ∧ position < next ∧ next ≤ position + 4 := by
  let cut : text.Pos := ⟨⟨position⟩, isBoundary_iff_isValid.1 h⟩
  have hend : cut ≠ text.endPos := by
    intro heq
    have hoffset : position = text.utf8ByteSize := congrArg (·.offset.byteIdx) heq
    omega
  have hnext : (cut.next hend).offset.byteIdx = position + (cut.get hend).utf8Size :=
    String.Pos.byteIdx_offset_next cut hend
  have hpos := (cut.get hend).utf8Size_pos
  have hfour := (cut.get hend).utf8Size_le_four
  exact ⟨_, isBoundary_offset (cut.next hend), by omega, by omega⟩

/-! ## Walking back -/

/-- A walk back that ends: while its position is not the start of the text and no boundary, it goes
on with the position in front. -/
inductive WalksBack (text : String) : Nat → Nat → Nat → Prop
  | arrive {position : Nat} (h : position = 0 ∨ isBoundary text position) :
      WalksBack text position 0 position
  | back {position steps stop : Nat} (hinside : ¬isBoundary text (position + 1))
      (hwalk : WalksBack text position steps stop) :
      WalksBack text (position + 1) (steps + 1) stop

theorem walksBack_lastBoundary (text : String) (start : Nat) :
    ∃ steps, WalksBack text start steps (lastBoundary text start).offset.byteIdx := by
  induction start with
  | zero => exact ⟨0, .arrive (.inl rfl)⟩
  | succ start ih =>
      by_cases h : isBoundary text (start + 1)
      · rw [lastBoundary, dif_pos h]
        exact ⟨0, .arrive (.inr h)⟩
      · rw [lastBoundary, dif_neg h]
        rcases ih with ⟨steps, hwalk⟩
        exact ⟨steps + 1, .back h hwalk⟩

namespace WalksBack

theorem start_eq (h : WalksBack text start steps stop) : start = stop + steps := by
  induction h with
  | arrive h => rfl
  | back hinside hwalk ih => omega

theorem isBoundary_stop (h : WalksBack text start steps stop) : isBoundary text stop := by
  induction h with
  | arrive h =>
      rcases h with rfl | h
      · exact isBoundary_zero text
      · exact h
  | back hinside hwalk ih => exact ih

/-- No step passes a boundary, so the walk ends at the last one that it can reach. -/
theorem le_stop (h : WalksBack text start steps stop) (hposition : isBoundary text position)
    (hle : position ≤ start) : position ≤ stop := by
  induction h with
  | arrive h => exact hle
  | back hinside hwalk ih =>
      refine ih (Nat.le_of_lt_succ (Nat.lt_of_le_of_ne hle ?_))
      rintro rfl
      exact hinside hposition

/-- Inside a text a walk has three steps at most: with a fourth it would have passed the end of a
character. -/
theorem steps_le (h : WalksBack text start steps stop) (hstart : start ≤ text.utf8ByteSize) :
    steps ≤ 3 := by
  have hlength := h.start_eq
  by_cases hmany : steps ≤ 3
  · exact hmany
  · rcases exists_next_isBoundary h.isBoundary_stop (by omega) with ⟨next, hnext, hlt, hle⟩
    have hpassed := h.le_stop hnext (by omega)
    omega

end WalksBack

/-! ## Truncated texts -/

/-- What is kept of a text within a limit: the longest front of whole characters that takes no more
bytes.  It ends where the walk back from the limit does, at most three bytes below. -/
structure Truncates (text : String) (limit : Nat) (kept : String) : Prop where
  /-- The cut is between two characters: on both sides of it stands a text. -/
  whole : ∃ rest, text = kept ++ rest
  fits : kept.utf8ByteSize ≤ limit
  longest : ∀ front rest, text = front ++ rest → front.utf8ByteSize ≤ limit →
    ∃ more, kept = front ++ more
  walk : ∃ steps ≤ 3, WalksBack text limit steps kept.utf8ByteSize
  near : limit ≤ kept.utf8ByteSize + 3

theorem truncates (h : limit < text.utf8ByteSize) : Truncates text limit (truncate limit text) := by
  rcases walksBack_lastBoundary text limit with ⟨steps, hwalk⟩
  have hsteps := hwalk.steps_le (Nat.le_of_lt h)
  have hlength := hwalk.start_eq
  have hsplits := (lastBoundary text limit).splits
  have hkept : truncate limit text = (text.sliceTo (lastBoundary text limit)).copy :=
    if_neg (Nat.not_le_of_lt h)
  -- counted in bytes, what is kept ends where the walk does
  have hsize : (truncate limit text).utf8ByteSize = (lastBoundary text limit).offset.byteIdx := by
    rw [hkept, hsplits.offset_eq_rawEndPos, String.byteIdx_rawEndPos]
  exact {
    whole := ⟨_, hkept ▸ hsplits.eq_append⟩
    fits := by omega
    longest := by
      intro front rest hfront hfits
      have hcut := isBoundary_iff_exists_append.2 ⟨front, rest, hfront, rfl⟩
      rw [hkept]
      exact exists_eq_append_of_le hfront (hwalk.le_stop hcut hfits)
    walk := ⟨steps, hsteps, hsize ▸ hwalk⟩
    near := by omega }

example : truncate 2 "aé" = "a" := by decide

theorem shorten_of_le (h : text.utf8ByteSize ≤ limit) : shorten limit text = text :=
  if_neg (Nat.not_lt_of_le h)

theorem shorten_of_lt (h : limit < text.utf8ByteSize) :
    shorten limit text = truncate limit text ++ "..." :=
  if_pos h

end FieldQuery.Text

namespace FieldQuery.SqlLogger

open Text

/-- A statement is reported as it is when it fits, and otherwise with dots behind the longest front
of whole characters that does; the walk from the limit to the cut ends after three steps at most. -/
theorem event_whole_or_truncated (logger : SqlLogger) (kind sql : String) (arguments : Nat) :
    ((∀ limit ∈ logger.maxBytes, sql.utf8ByteSize ≤ limit) →
        logger.event kind sql arguments = .sql logger.level kind arguments sql) ∧
      ∀ limit ∈ logger.maxBytes, limit < sql.utf8ByteSize →
        ∃ kept, logger.event kind sql arguments =
            .sql logger.level kind arguments (kept ++ "...") ∧
          Truncates sql limit kept := by
  cases hmax : logger.maxBytes with
  | none =>
      refine ⟨fun _ => ?_, fun limit hlimit => by cases hlimit⟩
      simp [event, shorten, hmax]
  | some bound =>
      have hevent : logger.event kind sql arguments =
          .sql logger.level kind arguments (Text.shorten bound sql) := by
        simp [event, SqlLogger.shorten, hmax]
      rw [hevent]
      constructor
      · intro hfits
        rw [shorten_of_le (hfits bound rfl)]
      · intro limit hlimit hlong
        cases hlimit
        exact ⟨_, by rw [shorten_of_lt hlong], truncates hlong⟩

/-- A text of characters that take four bytes each loses three bytes below its limit, and one that
fits loses none. -/
theorem event_whole_or_truncated_wide :
    (∀ limit ∈ some 7, "𝄞".utf8ByteSize ≤ limit) ∧
      ({ maxBytes := some 7 } : SqlLogger).event "select" "𝄞" 0 = .sql .debug "select" 0 "𝄞" ∧
      7 < "𝄞𝄞".utf8ByteSize ∧
      ({ maxBytes := some 7 } : SqlLogger).event "select" "𝄞𝄞" 0 =
        .sql .debug "select" 0 "𝄞..." ∧
      Truncates "𝄞𝄞" 7 "𝄞" := by
  have hfits : ∀ limit ∈ some 7, "𝄞".utf8ByteSize ≤ limit := by decide
  have hlong : 7 < "𝄞𝄞".utf8ByteSize := by decide
  rcases event_whole_or_truncated { maxBytes := some 7 } "select" "𝄞" 0 with ⟨hwhole, -⟩
  rcases event_whole_or_truncated { maxBytes := some 7 } "select" "𝄞𝄞" 0 with ⟨-, hcut⟩
  rcases hcut 7 rfl hlong with ⟨kept, hevent, hkept⟩
  have hshown : ({ maxBytes := some 7 } : SqlLogger).event "select" "𝄞𝄞" 0 =
      .sql .debug "select" 0 ("𝄞" ++ "...") := by decide
  have heq : "𝄞" ++ "..." = kept ++ "..." := by
    simpa only [Event.sql.injEq, true_and] using hshown.symm.trans hevent
  rw [← (String.append_left_inj "...").1 heq] at hkept
  exact ⟨hfits, hwhole hfits, hlong, hshown, hkept⟩

end FieldQuery.SqlLogger
