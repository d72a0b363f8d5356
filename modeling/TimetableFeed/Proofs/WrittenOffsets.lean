import TimetableFeed.Proofs.WrittenTime

/-!
# Offsets in whole minutes

Deliveries are written out with offsets in whole minutes, so what an offset has beyond them is lost,
and with it the instant. Just below a day the seconds are rounded up to the day, and the time that
was written cannot even be read. An offset in whole minutes, and no other, brings the instant back.

Main definitions: `Offset.IsWholeMinutes`, `Offset.shownMicros`. Main statements:
`Timestamp.read_writeMinutes_eq`, `Timestamp.read_writeMinutes`.
-/

namespace TimetableFeed

open TimetableFeed.Text (asciiByte)
open TimetableFeed.Utf8 (encodeChars encodeChars_cons_ascii)

/-! ## What is shown -/

namespace Offset

/-- The offset is a number of whole minutes. -/
def IsWholeMinutes (o : Offset) : Prop := 60000000 ∣ o.micros

/-- The whole minutes of the magnitude, after it has been rounded to seconds. -/
def shownMinutes (o : Offset) : Nat := (o.micros.natAbs + 500000) / 1000000 / 60

/-- The microseconds that the written offset stands for. -/
def shownMicros (o : Offset) : Int :=
  if o.micros < 0 then -(60000000 * o.shownMinutes : Nat) else (60000000 * o.shownMinutes : Nat)

theorem shownMinutes_le (o : Offset) : o.shownMinutes ≤ 1440 := by
  have htotal := Iso.offset_lt o
  unfold shownMinutes
  omega

/-- What is shown and what is meant are less than a minute apart. -/
theorem shownMicros_near (o : Offset) : (o.micros - o.shownMicros).natAbs < 59500000 := by
  unfold shownMicros shownMinutes
  by_cases hnegative : o.micros < 0
  · rw [if_pos hnegative]
    omega
  · rw [if_neg hnegative]
    omega

theorem shownMicros_eq_iff (o : Offset) : o.shownMicros = o.micros ↔ o.IsWholeMinutes := by
  unfold shownMicros shownMinutes IsWholeMinutes
  by_cases hnegative : o.micros < 0
  · rw [if_pos hnegative]
    omega
  · rw [if_neg hnegative]
    omega

/-- Half a second before a whole day, and from there on, a whole day is shown. -/
theorem shownMicros_fits_iff (o : Offset) :
    (-dayMicros < o.shownMicros ∧ o.shownMicros < dayMicros) ↔
      o.micros.natAbs < 86399500000 := by
  unfold shownMicros shownMinutes dayMicros
  by_cases hnegative : o.micros < 0
  · rw [if_pos hnegative]
    omega
  · rw [if_neg hnegative]
    omega

end Offset

namespace Iso

/-- Hours and minutes make up the number of minutes. -/
theorem offsetMicros_minutes (negative : Bool) (minutes : Nat) :
    offsetMicros negative ⟨minutes / 60, minutes % 60, 0, 0, false⟩ =
      (if negative then -(60000000 * minutes : Nat) else (60000000 * minutes : Nat) : Int) := by
  have htotal : (⟨minutes / 60, minutes % 60, 0, 0, false⟩ : Clock).total = 60000000 * minutes := by
    unfold Clock.total
    dsimp only
    omega
  unfold offsetMicros
  rw [htotal]
  cases negative with
  | false =>
      rw [if_neg Bool.false_ne_true]
      split <;> omega
  | true =>
      rw [if_pos rfl]
      split <;> omega

/-- The offset in whole minutes is read as what it says. -/
theorem offset_encode_minutes (o : Offset) :
    ∃ mark tail, encodeChars o.minuteChars = mark :: tail ∧ opensOffset mark = true ∧
      offset? (mark :: tail) = some o.shownMicros := by
  have hmost := o.shownMinutes_le
  unfold Offset.minuteChars
  dsimp only
  by_cases hnone : (o.micros.natAbs + 500000) / 1000000 = 0
  · refine ⟨asciiByte 'Z', [], ?_, rfl, ?_⟩
    · rw [if_pos hnone]
      exact encodeChars_cons_ascii (by decide) []
    · have hzero : o.shownMicros = 0 := by
        unfold Offset.shownMicros Offset.shownMinutes
        rw [hnone]
        split <;> rfl
      rw [hzero]
      rfl
  · have hminutes : (o.micros.natAbs + 500000) / 1000000 / 60 = o.shownMinutes := rfl
    rw [if_neg hnone, hminutes]
    have hclock := clock_clockBytes (show o.shownMinutes / 60 < 100 by omega)
      (show o.shownMinutes % 60 < 100 by omega)
      (show ∀ s ∈ (none : Option (Nat × Nat)), s.1 < 100 ∧ s.2 < 1000000 by nofun)
    refine ⟨signByte (decide (o.micros < 0)),
      clockBytes (o.shownMinutes / 60) (o.shownMinutes % 60) none, ?_, opensOffset_signByte _, ?_⟩
    · rw [List.cons_append, encode_sign, encode_two_mark (by omega) (by decide),
        encode_two (by omega), clockBytes, Option.elim_none, List.append_nil]
    · rw [offset_signed hclock rfl, Option.getD_none, offsetMicros_minutes]
      unfold Offset.shownMicros
      simp only [decide_eq_true_eq]

end Iso

namespace Timestamp

theorem plain_minuteChars (o : Offset) :
    ∀ c ∈ o.minuteChars, Text.isBlankChar c = false ∧ c ≠ '[' := by
  have hdigits : ∀ width n, ∀ c ∈ paddedChars width n, Text.isBlankChar c = false ∧ c ≠ '[' :=
    fun width n c hc => plain_of_isWritten (isWritten_paddedChars width n c hc)
  have hsign : IsWritten (if o.micros < 0 then '-' else '+') := by split <;> decide
  have hcolon : IsWritten ':' := by decide
  unfold Offset.minuteChars
  dsimp only
  by_cases hnone : (o.micros.natAbs + 500000) / 1000000 = 0
  · rw [if_pos hnone, List.forall_mem_singleton]
    decide
  · rw [if_neg hnone, List.cons_append]
    refine List.forall_mem_cons.mpr ⟨plain_of_isWritten hsign, ?_⟩
    refine List.forall_mem_append.mpr ⟨hdigits _ _, ?_⟩
    exact List.forall_mem_cons.mpr ⟨plain_of_isWritten hcolon, hdigits _ _⟩

/-- **What a written time is read as**: the local time and the offset as it is shown, or an error if
that is a whole day. -/
theorem read_writeMinutes_eq (t : Timestamp) :
    read? t.writeMinutes =
      match Offset.of? t.offset.shownMicros with
      | some offset => .ok ⟨t.wall, offset⟩
      | none => .error (.offset t.offset.shownMicros) := by
  have hplain : ∀ c ∈ t.wall.date.chars ++ 'T' :: t.wall.time.chars ++ t.offset.minuteChars,
      Text.isBlankChar c = false ∧ c ≠ '[' := by
    simp only [List.append_assoc, List.cons_append, List.forall_mem_append, List.forall_mem_cons]
    exact ⟨fun c hc => plain_of_isWritten (isWritten_date _ c hc), by decide,
      fun c hc => plain_of_isWritten (isWritten_clock _ c hc), plain_minuteChars _⟩
  obtain ⟨mark, tail, hencode, hmark, hoffset⟩ := Iso.offset_encode_minutes t.offset
  have hnumbers := Iso.numbersOf_local t.wall (show 'T'.toNat < 128 by decide) hencode hmark hoffset
  unfold writeMinutes
  by_cases hfits : -dayMicros < t.offset.shownMicros ∧ t.offset.shownMicros < dayMicros
  · have hread := read_numbers (t := ⟨t.wall, ⟨t.offset.shownMicros, hfits.1, hfits.2⟩⟩)
      (isBare_of_plain hplain) hnumbers
    rw [hread, Offset.of?, dif_pos hfits]
  · rw [read_checked (isBare_of_plain hplain) hnumbers, Offset.of?, dif_neg hfits]
    unfold Iso.Numbers.check Offset.of?
    dsimp only
    rw [dif_neg hfits]
    rfl

/-- What is read has the offset as it was shown. -/
theorem read_writeMinutes_ok_iff {t u : Timestamp} :
    read? t.writeMinutes = .ok u ↔
      u.wall = t.wall ∧ u.offset.micros = t.offset.shownMicros := by
  rw [read_writeMinutes_eq, Offset.of?]
  by_cases hfits : -dayMicros < t.offset.shownMicros ∧ t.offset.shownMicros < dayMicros
  · rw [dif_pos hfits]
    constructor
    · intro h
      cases h
      exact ⟨rfl, rfl⟩
    · obtain ⟨wall, micros, hlower, hupper⟩ := u
      rintro ⟨hwall, hmicros⟩
      cases hwall
      cases hmicros
      rfl
  · rw [dif_neg hfits]
    refine iff_of_false nofun ?_
    rintro ⟨-, hmicros⟩
    rw [← hmicros] at hfits
    exact hfits ⟨u.offset.lower, u.offset.upper⟩

/-- A time is read back, as some time, if its offset stays half a second away from a day. -/
theorem read_writeMinutes_iff (t : Timestamp) :
    (∃ u, read? t.writeMinutes = .ok u) ↔ t.offset.micros.natAbs < 86399500000 := by
  rw [← Offset.shownMicros_fits_iff]
  constructor
  · rintro ⟨u, hread⟩
    obtain ⟨-, hmicros⟩ := read_writeMinutes_ok_iff.mp hread
    rw [← hmicros]
    exact ⟨u.offset.lower, u.offset.upper⟩
  · rintro ⟨hlower, hupper⟩
    exact ⟨⟨t.wall, ⟨_, hlower, hupper⟩⟩, read_writeMinutes_ok_iff.mpr ⟨rfl, rfl⟩⟩

/-- How far the instant that is read is from the one that was written, by their offsets. -/
theorem instant_of_read_writeMinutes {t u : Timestamp} (h : read? t.writeMinutes = .ok u) :
    u.instant - t.instant = t.offset.micros - t.offset.shownMicros := by
  obtain ⟨hwall, hoffset⟩ := read_writeMinutes_ok_iff.mp h
  rw [instant, instant, hwall, hoffset]
  omega

/-- **A timestamp is read back** from the form that deliveries are written out in, if its offset is
in whole minutes. -/
theorem read_writeMinutes {t : Timestamp} (h : t.offset.IsWholeMinutes) :
    read? t.writeMinutes = .ok t :=
  read_writeMinutes_ok_iff.mpr ⟨rfl, (t.offset.shownMicros_eq_iff.mpr h).symm⟩

/-- The instant is read back if and only if the offset is in whole minutes. -/
theorem writeMinutes_keeps_iff (t : Timestamp) :
    (∃ u, read? t.writeMinutes = .ok u ∧ u.instant = t.instant) ↔ t.offset.IsWholeMinutes := by
  constructor
  · rintro ⟨u, hread, hsame⟩
    have hoffsets := instant_of_read_writeMinutes hread
    refine t.offset.shownMicros_eq_iff.mp ?_
    omega
  · intro hminutes
    exact ⟨t, read_writeMinutes hminutes, rfl⟩

end Timestamp

end TimetableFeed
