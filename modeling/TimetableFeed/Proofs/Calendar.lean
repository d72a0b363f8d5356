import Mathlib.Algebra.Order.Ring.Nat
import TimetableFeed.Time.Timestamp

/-!
# The calendar by its numbers

The days of the years 1 to 9999 are numbered without a gap, and the day with a number is found again
from it: first the year, which an estimate by the mean length of a year misses by one at the most,
then the month, by taking one month after the other off the days of the year. So a clock on the wall
can be set back by any number of microseconds that does not lead out of the calendar.

Main definitions: `yearLength`, `lastOrdinal`. Main statements: `Date.exists_ofOrdinal`,
`LocalTime.exists_ofMicros`.
-/

namespace TimetableFeed

/-! ## Years -/

def yearLength (year : Nat) : Nat := if isLeapYear year then 366 else 365

theorem isLeapYear_iff (year : Nat) :
    isLeapYear year = true ↔ year % 4 = 0 ∧ (year % 100 ≠ 0 ∨ year % 400 = 0) := by
  simp [isLeapYear]

theorem daysBeforeYear_succ {year : Nat} (h : 1 ≤ year) :
    daysBeforeYear (year + 1) = daysBeforeYear year + yearLength year := by
  obtain ⟨k, rfl⟩ : ∃ k, year = k + 1 := ⟨year - 1, by omega⟩
  have hcenturies : k / 100 ≤ k / 4 := Nat.div_le_div_left (by decide) (by decide)
  have hleap := isLeapYear_iff (k + 1)
  unfold daysBeforeYear yearLength
  -- each of the three quotients grows exactly in the years that its divisor divides
  simp only [Nat.add_sub_cancel, Nat.succ_div, Nat.dvd_iff_mod_eq_zero]
  by_cases hfour : (k + 1) % 4 = 0
  · by_cases hhundred : (k + 1) % 100 = 0
    · by_cases hfull : (k + 1) % 400 = 0
      · rw [if_pos hfour, if_pos hhundred, if_pos hfull, if_pos (hleap.mpr ⟨hfour, .inr hfull⟩)]
        omega
      · have hplain : ¬ isLeapYear (k + 1) = true := by
          rw [hleap]
          rintro ⟨-, hnot | hfull'⟩
          · exact hnot hhundred
          · exact hfull hfull'
        rw [if_pos hfour, if_pos hhundred, if_neg hfull, if_neg hplain]
        omega
    · have hfull : (k + 1) % 400 ≠ 0 := by omega
      rw [if_pos hfour, if_neg hhundred, if_neg hfull, if_pos (hleap.mpr ⟨hfour, .inl hhundred⟩)]
      omega
  · have hhundred : (k + 1) % 100 ≠ 0 := by omega
    have hfull : (k + 1) % 400 ≠ 0 := by omega
    rw [if_neg hfour, if_neg hhundred, if_neg hfull, if_neg fun h => hfour (hleap.mp h).1]
    omega

/-- Four hundred years have 146097 days, and no stretch of years strays far from their mean. -/
theorem daysBeforeYear_mean (year : Nat) :
    146097 * (year - 1) ≤ 400 * daysBeforeYear year + 699 ∧
      400 * daysBeforeYear year ≤ 146097 * (year - 1) + 396 := by
  unfold daysBeforeYear
  omega

/-- The estimate of the year is right, or one off. -/
theorem yearOfOrdinal_spec {n : Nat} (h : 1 ≤ n) :
    1 ≤ yearOfOrdinal n ∧ daysBeforeYear (yearOfOrdinal n) < n ∧
      n ≤ daysBeforeYear (yearOfOrdinal n + 1) := by
  unfold yearOfOrdinal
  dsimp only
  generalize hguess : (n - 1) * 400 / 146097 = guess
  have hzero : daysBeforeYear 1 = 0 := rfl
  have hbefore := daysBeforeYear_mean guess
  have hafter := daysBeforeYear_mean (guess + 1 + 1 + 1)
  by_cases hearly : n ≤ daysBeforeYear (guess + 1)
  · have hpos : guess ≠ 0 := by
      rintro rfl
      rw [hzero] at hearly
      omega
    rw [if_pos hearly, Nat.add_sub_cancel]
    exact ⟨by omega, by omega, hearly⟩
  · rw [if_neg hearly]
    by_cases hlate : daysBeforeYear (guess + 1 + 1) < n
    · rw [if_pos hlate]
      exact ⟨by omega, hlate, by omega⟩
    · rw [if_neg hlate]
      exact ⟨by omega, by omega, by omega⟩

/-! ## Months -/

theorem daysBeforeMonth_succ (year : Nat) {month : Nat} (h : 1 ≤ month) :
    daysBeforeMonth year (month + 1) = daysBeforeMonth year month + monthLength year month := by
  cases month with
  | zero => cases h
  | succ month => rfl

theorem daysBeforeMonth_mono (year : Nat) {m n : Nat} (h : m ≤ n) :
    daysBeforeMonth year m ≤ daysBeforeMonth year n := by
  induction h with
  | refl => exact Nat.le_refl _
  | @step n _ ih =>
      apply Nat.le_trans ih
      cases n with
      | zero => exact Nat.le_refl 0
      | succ n => exact Nat.le_add_right _ _

/-- Twelve months make a year. -/
theorem daysBeforeMonth_year (year : Nat) : daysBeforeMonth year 13 = yearLength year := by
  unfold yearLength
  by_cases hleap : isLeapYear year = true
  · simp [daysBeforeMonth, monthLength, hleap]
  · simp [daysBeforeMonth, monthLength, hleap]

/-- The month that the search ends in holds the day that is looked for. -/
theorem monthAndDay_spec (year : Nat) {month n months : Nat} (hmonth : 1 ≤ month) (hn : 1 ≤ n)
    (h : daysBeforeMonth year month + n ≤ daysBeforeMonth year (month + months + 1)) :
    let found := monthAndDay year month n months
    (month ≤ found.1 ∧ found.1 ≤ month + months) ∧
      (1 ≤ found.2 ∧ found.2 ≤ monthLength year found.1) ∧
      daysBeforeMonth year found.1 + found.2 = daysBeforeMonth year month + n := by
  -- the days that are left and the days before the month always make up the same sum
  induction months generalizing month n with
  | zero =>
      rw [Nat.add_zero, daysBeforeMonth_succ year hmonth] at h
      rw [monthAndDay]
      exact ⟨⟨Nat.le_refl _, Nat.le_refl _⟩, ⟨hn, Nat.le_of_add_le_add_left h⟩, rfl⟩
  | succ months ih =>
      rw [monthAndDay]
      by_cases hlast : n ≤ monthLength year month
      · rw [if_pos hlast]
        exact ⟨⟨Nat.le_refl _, Nat.le_add_right _ _⟩, ⟨hn, hlast⟩, rfl⟩
      · rw [if_neg hlast]
        have hnext := daysBeforeMonth_succ year hmonth
        have hshift : month + (months + 1) + 1 = month + 1 + months + 1 := by omega
        rw [hshift] at h
        obtain ⟨⟨hfrom, hto⟩, hday, hsum⟩ :=
          ih (show 1 ≤ month + 1 by omega) (show 1 ≤ n - monthLength year month by omega)
            (by rw [hnext]; omega)
        refine ⟨⟨by omega, by omega⟩, hday, ?_⟩
        rw [hsum, hnext]
        omega

/-! ## Days -/

def lastOrdinal : Nat := 3652059

theorem daysBeforeYear_le {year : Nat} (h : year ≤ 10000) : daysBeforeYear year ≤ lastOrdinal := by
  unfold daysBeforeYear lastOrdinal
  omega

theorem lt_of_daysBeforeYear_lt {year : Nat} (h : daysBeforeYear year < lastOrdinal) :
    year < 10000 := by
  unfold daysBeforeYear lastOrdinal at h
  omega

theorem Date.ordinal_bounds (d : Date) : 1 ≤ d.ordinal ∧ d.ordinal ≤ lastOrdinal := by
  have hday := d.day_range
  have hyear : daysBeforeYear (d.year + 1) ≤ lastOrdinal :=
    daysBeforeYear_le (Nat.succ_le_succ d.year_range.2)
  have hmonth : daysBeforeMonth d.year (d.month + 1) ≤ daysBeforeMonth d.year 13 :=
    daysBeforeMonth_mono d.year (Nat.succ_le_succ d.month_range.2)
  rw [daysBeforeYear_succ d.year_range.1] at hyear
  rw [daysBeforeMonth_succ d.year d.month_range.1, daysBeforeMonth_year] at hmonth
  unfold ordinal
  omega

/-- **The day with a number** is found if the number is one of the calendar. -/
theorem Date.exists_ofOrdinal {n : Nat} (hn : 1 ≤ n) (hlast : n ≤ lastOrdinal) :
    ∃ d, Date.ofOrdinal? n = some d ∧ d.ordinal = n := by
  obtain ⟨hyear, hbefore, hafter⟩ := yearOfOrdinal_spec hn
  have hyear' : yearOfOrdinal n < 10000 :=
    lt_of_daysBeforeYear_lt (Nat.lt_of_lt_of_le hbefore hlast)
  have hlength := daysBeforeYear_succ hyear
  have hpos : 1 ≤ n - daysBeforeYear (yearOfOrdinal n) := by omega
  have hyearEnd : daysBeforeMonth (yearOfOrdinal n) 1 + (n - daysBeforeYear (yearOfOrdinal n)) ≤
      daysBeforeMonth (yearOfOrdinal n) (1 + 11 + 1) := by
    rw [daysBeforeMonth_year, daysBeforeMonth]
    omega
  obtain ⟨⟨hfirst, htwelve⟩, hday, hsum⟩ :=
    monthAndDay_spec (yearOfOrdinal n) (Nat.le_refl 1) hpos hyearEnd
  refine ⟨⟨_, _, _, ⟨hyear, by omega⟩, ⟨hfirst, by omega⟩, hday⟩, ?_, ?_⟩
  · unfold ofOrdinal? fieldsOfOrdinal Date.of?
    dsimp only
    rw [dif_pos ⟨hyear, by omega⟩, dif_pos ⟨hfirst, by omega⟩, dif_pos hday]
    rfl
  · unfold ordinal
    dsimp only
    rw [Nat.add_assoc, hsum, daysBeforeMonth]
    omega

/-! ## Clocks on the wall -/

theorem ClockTime.sinceMidnight_lt (t : ClockTime) : (t.sinceMidnight : Int) < dayMicros := by
  have hhour := t.hour_lt
  have hminute := t.minute_lt
  have hsecond := t.second_lt
  have hmicros := t.micros_lt
  unfold sinceMidnight dayMicros
  omega

theorem ClockTime.sinceMidnight_ofMicros {n : Nat} (h : (n : Int) < dayMicros) :
    (ClockTime.ofMicros n).sinceMidnight = n := by
  unfold dayMicros at h
  unfold sinceMidnight ofMicros
  dsimp only
  omega

theorem LocalTime.micros_bounds (t : LocalTime) :
    0 ≤ t.micros ∧ t.micros < lastOrdinal * dayMicros := by
  have hdate := t.date.ordinal_bounds
  have htime := t.time.sinceMidnight_lt
  unfold micros
  unfold dayMicros at htime ⊢
  omega

/-- **The local time so many microseconds after the beginning** of the calendar is found, if it is
in the calendar. -/
theorem LocalTime.exists_ofMicros {n : Int} (hn : 0 ≤ n) (hlast : n < lastOrdinal * dayMicros) :
    ∃ t, LocalTime.ofMicros? n = some t ∧ t.micros = n := by
  unfold dayMicros at hlast
  have hday : (n / dayMicros).toNat + 1 ≤ lastOrdinal := by
    unfold dayMicros
    omega
  obtain ⟨date, hdate, hordinal⟩ := Date.exists_ofOrdinal (Nat.le_add_left 1 _) hday
  have hrest : ((n % dayMicros).toNat : Int) < dayMicros := by
    unfold dayMicros
    omega
  refine ⟨⟨date, .ofMicros (n % dayMicros).toNat⟩, ?_, ?_⟩
  · rw [ofMicros?, if_neg (Int.not_lt.mpr hn), hdate]
    rfl
  · rw [micros, hordinal, ClockTime.sinceMidnight_ofMicros hrest]
    unfold dayMicros
    omega

/-- Before the beginning there is no local time. -/
theorem LocalTime.ofMicros_of_neg {n : Int} (h : n < 0) : LocalTime.ofMicros? n = none :=
  if_pos h

end TimetableFeed
