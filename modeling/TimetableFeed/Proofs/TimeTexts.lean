import Mathlib.Data.List.Induction
import Mathlib.Tactic.IntervalCases
import TimetableFeed.Proofs.Calendar
import TimetableFeed.Proofs.Precedence
import TimetableFeed.Proofs.WrittenOffsets

/-!
# Times as feeds write them

Feeds write times in one form: a date with hyphens, the letter T, a time of day with colons and
perhaps a fraction of a second, and then `Z` or a sign with hours and minutes. Each part is a number
in a fixed count of digits, but for the fraction, which may be of any length. A text of the form is
read if and only if its numbers are those of a time: the day is one of the calendar, and neither the
clock nor the offset goes beyond a day. What is read has just these numbers, and of the fraction the
microseconds. Any other text of the form is an error, about the field that it stands in.

Main definitions: `TimeText`, `TimeText.Occurs`, `TimeText.Says`. Main statement: `read_timeText`.
-/

namespace TimetableFeed

open TimetableFeed.Text (asciiByte)
open TimetableFeed.Utf8 (encodeChars encodeChars_append encodeChars_cons_ascii encodeChars_of_ascii
  toNat_asciiByte)

/-! ## Numbers -/

/-- A number in so many decimal digits. -/
structure Digits (width : Nat) where
  chars : List Char
  length_eq : chars.length = width
  all_digits : ∀ c ∈ chars, c.isDigit = true

/-- Digits as they stand. -/
def Digits.of (cs : List Char) (h : cs.all Char.isDigit = true) : Digits cs.length :=
  ⟨cs, rfl, List.all_eq_true.mp h⟩

/-- The number that digits write. -/
def valueOfDigits (cs : List Char) : Nat := Nat.ofDigitChars 10 cs 0

def Digits.value {width : Nat} (d : Digits width) : Nat := valueOfDigits d.chars

theorem valueOfDigits_append_one (cs : List Char) (c : Char) :
    valueOfDigits (cs ++ [c]) = 10 * valueOfDigits cs + (c.toNat - 48) := by
  unfold valueOfDigits
  rw [Nat.ofDigitChars_append, Nat.ofDigitChars_cons, Nat.ofDigitChars_nil]
  rfl

theorem valueOfDigits_lt {cs : List Char} (h : ∀ c ∈ cs, c.isDigit = true) :
    valueOfDigits cs < 10 ^ cs.length := by
  induction cs using List.reverseRecOn with
  | nil => exact Nat.one_pos
  | append_singleton cs c ih =>
      obtain ⟨hcs, hc⟩ := List.forall_mem_append.mp h
      have hdigit := toNat_of_isDigit (hc c (List.mem_singleton_self c))
      have hvalue := ih hcs
      rw [valueOfDigits_append_one, List.length_append, List.length_singleton, Nat.pow_succ]
      omega

theorem encode_digits {cs : List Char} (h : ∀ c ∈ cs, c.isDigit = true) :
    encodeChars cs = digitBytes cs.length (valueOfDigits cs) := by
  induction cs using List.reverseRecOn with
  | nil => rfl
  | append_singleton cs c ih =>
      obtain ⟨hcs, hc⟩ := List.forall_mem_append.mp h
      have hdigit := toNat_of_isDigit (hc c (List.mem_singleton_self c))
      have hascii : c.toNat < 128 := by omega
      -- the last digit is the remainder, those before it make up the quotient
      have hquotient : (10 * valueOfDigits cs + (c.toNat - 48)) / 10 = valueOfDigits cs := by omega
      have hlast : 0x30 + (10 * valueOfDigits cs + (c.toNat - 48)) % 10 = c.toNat := by omega
      rw [encodeChars_append, ih hcs, encodeChars_cons_ascii hascii, valueOfDigits_append_one,
        List.length_append, List.length_singleton, digitBytes, hquotient, hlast]
      rfl

namespace Digits

variable {width : Nat} (d : Digits width)

theorem value_lt : d.value < 10 ^ width := by
  have h := valueOfDigits_lt d.all_digits
  rwa [d.length_eq] at h

theorem encode : encodeChars d.chars = digitBytes width d.value := by
  rw [encode_digits d.all_digits, d.length_eq]
  rfl

theorem isWritten : ∀ c ∈ d.chars, Timestamp.IsWritten c := by
  intro c hc
  exact .inl (d.all_digits c hc)

end Digits

/-! ## The form -/

/-- An offset in hours and minutes, fewer than sixty. -/
structure OffsetText where
  negative : Bool
  hour : Digits 2
  minute : Digits 2
  minute_lt : minute.value < 60

/-- A text of the form `YYYY-MM-DDThh:mm:ss`, with a fraction or without one, and with an offset or
with `Z`. -/
structure TimeText where
  year : Digits 4
  month : Digits 2
  day : Digits 2
  hour : Digits 2
  minute : Digits 2
  second : Digits 2
  /-- One digit or more. -/
  fraction? : Option (Σ more, Digits (more + 1))
  offset? : Option OffsetText

def OffsetText.chars (o : OffsetText) : List Char :=
  (if o.negative then '-' else '+') :: (o.hour.chars ++ ':' :: o.minute.chars)

namespace TimeText

def dateChars (w : TimeText) : List Char :=
  w.year.chars ++ '-' :: (w.month.chars ++ '-' :: w.day.chars)

def fractionChars (w : TimeText) : List Char :=
  w.fraction?.elim [] fun digits => '.' :: digits.2.chars

def clockChars (w : TimeText) : List Char :=
  w.hour.chars ++ ':' :: (w.minute.chars ++ ':' :: (w.second.chars ++ w.fractionChars))

def offsetChars (w : TimeText) : List Char := w.offset?.elim ['Z'] OffsetText.chars

def chars (w : TimeText) : List Char := w.dateChars ++ 'T' :: (w.clockChars ++ w.offsetChars)

def text (w : TimeText) : String := String.ofList w.chars

end TimeText

/-! ## What it says -/

def OffsetText.micros (o : OffsetText) : Int :=
  let minutes := o.hour.value * 60 + o.minute.value
  if o.negative then -(60000000 * minutes : Nat) else (60000000 * minutes : Nat)

/-- The microseconds of a fraction: its first six digits, noughts in the place of those that are
missing. -/
def fractionMicros (digits : List Char) : Nat :=
  valueOfDigits ((digits ++ List.replicate 6 '0').take 6)

/-- The lengths of the months from January to December. A year that four divides is a leap year,
unless it is the last of a century; of these every fourth one is a leap year. -/
def monthLengths (year : Nat) : List Nat :=
  let february := if (4 ∣ year ∧ ¬ 100 ∣ year) ∨ 400 ∣ year then 29 else 28
  [31, february, 31, 30, 31, 30, 31, 31, 30, 31, 30, 31]

/-- The calendar has the day. -/
def DayExists (year month day : Nat) : Prop :=
  1 ≤ month ∧ ∃ length, (monthLengths year)[month - 1]? = some length ∧ 1 ≤ day ∧ day ≤ length

namespace TimeText

/-- The microseconds behind the seconds. -/
def micros (w : TimeText) : Nat := w.fraction?.elim 0 fun digits => fractionMicros digits.2.chars

def offsetMicros (w : TimeText) : Int := w.offset?.elim 0 OffsetText.micros

/-- The numbers are those of a time. -/
structure Occurs (w : TimeText) : Prop where
  year : 1 ≤ w.year.value ∧ w.year.value ≤ 9999
  day : DayExists w.year.value w.month.value w.day.value
  hour : w.hour.value ≤ 23
  minute : w.minute.value ≤ 59
  second : w.second.value ≤ 59
  offset : ∀ o ∈ w.offset?, o.hour.value ≤ 23

/-- The timestamp has the numbers of the text. -/
structure Says (w : TimeText) (t : Timestamp) : Prop where
  year : t.wall.date.year = w.year.value
  month : t.wall.date.month = w.month.value
  day : t.wall.date.day = w.day.value
  hour : t.wall.time.hour = w.hour.value
  minute : t.wall.time.minute = w.minute.value
  second : t.wall.time.second = w.second.value
  micros : t.wall.time.micros = w.micros
  offset : t.offset.micros = w.offsetMicros

end TimeText

/-! ## Its numbers -/

namespace Iso

/-- Of a fraction all digits are read, and six of them count. -/
theorem fraction_digits {cs : List Char} (h : ∀ c ∈ cs, c.isDigit = true) :
    fraction? (encodeChars cs) = some (fractionMicros cs, []) := by
  have hfront : ∀ c ∈ cs.take 6, c.isDigit = true := fun c hc => h c (List.mem_of_mem_take hc)
  have hback : ∀ c ∈ cs.drop 6, c.isDigit = true := fun c hc => h c (List.mem_of_mem_drop hc)
  have hlength : (encodeChars cs).length = cs.length := by rw [encode_digits h, length_digitBytes]
  have hsplit : encodeChars cs =
      digitBytes (min 6 cs.length) (valueOfDigits (cs.take 6)) ++ encodeChars (cs.drop 6) := by
    rw [← List.length_take, ← encode_digits hfront, ← encodeChars_append, List.take_append_drop]
  have hvalue : valueOfDigits (cs.take 6) < 10 ^ min 6 cs.length := by
    rw [← List.length_take]
    exact valueOfDigits_lt hfront
  have hrest : (encodeChars (cs.drop 6)).dropWhile (fun b => (digit? b).isSome) = [] := by
    rw [List.dropWhile_eq_nil_iff, encode_digits hback]
    intro b hb
    obtain ⟨d, hd, rfl⟩ := mem_digitBytes hb
    rw [digit_ofNat hd]
    rfl
  have hpadded : fractionMicros cs = valueOfDigits (cs.take 6) * tenPow (6 - min 6 cs.length) := by
    unfold fractionMicros valueOfDigits
    have hmissing : min (6 - cs.length) 6 = 6 - min 6 cs.length := by omega
    rw [List.take_append, List.take_replicate, Nat.ofDigitChars_append,
      Nat.ofDigitChars_replicate_zero, hmissing, Nat.mul_comm]
    rfl
  unfold fraction?
  dsimp only
  rw [hlength, hsplit, digits_digitBytes hvalue]
  simp only [Option.bind_eq_bind, Option.bind_some, hrest, hpadded]
  rfl

end Iso

namespace TimeText

open Iso

variable (w : TimeText)

theorem encode_date :
    encodeChars w.dateChars = dateBytes w.year.value w.month.value w.day.value := by
  unfold dateChars dateBytes
  rw [encodeChars_append, w.year.encode, encodeChars_cons_ascii (by decide), encodeChars_append,
    w.month.encode, encodeChars_cons_ascii (by decide), w.day.encode]

theorem numbers_second :
    numbers? (some true) 1 (digitBytes 2 w.second.value ++ encodeChars w.fractionChars) =
      some ([w.second.value], w.micros, []) := by
  unfold fractionChars micros
  cases w.fraction? with
  | none =>
      have hlast := numbers_last w.second.value_lt (some true) 0
      rwa [← List.append_nil (digitBytes 2 w.second.value)] at hlast
  | some digits =>
      obtain ⟨more, digits⟩ := digits
      have hne : encodeChars digits.chars ≠ [] := by
        rw [digits.encode, ← List.append_nil (digitBytes _ _)]
        exact digitBytes_append_ne_nil more digits.value []
      rw [Option.elim_some, Option.elim_some, encodeChars_cons_ascii (by decide)]
      exact numbers_fraction w.second.value_lt 0 hne (fraction_digits digits.all_digits)

theorem clock_chars :
    clock? (encodeChars w.clockChars) =
      some ⟨w.hour.value, w.minute.value, w.second.value, w.micros, false⟩ := by
  unfold clockChars
  rw [encodeChars_append, w.hour.encode, encodeChars_cons_ascii (by decide), encodeChars_append,
    w.minute.encode, encodeChars_cons_ascii (by decide), encodeChars_append, w.second.encode]
  exact clock_seconds w.hour.value_lt w.minute.value_lt w.numbers_second

/-- The characters of a time of day. -/
theorem clockChars_cases : ∀ c ∈ w.clockChars, c.isDigit = true ∨ c = ':' ∨ c = '.' := by
  have hdigits : ∀ {width} (d : Digits width), ∀ c ∈ d.chars, c.isDigit = true ∨ c = ':' ∨ c = '.' :=
    fun d c hc => .inl (d.all_digits c hc)
  have hfraction : ∀ c ∈ w.fractionChars, c.isDigit = true ∨ c = ':' ∨ c = '.' := by
    unfold fractionChars
    cases w.fraction? with
    | none => exact List.forall_mem_nil _
    | some digits => exact List.forall_mem_cons.mpr ⟨.inr (.inr rfl), hdigits digits.2⟩
  have hcolon : ':'.isDigit = true ∨ ':' = ':' ∨ ':' = '.' := .inr (.inl rfl)
  refine List.forall_mem_append.mpr ⟨hdigits _, List.forall_mem_cons.mpr ⟨hcolon, ?_⟩⟩
  refine List.forall_mem_append.mpr ⟨hdigits _, List.forall_mem_cons.mpr ⟨hcolon, ?_⟩⟩
  exact List.forall_mem_append.mpr ⟨hdigits _, hfraction⟩

/-- None of them opens an offset. -/
theorem not_opensOffset_clock : ∀ b ∈ encodeChars w.clockChars, opensOffset b = false := by
  have hascii : ∀ c ∈ w.clockChars, c.toNat < 128 := by
    intro c hc
    rcases w.clockChars_cases c hc with hdigit | rfl | rfl
    · have hrange := toNat_of_isDigit hdigit
      omega
    · decide
    · decide
  intro b hb
  rw [encodeChars_of_ascii hascii] at hb
  obtain ⟨c, hc, rfl⟩ := List.mem_map.mp hb
  rcases w.clockChars_cases c hc with hdigit | rfl | rfl
  · have hrange := toNat_of_isDigit hdigit
    have hbyte := toNat_asciiByte (hascii c hc)
    simp only [opensOffset, Bool.or_eq_false_iff, beq_eq_false_iff_ne, ne_eq, ← UInt8.toNat_inj,
      hbyte]
    refine ⟨⟨?_, ?_⟩, ?_⟩
    · show c.toNat ≠ 43
      omega
    · show c.toNat ≠ 45
      omega
    · show c.toNat ≠ 90
      omega
  · decide
  · decide

theorem offset_chars :
    ∃ mark tail, encodeChars w.offsetChars = mark :: tail ∧ opensOffset mark = true ∧
      Iso.offset? (mark :: tail) = some w.offsetMicros := by
  unfold offsetChars offsetMicros
  cases w.offset? with
  | none => exact ⟨asciiByte 'Z', [], encodeChars_cons_ascii (by decide) [], rfl, rfl⟩
  | some o =>
      have hminute := o.minute_lt
      have hhours : (o.hour.value * 60 + o.minute.value) / 60 = o.hour.value := by omega
      have hminutes : (o.hour.value * 60 + o.minute.value) % 60 = o.minute.value := by omega
      have hclock := clock_clockBytes o.hour.value_lt o.minute.value_lt
        (show ∀ s ∈ (none : Option (Nat × Nat)), s.1 < 100 ∧ s.2 < 1000000 by nofun)
      have hmicros := offsetMicros_minutes o.negative (o.hour.value * 60 + o.minute.value)
      rw [hhours, hminutes] at hmicros
      refine ⟨signByte o.negative, clockBytes o.hour.value o.minute.value none, ?_,
        opensOffset_signByte _, ?_⟩
      · rw [Option.elim_some, OffsetText.chars, encode_sign, encodeChars_append, o.hour.encode,
          encodeChars_cons_ascii (by decide), o.minute.encode, clockBytes, Option.elim_none,
          List.append_nil, Bool.decide_eq_true]
      · rw [offset_signed hclock rfl, Option.getD_none, hmicros]
        rfl

/-- The numbers that are read from the text. -/
theorem numbersOf_chars :
    numbersOf? (encodeChars w.chars) =
      some ⟨w.year.value, w.month.value, w.day.value,
        ⟨w.hour.value, w.minute.value, w.second.value, w.micros, false⟩, some w.offsetMicros⟩ := by
  obtain ⟨mark, tail, hencode, hmark, hoffset⟩ := w.offset_chars
  have htime := time_offset w.not_opensOffset_clock w.clock_chars hmark hoffset
  unfold chars
  rw [encodeChars_append, w.encode_date, encodeChars_cons_ascii (by decide), encodeChars_append,
    hencode]
  exact numbersOf_dateBytes w.year.value_lt w.month.value_lt w.day.value_lt (by decide) htime

theorem isBare : Timestamp.IsBare w.chars := by
  have hdigits : ∀ {width} (d : Digits width), ∀ c ∈ d.chars, Timestamp.IsWritten c ∨ c = 'Z' :=
    fun d c hc => .inl (d.isWritten c hc)
  have hclock : ∀ c ∈ w.clockChars, Timestamp.IsWritten c ∨ c = 'Z' := by
    intro c hc
    rcases w.clockChars_cases c hc with hdigit | rfl | rfl
    · exact .inl (.inl hdigit)
    · decide
    · decide
  have hoffset : ∀ c ∈ w.offsetChars, Timestamp.IsWritten c ∨ c = 'Z' := by
    unfold offsetChars
    cases w.offset? with
    | none => exact List.forall_mem_singleton.mpr (.inr rfl)
    | some o =>
        have hsign : ∀ negative : Bool,
            Timestamp.IsWritten (if negative then '-' else '+') ∨
              (if negative then '-' else '+') = 'Z' := by decide
        refine List.forall_mem_cons.mpr ⟨hsign o.negative, List.forall_mem_append.mpr ?_⟩
        exact ⟨hdigits _, List.forall_mem_cons.mpr ⟨by decide, hdigits _⟩⟩
  have hdate : ∀ c ∈ w.dateChars, Timestamp.IsWritten c ∨ c = 'Z' := by
    refine List.forall_mem_append.mpr ⟨hdigits _, List.forall_mem_cons.mpr ⟨by decide, ?_⟩⟩
    exact List.forall_mem_append.mpr
      ⟨hdigits _, List.forall_mem_cons.mpr ⟨by decide, hdigits _⟩⟩
  apply Timestamp.isBare_of_plain
  intro c hc
  have hwritten : Timestamp.IsWritten c ∨ c = 'Z' := by
    revert c
    refine List.forall_mem_append.mpr ⟨hdate, List.forall_mem_cons.mpr ⟨by decide, ?_⟩⟩
    exact List.forall_mem_append.mpr ⟨hclock, hoffset⟩
  rcases hwritten with hwritten | rfl
  · exact Timestamp.plain_of_isWritten hwritten
  · decide

end TimeText

/-! ## The ranges of the numbers -/

theorem monthLengths_getElem? (year : Nat) {month : Nat} (hfirst : 1 ≤ month) (hlast : month ≤ 12) :
    (monthLengths year)[month - 1]? = some (monthLength year month) := by
  have hleap : ((4 ∣ year ∧ ¬ 100 ∣ year) ∨ 400 ∣ year) ↔ isLeapYear year = true := by
    rw [isLeapYear_iff]
    omega
  unfold monthLengths
  simp only [hleap]
  interval_cases month <;> rfl

theorem dayExists_iff {year month day : Nat} :
    DayExists year month day ↔
      (1 ≤ month ∧ month ≤ 12) ∧ 1 ≤ day ∧ day ≤ monthLength year month := by
  constructor
  · rintro ⟨hfirst, length, hlength, hday⟩
    obtain ⟨hindex, -⟩ := List.getElem?_eq_some_iff.mp hlength
    have hlast : month ≤ 12 := by
      have htwelve : (monthLengths year).length = 12 := rfl
      omega
    rw [monthLengths_getElem? year hfirst hlast] at hlength
    cases hlength
    exact ⟨⟨hfirst, hlast⟩, hday⟩
  · rintro ⟨⟨hfirst, hlast⟩, hday⟩
    exact ⟨hfirst, _, monthLengths_getElem? year hfirst hlast, hday⟩

theorem fractionMicros_lt {digits : List Char} (h : ∀ c ∈ digits, c.isDigit = true) :
    fractionMicros digits < 1000000 := by
  have hpadded : ∀ c ∈ (digits ++ List.replicate 6 '0').take 6, c.isDigit = true := by
    intro c hc
    rcases List.mem_append.mp (List.mem_of_mem_take hc) with hc | hc
    · exact h c hc
    · rw [List.eq_of_mem_replicate hc]
      rfl
  have hlength : ((digits ++ List.replicate 6 '0').take 6).length = 6 := by simp
  have hvalue := valueOfDigits_lt hpadded
  rwa [hlength] at hvalue

theorem OffsetText.micros_fits_iff (o : OffsetText) :
    (-dayMicros < o.micros ∧ o.micros < dayMicros) ↔ o.hour.value ≤ 23 := by
  have hminute := o.minute_lt
  unfold micros dayMicros
  dsimp only
  by_cases hnegative : o.negative = true
  · rw [if_pos hnegative]
    omega
  · rw [if_neg hnegative]
    omega

namespace TimeText

variable (w : TimeText)

theorem micros_lt : w.micros < 1000000 := by
  unfold micros
  cases w.fraction? with
  | none => decide
  | some digits => exact fractionMicros_lt digits.2.all_digits

theorem offsetMicros_fits_iff :
    (-dayMicros < w.offsetMicros ∧ w.offsetMicros < dayMicros) ↔
      ∀ o ∈ w.offset?, o.hour.value ≤ 23 := by
  unfold offsetMicros
  cases w.offset? with
  | none => exact iff_of_true (by decide) nofun
  | some o =>
      rw [Option.elim_some, o.micros_fits_iff]
      constructor
      · rintro hhour _ ⟨⟩
        exact hhour
      · intro h
        exact h o rfl

variable {w : TimeText} {t : Timestamp}

theorem Says.occurs (h : w.Says t) : w.Occurs where
  year := h.year ▸ t.wall.date.year_range
  day := by
    rw [dayExists_iff, ← h.year, ← h.month, ← h.day]
    exact ⟨t.wall.date.month_range, t.wall.date.day_range⟩
  hour := Nat.le_of_lt_succ (h.hour ▸ t.wall.time.hour_lt)
  minute := Nat.le_of_lt_succ (h.minute ▸ t.wall.time.minute_lt)
  second := Nat.le_of_lt_succ (h.second ▸ t.wall.time.second_lt)
  offset := by
    rw [← w.offsetMicros_fits_iff, ← h.offset]
    exact ⟨t.offset.lower, t.offset.upper⟩

/-- The numbers of a time make up a timestamp. -/
theorem Occurs.exists_says (h : w.Occurs) : ∃ t, w.Says t := by
  obtain ⟨hmonth, hday⟩ := dayExists_iff.mp h.day
  obtain ⟨hlower, hupper⟩ := w.offsetMicros_fits_iff.mpr h.offset
  let date : Date := ⟨w.year.value, w.month.value, w.day.value, h.year, hmonth, hday⟩
  let time : ClockTime := ⟨w.hour.value, w.minute.value, w.second.value, w.micros,
    Nat.lt_succ_of_le h.hour, Nat.lt_succ_of_le h.minute, Nat.lt_succ_of_le h.second, w.micros_lt⟩
  exact ⟨⟨⟨date, time⟩, ⟨w.offsetMicros, hlower, hupper⟩⟩, rfl, rfl, rfl, rfl, rfl, rfl, rfl, rfl⟩

theorem Says.read (h : w.Says t) : Timestamp.read? w.text = .ok t := by
  apply Timestamp.read_numbers w.isBare
  rw [w.numbersOf_chars, h.year, h.month, h.day, h.hour, h.minute, h.second, h.micros, h.offset]

end TimeText

/-! ## What is read -/

theorem Date.of_ok {year month day : Nat} {d : Date} (h : Date.of? year month day = .ok d) :
    d.year = year ∧ d.month = month ∧ d.day = day := by
  unfold of? at h
  split at h
  · split at h
    · split at h
      · cases h
        exact ⟨rfl, rfl, rfl⟩
      · cases h
    · cases h
  · cases h

theorem ClockTime.of_ok {hour minute second micros : Nat} {t : ClockTime}
    (h : ClockTime.of? hour minute second micros = .ok t) :
    t.hour = hour ∧ t.minute = minute ∧ t.second = second ∧ t.micros = micros % 1000000 := by
  unfold of? at h
  split at h
  · split at h
    · split at h
      · cases h
        exact ⟨rfl, rfl, rfl, rfl⟩
      · cases h
    · cases h
  · cases h

namespace TimeText

variable {w : TimeText} {t : Timestamp}

theorem says_of_read (h : Timestamp.read? w.text = .ok t) : w.Says t := by
  rw [text, Timestamp.read_checked w.isBare w.numbersOf_chars] at h
  obtain ⟨m, hcheck, h⟩ := exists_of_bind_ok h
  obtain ⟨hdate, htime, hoffset⟩ := Iso.check_ok hcheck
  obtain ⟨hyear, hmonth, hday⟩ := Date.of_ok hdate
  obtain ⟨hhour, hminute, hsecond, hmicros⟩ := ClockTime.of_ok htime
  obtain ⟨wall, offset?⟩ := m
  cases offset? with
  | none => cases h
  | some offset =>
      cases h
      exact ⟨hyear, hmonth, hday, hhour, hminute, hsecond,
        hmicros.trans (Nat.mod_eq_of_lt w.micros_lt), (Option.some.inj hoffset).symm⟩

theorem exists_read_iff_occurs : (∃ t, Timestamp.read? w.text = .ok t) ↔ w.Occurs := by
  constructor
  · rintro ⟨t, hread⟩
    exact (says_of_read hread).occurs
  · intro h
    obtain ⟨t, hsays⟩ := h.exists_says
    exact ⟨t, hsays.read⟩

theorem exists_error_of_not_occurs (h : ¬ w.Occurs) : ∃ e, Timestamp.read? w.text = .error e := by
  rw [← exists_read_iff_occurs] at h
  cases hread : Timestamp.read? w.text with
  | ok t => exact absurd ⟨t, hread⟩ h
  | error e => exact ⟨e, rfl⟩

end TimeText

/-- **How the texts of the form are read**: as the timestamp with just their numbers, if these are
those of a time, and otherwise not at all. A document in which the first text that fails its check
is such a text gets an error about the field and the place of that text. -/
theorem read_timeText (w : TimeText) :
    ((∃ t, Timestamp.read? w.text = .ok t) ↔ w.Occurs) ∧
    (∀ t, Timestamp.read? w.text = .ok t → w.Says t) ∧
    (¬ w.Occurs →
      (∃ e, Timestamp.read? w.text = .error e) ∧
      ∀ (bytes : List UInt8) (json delivery : Json) (before : List Check) (f : Field)
        (place : Place) (after : List Check), Json.read? bodyLimits bytes = .ok json →
        Shape.document.Fits json → json.delivery? = some delivery →
        delivery.deliveryChecks = before ++ .time f place (some w.text) :: after →
        (∀ c ∈ before, c.passes) →
        ∃ e, decode? bytes = .error e ∧ e = .invalidTimestamp w.text f place ∧
          e.blame = ⟨.invalidTimestamp, some f.camel, place.journey?.map Int.ofNat,
            place.call?.map Int.ofNat⟩) := by
  refine ⟨TimeText.exists_read_iff_occurs, fun t => TimeText.says_of_read, ?_⟩
  intro hnever
  obtain ⟨e, he⟩ := TimeText.exists_error_of_not_occurs hnever
  refine ⟨⟨e, he⟩, ?_⟩
  intro bytes json delivery before f place after hjson hfits hdelivery hchecks hbefore
  have hfails : (Check.time f place (some w.text)).passes = false := by
    rw [Check.passes, Option.all_some, he]
    rfl
  exact ⟨_, decode_fails_at_first hjson hfits hdelivery hchecks hbefore hfails, rfl, rfl⟩

/-- 29 February of a year, a moment before noon, with seven digits of a second and the widest
offset of hours and minutes. -/
def leapNoon (year : Digits 4) : TimeText where
  year
  month := .of ['0', '2'] rfl
  day := .of ['2', '9'] rfl
  hour := .of ['1', '1'] rfl
  minute := .of ['5', '9'] rfl
  second := .of ['5', '8'] rfl
  fraction? := some ⟨6, .of ['0', '0', '0', '0', '1', '7', '9'] rfl⟩
  offset? := some ⟨true, .of ['2', '3'] rfl, .of ['5', '9'] rfl, by decide⟩

/-- A journey that was recorded on 29 February 1900. -/
def leapFeed : Json :=
  .object [("Siri", .object [("serviceDelivery", .object [
    ("responseTimestamp", .text "2000-02-29T11:59:58.0000179-23:59"), ("producerRef", .text "L"),
    ("estimatedTimetableDelivery", .array [.object [
      ("recordedAtTime", .text "1900-02-29T11:59:58.0000179-23:59")]])])])]

set_option maxRecDepth 10000 in
theorem read_timeText_leap_years :
    let last := leapNoon (.of ['1', '9', '0', '0'] rfl)
    let fourth := leapNoon (.of ['2', '0', '0', '0'] rfl)
    fourth.text = "2000-02-29T11:59:58.0000179-23:59" ∧
      (∃ t, Timestamp.read? fourth.text = .ok t ∧ t.wall.date.day = 29 ∧ t.wall.time.micros = 17 ∧
        t.offset.micros = -86340000000) ∧
      last.text = "1900-02-29T11:59:58.0000179-23:59" ∧ ¬ last.Occurs ∧
      decode? (printed leapFeed) = .error (.invalidTimestamp last.text .recordedAtTime (.journey 0)) := by
  intro last fourth
  have hlast : last.text = "1900-02-29T11:59:58.0000179-23:59" := by decide +kernel
  have hfourth : fourth.text = "2000-02-29T11:59:58.0000179-23:59" := by decide +kernel
  have hoccurs : fourth.Occurs := by
    refine ⟨by decide, dayExists_iff.mpr (by decide), by decide, by decide, by decide, ?_⟩
    rintro o ⟨⟩
    decide
  have hnever : ¬ last.Occurs := by
    intro h
    obtain ⟨-, hday⟩ := dayExists_iff.mp h.day
    exact absurd hday (by decide)
  obtain ⟨t, hread⟩ := (read_timeText fourth).1.mpr hoccurs
  have hsays := (read_timeText fourth).2.1 t hread
  have hjson : Json.read? bodyLimits (printed leapFeed) = .ok leapFeed := by rfl
  have hfits : Shape.document.Fits leapFeed := (Shape.misfits_eq_nil_iff _ [] _).mp rfl
  have hpasses : ∀ c ∈ [Check.text .responseTimestamp .delivery (some fourth.text),
      .time .responseTimestamp .delivery (some fourth.text),
      .text .producerRef .delivery (some "L")], c.passes := by
    rw [hfourth]
    decide +kernel
  rw [hfourth] at hpasses
  obtain ⟨e, hdecode, rfl, -⟩ := ((read_timeText last).2.2 hnever).2 (printed leapFeed) leapFeed _ _
    .recordedAtTime (.journey 0) _ hjson hfits rfl (by rw [hlast]; rfl) hpasses
  refine ⟨hfourth, ⟨t, hread, hsays.day, hsays.micros, hsays.offset⟩, hlast, hnever, hdecode⟩

end TimetableFeed
