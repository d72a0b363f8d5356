import Mathlib.Algebra.Group.Nat.Defs
import TimetableFeed.Proofs.Utf8Text
import TimetableFeed.Proofs.ZoneIds

/-!
# Reading back timestamps

A timestamp that has been read from a text is read back from its written forms, with the letter T
or a space between date and time. An offset of less than a second could be written, but not read
back, for it is read as none; so no text gives one.

Main definition: `Offset.IsReadable`. Main statements: `Timestamp.offset_of_read`,
`Timestamp.read_chars`, `Timestamp.read_again`.
-/

namespace TimetableFeed

open TimetableFeed.Text (asciiByte)
open TimetableFeed.Utf8 (encodeChars encodeChars_append encodeChars_cons_ascii toNat_asciiByte)

/-! ## Digits -/

/-- The bytes of a number in so many digits. -/
def digitBytes : Nat → Nat → List UInt8
  | 0, _ => []
  | width + 1, n => digitBytes width (n / 10) ++ [UInt8.ofNat (0x30 + n % 10)]

theorem toNat_of_isDigit {c : Char} (h : c.isDigit = true) : 48 ≤ c.toNat ∧ c.toNat ≤ 57 := by
  simp only [Char.isDigit, Bool.and_eq_true, decide_eq_true_eq, ge_iff_le,
    UInt32.le_iff_toNat_le] at h
  exact h

theorem decimalChars_of_lt {n : Nat} (h : n < 10) : decimalChars n = [n.digitChar] :=
  Nat.toDigits_of_lt_base h

theorem decimalChars_of_le {n : Nat} (h : 10 ≤ n) :
    decimalChars n = decimalChars (n / 10) ++ [(n % 10).digitChar] :=
  Nat.toDigits_of_base_le (by decide) h

theorem paddedChars_succ {width n : Nat} (hwidth : 0 < width) :
    paddedChars (width + 1) n = paddedChars width (n / 10) ++ [(n % 10).digitChar] := by
  unfold paddedChars
  by_cases hn : n < 10
  · have hzero : n / 10 = 0 := by omega
    rw [decimalChars_of_lt hn, hzero, decimalChars_of_lt (by decide), Nat.mod_eq_of_lt hn]
    obtain ⟨width, rfl⟩ : ∃ w, width = w + 1 := ⟨width - 1, by omega⟩
    simp [List.replicate_succ']
  · rw [decimalChars_of_le (Nat.le_of_not_lt hn)]
    simp

theorem encode_digitChar {d : Nat} (h : d < 10) :
    encodeChars [d.digitChar] = [UInt8.ofNat (0x30 + d)] := by
  revert h d
  decide

theorem encode_paddedChars (width n : Nat) (h : n < 10 ^ (width + 1)) :
    encodeChars (paddedChars (width + 1) n) = digitBytes (width + 1) n := by
  induction width generalizing n with
  | zero =>
      have hn : n < 10 := h
      rw [paddedChars, decimalChars_of_lt hn, digitBytes, digitBytes, List.nil_append,
        Nat.mod_eq_of_lt hn, ← encode_digitChar hn]
      rfl
  | succ width ih =>
      have hn : n / 10 < 10 ^ (width + 1) := by
        rw [Nat.pow_succ] at h
        omega
      rw [paddedChars_succ (Nat.succ_pos width), encodeChars_append, ih _ hn,
        encode_digitChar (Nat.mod_lt n (by decide))]
      rfl

namespace Iso

theorem digit_ofNat {d : Nat} (h : d < 10) : digit? (UInt8.ofNat (0x30 + d)) = some d := by
  revert h d
  decide

theorem digitsFrom_succ (total count : Nat) (s : List UInt8) :
    digitsFrom total (count + 1) s =
      (digitsFrom total count s).bind fun x => digitsFrom x.1 1 x.2 := by
  induction count generalizing total s with
  | zero => rfl
  | succ count ih =>
      cases s with
      | nil => rfl
      | cons b rest =>
          rw [digitsFrom, digitsFrom]
          cases digit? b with
          | none => rfl
          | some d =>
              rw [Option.bind_some, Option.bind_some, ih]

theorem digitsFrom_digitBytes (total width n : Nat) (h : n < 10 ^ width) (rest : List UInt8) :
    digitsFrom total width (digitBytes width n ++ rest) = some (total * 10 ^ width + n, rest) := by
  induction width generalizing n rest with
  | zero =>
      obtain rfl : n = 0 := by omega
      simp [digitBytes, digitsFrom]
  | succ width ih =>
      have hn : n / 10 < 10 ^ width := by
        rw [Nat.pow_succ] at h
        omega
      -- the induction is on the number of digits, so the last one is read by itself
      rw [digitsFrom_succ, digitBytes, List.append_assoc, ih _ hn, Option.bind_some,
        List.singleton_append, digitsFrom, digit_ofNat (Nat.mod_lt n (by decide)), Option.bind_some,
        digitsFrom, Nat.pow_succ]
      congr 2
      rw [← Nat.mul_assoc]
      omega

theorem digits_digitBytes {width n : Nat} (h : n < 10 ^ width) (rest : List UInt8) :
    digits? width (digitBytes width n ++ rest) = some (n, rest) := by
  rw [digits?, digitsFrom_digitBytes 0 width n h, Nat.zero_mul, Nat.zero_add]

theorem mem_digitBytes {width n : Nat} {b : UInt8} (h : b ∈ digitBytes width n) :
    ∃ d < 10, b = UInt8.ofNat (0x30 + d) := by
  induction width generalizing n with
  | zero => cases h
  | succ width ih =>
      rcases List.mem_append.mp h with h | h
      · exact ih h
      · exact ⟨n % 10, Nat.mod_lt n (by decide), List.mem_singleton.mp h⟩

theorem length_digitBytes (width n : Nat) : (digitBytes width n).length = width := by
  induction width generalizing n with
  | zero => rfl
  | succ width ih => simp [digitBytes, ih]

/-! ## Times of day

Numbers of two digits: the last one, one with a colon and more numbers behind it, and one with a
fraction behind it. -/

def fractionBytes (micros : Nat) : List UInt8 :=
  if micros = 0 then [] else asciiByte '.' :: digitBytes 6 micros

theorem fraction_digitBytes {micros : Nat} (h : micros < 1000000) :
    fraction? (digitBytes 6 micros) = some (micros, []) := by
  have hdigits := digits_digitBytes (show micros < 10 ^ 6 from h) []
  rw [List.append_nil] at hdigits
  unfold fraction?
  rw [length_digitBytes]
  simp [hdigits, tenPow]

theorem numbers_last {v : Nat} (hv : v < 100) (colons : Option Bool) (count : Nat) :
    numbers? colons (count + 1) (digitBytes 2 v) = some ([v], 0, []) := by
  have hdigits := digits_digitBytes (show v < 10 ^ 2 from hv) []
  rw [List.append_nil] at hdigits
  rw [numbers?, hdigits]
  rfl

theorem numbers_colon {v : Nat} (hv : v < 100) {colons : Option Bool}
    (hcolons : colons.getD true = true) (count : Nat) {rest : List UInt8} (hrest : rest ≠ [])
    {values : List Nat} {micros : Nat}
    (h : numbers? (some true) count rest = some (values, micros, [])) :
    numbers? colons (count + 1) (digitBytes 2 v ++ asciiByte ':' :: rest) =
      some (v :: values, micros, []) := by
  have hdigits := digits_digitBytes (show v < 10 ^ 2 from hv) (asciiByte ':' :: rest)
  obtain ⟨b, rest, rfl⟩ := List.exists_cons_of_ne_nil hrest
  rw [numbers?, hdigits]
  simp only [Option.bind_eq_bind, Option.bind_some, beq_self_eq_true, hcolons, Bool.and_true,
    if_true, h]
  rfl

theorem numbers_fraction {v micros : Nat} (hv : v < 100) (count : Nat) {rest : List UInt8}
    (hrest : rest ≠ []) (h : fraction? rest = some (micros, [])) :
    numbers? (some true) (count + 1) (digitBytes 2 v ++ asciiByte '.' :: rest) =
      some ([v], micros, []) := by
  have hdigits := digits_digitBytes (show v < 10 ^ 2 from hv) (asciiByte '.' :: rest)
  obtain ⟨b, rest, rfl⟩ := List.exists_cons_of_ne_nil hrest
  rw [numbers?, hdigits]
  have hpoint : (asciiByte '.' == asciiByte ':') = false := by decide
  simp only [Option.bind_eq_bind, Option.bind_some, Option.getD_some, hpoint, Bool.and_false,
    Bool.false_eq_true, if_false, beq_self_eq_true, Bool.true_or, if_true, h, Option.map_some]
  rfl

theorem digitBytes_append_ne_nil (width n : Nat) (rest : List UInt8) :
    digitBytes (width + 1) n ++ rest ≠ [] := by
  simp [digitBytes]

/-- Hours and minutes in front of the seconds with what belongs to them. -/
theorem clock_seconds {hour minute second micros : Nat} (hhour : hour < 100) (hminute : minute < 100)
    {rest : List UInt8}
    (h : numbers? (some true) 1 (digitBytes 2 second ++ rest) = some ([second], micros, [])) :
    clock? (digitBytes 2 hour ++ asciiByte ':' :: (digitBytes 2 minute ++
      asciiByte ':' :: (digitBytes 2 second ++ rest))) =
        some ⟨hour, minute, second, micros, false⟩ := by
  have hminutes := numbers_colon hminute (show (some true).getD true = true from rfl) 1
    (digitBytes_append_ne_nil 1 second rest) h
  unfold clock?
  rw [numbers_colon hhour rfl 2 (digitBytes_append_ne_nil 1 minute _) hminutes]
  rfl

/-- The bytes of a time: hours and minutes, then perhaps seconds with their fraction. -/
def clockBytes (hour minute : Nat) (seconds? : Option (Nat × Nat)) : List UInt8 :=
  digitBytes 2 hour ++ asciiByte ':' :: (digitBytes 2 minute ++
    seconds?.elim [] fun s => asciiByte ':' :: (digitBytes 2 s.1 ++ fractionBytes s.2))

theorem clock_clockBytes {hour minute : Nat} (hhour : hour < 100) (hminute : minute < 100)
    {seconds? : Option (Nat × Nat)} (hseconds : ∀ s ∈ seconds?, s.1 < 100 ∧ s.2 < 1000000) :
    clock? (clockBytes hour minute seconds?) =
      some ⟨hour, minute, (seconds?.getD (0, 0)).1, (seconds?.getD (0, 0)).2, false⟩ := by
  unfold clockBytes
  cases seconds? with
  | none =>
      have hne := digitBytes_append_ne_nil 1 minute []
      rw [List.append_nil] at hne
      rw [Option.elim_none, List.append_nil, clock?,
        numbers_colon hhour rfl 2 hne (numbers_last hminute _ 1)]
      rfl
  | some s =>
      obtain ⟨second, micros⟩ := s
      obtain ⟨hsecond, hmicros⟩ := hseconds _ rfl
      have hlast : numbers? (some true) 1 (digitBytes 2 second ++ fractionBytes micros) =
          some ([second], micros, []) := by
        unfold fractionBytes
        by_cases hzero : micros = 0
        · rw [if_pos hzero, List.append_nil, numbers_last hsecond, hzero]
        · have hne := digitBytes_append_ne_nil 5 micros []
          rw [List.append_nil] at hne
          rw [if_neg hzero, numbers_fraction hsecond 0 hne (fraction_digitBytes hmicros)]
      exact clock_seconds hhour hminute hlast

theorem not_opensOffset_clockBytes {hour minute : Nat} {seconds? : Option (Nat × Nat)} {b : UInt8}
    (h : b ∈ clockBytes hour minute seconds?) : opensOffset b = false := by
  have hbytes : ∀ d < 10, opensOffset (UInt8.ofNat (0x30 + d)) = false := by decide
  have hdigit : ∀ {width n}, b ∈ digitBytes width n → opensOffset b = false := by
    intro width n hb
    obtain ⟨d, hd, rfl⟩ := mem_digitBytes hb
    exact hbytes d hd
  have hcolon : opensOffset (asciiByte ':') = false := by decide
  have hpoint : opensOffset (asciiByte '.') = false := by decide
  rcases List.mem_append.mp h with h | h
  · exact hdigit h
  rcases List.mem_cons.mp h with rfl | h
  · exact hcolon
  rcases List.mem_append.mp h with h | h
  · exact hdigit h
  cases seconds? with
  | none => cases h
  | some s =>
      rcases List.mem_cons.mp h with rfl | h
      · exact hcolon
      rcases List.mem_append.mp h with h | h
      · exact hdigit h
      unfold fractionBytes at h
      split at h
      · cases h
      · rcases List.mem_cons.mp h with rfl | h
        · exact hpoint
        · exact hdigit h

def signByte (negative : Bool) : UInt8 := if negative then asciiByte '-' else asciiByte '+'

theorem offset_signed {tail : List UInt8} {c : Clock} (h : clock? tail = some c)
    (hover : c.leftover = false) (negative : Bool) :
    offset? (signByte negative :: tail) = some (offsetMicros negative c) := by
  cases negative <;> simp [offset?, signByte, h, hover, asciiByte]

theorem opensOffset_signByte (negative : Bool) : opensOffset (signByte negative) = true := by
  cases negative <;> rfl

theorem time_offset {head tail : List UInt8} {mark : UInt8} {c : Clock} {micros : Int}
    (hhead : ∀ b ∈ head, opensOffset b = false) (hclock : clock? head = some c)
    (hmark : opensOffset mark = true) (hoffset : offset? (mark :: tail) = some micros) :
    time? (head ++ mark :: tail) = some (c, some micros) := by
  have hall : ∀ b ∈ head, (!opensOffset b) = true := fun b hb => by rw [hhead b hb]; rfl
  -- the first byte that may open an offset is the mark behind the time of day
  unfold time?
  rw [List.takeWhile_append_of_pos hall, List.dropWhile_append_of_pos hall,
    List.takeWhile_cons_of_neg (by simp [hmark]), List.dropWhile_cons_of_neg (by simp [hmark]),
    List.append_nil, hclock]
  simp [hoffset]

/-! ## Dates -/

def dateBytes (year month day : Nat) : List UInt8 :=
  digitBytes 4 year ++ asciiByte '-' :: (digitBytes 2 month ++ asciiByte '-' :: digitBytes 2 day)

theorem length_dateBytes (year month day : Nat) : (dateBytes year month day).length = 10 := by
  simp [dateBytes, length_digitBytes]

/-- No week begins with a digit. -/
theorem not_isAt_week (n : Nat) (rest : List UInt8) :
    isAt (digitBytes 2 n ++ rest) 0 'W' = false := by
  have hdigit : ∀ d < 10, (some (UInt8.ofNat (0x30 + d)) == some (asciiByte 'W')) = false := by
    decide
  exact hdigit (n / 10 % 10) (Nat.mod_lt _ (by decide))

theorem dateLength_dateBytes (year month day : Nat) {rest : List UInt8} :
    dateLength? (dateBytes year month day ++ rest) = some 10 := by
  have hlength : (dateBytes year month day ++ rest).length ≠ 7 := by
    rw [List.length_append, length_dateBytes]
    omega
  have hhyphen : isAt (dateBytes year month day ++ rest) 4 '-' = true := rfl
  have hweek : isAt (dateBytes year month day ++ rest) 5 'W' = false :=
    not_isAt_week month (asciiByte '-' :: digitBytes 2 day ++ rest)
  rw [dateLength?, if_neg hlength, hhyphen, hweek]
  rfl

theorem date_dateBytes {year month day : Nat} (hyear : year < 10000) (hmonth : month < 100)
    (hday : day < 100) (rest : List UInt8) :
    date? 10 (dateBytes year month day ++ rest) = some (year, month, day) := by
  have hy := digits_digitBytes (show year < 10 ^ 4 from hyear)
    (asciiByte '-' :: (digitBytes 2 month ++ asciiByte '-' :: digitBytes 2 day ++ rest))
  have hm := digits_digitBytes (show month < 10 ^ 2 from hmonth)
    (asciiByte '-' :: (digitBytes 2 day ++ rest))
  have hd := digits_digitBytes (show day < 10 ^ 2 from hday) rest
  have hhyphen : ∀ s, isAt (asciiByte '-' :: s) 0 '-' = true := fun _ => rfl
  have hskip : ∀ s, skip? '-' (asciiByte '-' :: s) = some s := fun _ => rfl
  have hweek := not_isAt_week month (asciiByte '-' :: (digitBytes 2 day ++ rest))
  unfold date? dateBytes
  simp only [List.append_assoc, List.cons_append] at hy hm hd hweek ⊢
  simp [hy, hm, hd, hhyphen, hskip, hweek]

/-- An ASCII character has one byte. -/
theorem charLength_asciiByte {c : Char} (h : c.toNat < 128) : charLength (asciiByte c) = 1 := by
  unfold charLength
  rw [toNat_asciiByte h]
  split
  · omega
  · split
    · omega
    · split
      · omega
      · rfl

/-- Any ASCII character may stand between date and time. -/
theorem numbersOf_dateBytes {year month day : Nat} (hyear : year < 10000) (hmonth : month < 100)
    (hday : day < 100) {separator : Char} (hseparator : separator.toNat < 128) {s : List UInt8}
    {c : Clock} {micros : Int} (h : time? s = some (c, some micros)) :
    numbersOf? (dateBytes year month day ++ asciiByte separator :: s) =
      some ⟨year, month, day, c, some micros⟩ := by
  have hlength : ¬ (dateBytes year month day ++ asciiByte separator :: s).length < 7 := by
    rw [List.length_append, length_dateBytes]
    omega
  have hdrop : (dateBytes year month day ++ asciiByte separator :: s).drop 10 =
      asciiByte separator :: s := by
    have hdate := length_dateBytes year month day
    rw [List.drop_append_of_le_length (Nat.le_of_eq hdate.symm), ← hdate, List.drop_length,
      List.nil_append]
  have hone : charLength (asciiByte separator) - 1 = 0 := by rw [charLength_asciiByte hseparator]
  unfold numbersOf?
  rw [if_neg hlength, dateLength_dateBytes]
  simp [date_dateBytes hyear hmonth hday, hdrop, hone, h]

end Iso

/-! ## Written timestamps -/

/-- The offset is none, or a second at least: what reading an offset gives. -/
def Offset.IsReadable (o : Offset) : Prop := o.micros = 0 ∨ 1000000 ≤ o.micros.natAbs

namespace Iso

theorem encode_fraction {micros : Nat} (h : micros < 1000000) :
    encodeChars (fractionChars micros) = fractionBytes micros := by
  unfold fractionChars fractionBytes
  by_cases hzero : micros = 0
  · rw [if_pos hzero, if_pos hzero]
    rfl
  · rw [if_neg hzero, if_neg hzero, encodeChars_cons_ascii (by decide),
      encode_paddedChars 5 micros h]

theorem encode_two {n : Nat} (h : n < 100) : encodeChars (paddedChars 2 n) = digitBytes 2 n :=
  encode_paddedChars 1 n h

theorem encode_two_mark {n : Nat} (h : n < 100) {mark : Char} (hmark : mark.toNat < 128)
    (cs : List Char) : encodeChars (paddedChars 2 n ++ mark :: cs) =
      digitBytes 2 n ++ asciiByte mark :: encodeChars cs := by
  rw [encodeChars_append, encode_two h, encodeChars_cons_ascii hmark]

theorem encode_date (d : Date) : encodeChars d.chars = dateBytes d.year d.month d.day := by
  have hyear : d.year < 10 ^ 4 := Nat.lt_succ_of_le d.year_range.2
  have hmonth := d.month_range
  have hday := d.day_range
  have hlength := monthLength_le d.year d.month
  unfold Date.chars dateBytes
  simp only [List.append_assoc, List.cons_append]
  rw [encodeChars_append, encode_paddedChars 3 d.year hyear, encodeChars_cons_ascii (by decide),
    encode_two_mark (by omega) (by decide), encode_two (by omega)]

theorem encode_clock (t : ClockTime) :
    encodeChars t.chars = clockBytes t.hour t.minute (some (t.second, t.micros)) := by
  have hhour := t.hour_lt
  have hminute := t.minute_lt
  have hsecond := t.second_lt
  unfold ClockTime.chars clockBytes
  simp only [List.append_assoc, List.cons_append, Option.elim_some]
  rw [encode_two_mark (by omega) (by decide), encode_two_mark (by omega) (by decide),
    encodeChars_append, encode_two (by omega), encode_fraction t.micros_lt]

/-- The seconds of an offset with their fraction, if there are any. -/
def offsetSeconds (total : Nat) : Option (Nat × Nat) :=
  if total / 1000000 % 60 = 0 ∧ total % 1000000 = 0 then none
  else some (total / 1000000 % 60, total % 1000000)

theorem offset_lt (o : Offset) : o.micros.natAbs < 86400000000 := by
  have hlower := o.lower
  have hupper := o.upper
  unfold dayMicros at hlower hupper
  omega

theorem encode_sign (negative : Prop) [Decidable negative] (cs : List Char) :
    encodeChars ((if negative then '-' else '+') :: cs) =
      signByte (decide negative) :: encodeChars cs := by
  by_cases h : negative
  · rw [if_pos h, decide_eq_true h, encodeChars_cons_ascii (by decide)]
    rfl
  · rw [if_neg h, decide_eq_false h, encodeChars_cons_ascii (by decide)]
    rfl

theorem encode_offset (o : Offset) :
    encodeChars o.chars = signByte (o.micros < 0) :: clockBytes (o.micros.natAbs / 3600000000)
      (o.micros.natAbs / 60000000 % 60) (offsetSeconds o.micros.natAbs) := by
  have htotal := offset_lt o
  unfold Offset.chars clockBytes offsetSeconds
  generalize o.micros.natAbs = total at htotal
  simp only [List.append_assoc, List.cons_append]
  rw [encode_sign, encode_two_mark (by omega) (by decide), encodeChars_append,
    encode_two (by omega)]
  congr 4
  split
  · rfl
  · rw [encodeChars_cons_ascii (by decide), encodeChars_append, encode_two (by omega),
      encode_fraction (by omega)]
    rfl

theorem offsetSeconds_getD (total : Nat) :
    (offsetSeconds total).getD (0, 0) = (total / 1000000 % 60, total % 1000000) := by
  unfold offsetSeconds
  split
  · rename_i hzero
    rw [hzero.1, hzero.2]
    rfl
  · rfl

/-- An offset is read back, if reading can give it at all. -/
theorem offset_encode {o : Offset} (h : o.IsReadable) :
    offset? (encodeChars o.chars) = some o.micros := by
  have htotal := offset_lt o
  have hseconds : ∀ s ∈ offsetSeconds o.micros.natAbs, s.1 < 100 ∧ s.2 < 1000000 := by
    intro s hs
    have hgetD := offsetSeconds_getD o.micros.natAbs
    rw [Option.mem_def.mp hs, Option.getD_some] at hgetD
    rw [hgetD]
    omega
  rw [encode_offset, offset_signed (clock_clockBytes (by omega) (by omega) hseconds) rfl,
    offsetSeconds_getD, offsetMicros, Clock.total]
  unfold Offset.IsReadable at h
  -- hours, minutes, seconds and their fraction make up the whole
  have hwhole : ((o.micros.natAbs / 3600000000 * 60 + o.micros.natAbs / 60000000 % 60) * 60 +
      o.micros.natAbs / 1000000 % 60) * 1000000 + o.micros.natAbs % 1000000 = o.micros.natAbs := by
    omega
  rw [hwhole]
  by_cases hnegative : o.micros < 0
  · rw [decide_eq_true hnegative, if_neg (by omega), if_pos rfl]
    congr 1
    omega
  · rw [decide_eq_false hnegative]
    split
    · congr 1
      omega
    · rw [if_neg Bool.false_ne_true]
      congr 1
      omega

/-- The numbers of a local time, whatever its offset is written as. -/
theorem numbersOf_local (wall : LocalTime) {separator : Char} (hseparator : separator.toNat < 128)
    {cs : List Char} {mark : UInt8} {tail : List UInt8} {micros : Int}
    (hencode : encodeChars cs = mark :: tail) (hmark : opensOffset mark = true)
    (hoffset : offset? (mark :: tail) = some micros) :
    numbersOf? (encodeChars (wall.date.chars ++ separator :: wall.time.chars ++ cs)) =
      some ⟨wall.date.year, wall.date.month, wall.date.day,
        ⟨wall.time.hour, wall.time.minute, wall.time.second, wall.time.micros, false⟩,
        some micros⟩ := by
  have hyear := wall.date.year_range
  have hmonth := wall.date.month_range
  have hday := wall.date.day_range
  have hlength := monthLength_le wall.date.year wall.date.month
  have hhour := wall.time.hour_lt
  have hminute := wall.time.minute_lt
  have hsecond := wall.time.second_lt
  have hclock := clock_clockBytes (show wall.time.hour < 100 by omega)
    (show wall.time.minute < 100 by omega)
    (show ∀ s ∈ some (wall.time.second, wall.time.micros), s.1 < 100 ∧ s.2 < 1000000 by
      rintro _ ⟨⟩
      exact ⟨by omega, wall.time.micros_lt⟩)
  have htime := time_offset (fun b hb => not_opensOffset_clockBytes hb) hclock hmark hoffset
  rw [List.append_assoc, List.cons_append, encodeChars_append, encode_date,
    encodeChars_cons_ascii hseparator, encodeChars_append, encode_clock, hencode]
  exact numbersOf_dateBytes (by omega) (by omega) (by omega) hseparator htime

/-- The numbers of a written timestamp are those of the timestamp. -/
theorem numbersOf_encode {t : Timestamp} (h : t.offset.IsReadable) {separator : Char}
    (hseparator : separator.toNat < 128) :
    numbersOf? (encodeChars (t.chars separator)) =
      some ⟨t.wall.date.year, t.wall.date.month, t.wall.date.day,
        ⟨t.wall.time.hour, t.wall.time.minute, t.wall.time.second, t.wall.time.micros, false⟩,
        some t.offset.micros⟩ := by
  have hoffset := offset_encode h
  rw [encode_offset] at hoffset
  exact numbersOf_local t.wall hseparator (encode_offset t.offset) (opensOffset_signByte _) hoffset

theorem check_numbers (t : Timestamp) :
    Numbers.check ⟨t.wall.date.year, t.wall.date.month, t.wall.date.day,
      ⟨t.wall.time.hour, t.wall.time.minute, t.wall.time.second, t.wall.time.micros, false⟩,
      some t.offset.micros⟩ = .ok ⟨t.wall, some t.offset⟩ := by
  obtain ⟨⟨date, time⟩, offset⟩ := t
  have hoffset : Offset.of? offset.micros = some offset := dif_pos ⟨offset.lower, offset.upper⟩
  have hdate : Date.of? date.year date.month date.day = .ok date := by
    rw [Date.of?, dif_pos date.year_range, dif_pos date.month_range, dif_pos date.day_range]
  have htime : ClockTime.of? time.hour time.minute time.second time.micros = .ok time := by
    rw [ClockTime.of?, dif_pos time.hour_lt, dif_pos time.minute_lt, dif_pos time.second_lt]
    simp only [Nat.mod_eq_of_lt time.micros_lt]
  unfold Numbers.check
  simp only [hoffset, hdate, htime]
  rfl

end Iso

namespace Timestamp

/-- The characters that timestamps are written with. -/
def IsWritten (c : Char) : Prop := c.isDigit = true ∨ c ∈ ['-', ':', '.', '+', 'T']

instance (c : Char) : Decidable (IsWritten c) := inferInstanceAs (Decidable (_ ∨ _))

theorem isWritten_paddedChars (width n : Nat) : ∀ c ∈ paddedChars width n, IsWritten c := by
  intro c hc
  rcases List.mem_append.mp hc with hc | hc
  · rw [List.eq_of_mem_replicate hc]
    exact .inl rfl
  · have hdigits : c ∈ Nat.toDigits 10 n := hc
    exact .inl (isDigit_of_mem_decimalChars hdigits)

theorem isWritten_fractionChars (micros : Nat) : ∀ c ∈ fractionChars micros, IsWritten c := by
  unfold fractionChars
  split
  · simp
  · exact List.forall_mem_cons.mpr ⟨by decide, isWritten_paddedChars 6 micros⟩

theorem isWritten_date (d : Date) : ∀ c ∈ d.chars, IsWritten c := by
  unfold Date.chars
  simp only [List.append_assoc, List.cons_append, List.forall_mem_append, List.forall_mem_cons]
  exact ⟨isWritten_paddedChars _ _, by decide, isWritten_paddedChars _ _, by decide,
    isWritten_paddedChars _ _⟩

theorem isWritten_clock (t : ClockTime) : ∀ c ∈ t.chars, IsWritten c := by
  unfold ClockTime.chars
  simp only [List.append_assoc, List.cons_append, List.forall_mem_append, List.forall_mem_cons]
  exact ⟨isWritten_paddedChars _ _, by decide, isWritten_paddedChars _ _, by decide,
    isWritten_paddedChars _ _, isWritten_fractionChars _⟩

theorem isWritten_offset (o : Offset) : ∀ c ∈ o.chars, IsWritten c := by
  unfold Offset.chars
  simp only [List.append_assoc, List.cons_append, List.forall_mem_append, List.forall_mem_cons]
  refine ⟨?_, isWritten_paddedChars _ _, by decide, isWritten_paddedChars _ _, ?_⟩
  · split <;> decide
  · split
    · simp
    · simp only [List.forall_mem_append, List.forall_mem_cons]
      exact ⟨by decide, isWritten_paddedChars _ _, isWritten_fractionChars _⟩

theorem not_blank_of_isWritten {c : Char} (h : IsWritten c) : Text.isBlankChar c = false := by
  rcases h with h | h
  · have hrange := toNat_of_isDigit h
    simp only [Text.isBlankChar, Bool.or_eq_false_iff, Bool.and_eq_false_iff,
      decide_eq_false_iff_not, beq_eq_false_iff_ne]
    omega
  · revert h c
    simp only [List.forall_mem_cons]
    exact ⟨rfl, rfl, rfl, rfl, rfl, nofun⟩

theorem plain_of_isWritten {c : Char} (h : IsWritten c) : Text.isBlankChar c = false ∧ c ≠ '[' := by
  refine ⟨not_blank_of_isWritten h, ?_⟩
  rintro rfl
  exact absurd h (by decide)

/-- A date and a time with something between them, be it white space, are a bare text. -/
theorem isBare_chars (t : Timestamp) {separator : Char} (hseparator : separator ≠ '[') :
    IsBare (t.chars separator) := by
  have hdate : ∀ c ∈ t.wall.date.chars, Text.isBlankChar c = false ∧ c ≠ '[' :=
    fun c hc => plain_of_isWritten (isWritten_date _ c hc)
  have hrest : ∀ c ∈ t.wall.time.chars ++ t.offset.chars, Text.isBlankChar c = false ∧ c ≠ '[' := by
    intro c hc
    rcases List.mem_append.mp hc with hc | hc
    · exact plain_of_isWritten (isWritten_clock _ c hc)
    · exact plain_of_isWritten (isWritten_offset _ c hc)
  unfold Timestamp.chars
  rw [List.append_assoc, List.cons_append]
  refine .join hdate ?_ hseparator hrest ?_
  · simp [Date.chars]
  · simp [Offset.chars]

/-- Reading a bare text comes down to the check of the numbers. -/
theorem read_checked {cs : List Char} {n : Iso.Numbers} (hbare : IsBare cs)
    (hnumbers : Iso.numbersOf? (encodeChars cs) = some n) :
    read? (String.ofList cs) =
      n.check.bind fun m => m.timestamp?.elim (.error (.noOffset (String.ofList cs))) .ok := by
  have hmoment : Moment.read? (String.ofList cs) = n.check := by
    unfold Moment.read? Utf8.encode
    rw [String.toList_ofList, hnumbers]
  rw [read_left (by rw [String.toList_ofList, hbare.alone]), hmoment]

/-- A timestamp is read from its numbers in a bare text. -/
theorem read_numbers {t : Timestamp} {cs : List Char} (hbare : IsBare cs)
    (hnumbers : Iso.numbersOf? (encodeChars cs) =
      some ⟨t.wall.date.year, t.wall.date.month, t.wall.date.day,
        ⟨t.wall.time.hour, t.wall.time.minute, t.wall.time.second, t.wall.time.micros, false⟩,
        some t.offset.micros⟩) : read? (String.ofList cs) = .ok t := by
  rw [read_checked hbare hnumbers, Iso.check_numbers]
  rfl

/-- **A timestamp is read back** from its characters, if reading can give its offset at all,
whatever stands between date and time. -/
theorem read_chars {t : Timestamp} (h : t.offset.IsReadable) {separator : Char}
    (hseparator : separator.toNat < 128) (hbracket : separator ≠ '[') :
    read? (String.ofList (t.chars separator)) = .ok t :=
  read_numbers (isBare_chars t hbracket) (Iso.numbersOf_encode h hseparator)

theorem read_write {t : Timestamp} (h : t.offset.IsReadable) : read? t.write = .ok t :=
  read_chars h (by decide) (by decide)

end Timestamp

/-! ## The offsets of timestamps that have been read -/

namespace Iso

theorem offset_readable {s : List UInt8} {micros : Int} (h : offset? s = some micros) :
    micros = 0 ∨ 1000000 ≤ micros.natAbs := by
  unfold offset? at h
  split at h
  · cases h
  · split at h
    · split at h
      · exact .inl (Option.some.inj h).symm
      · cases h
    · obtain ⟨c, -, h⟩ := Option.bind_eq_some_iff.mp h
      split at h
      · cases h
      · obtain rfl := Option.some.inj h
        unfold offsetMicros
        split
        · exact .inl rfl
        · split <;> omega

/-- The offset of a time stands at the end of its text, behind the first byte that may open one. -/
theorem offset_of_time {s : List UInt8} {c : Clock} {micros : Int}
    (h : time? s = some (c, some micros)) :
    ∃ mark tail, mark ∈ s ∧ opensOffset mark = true ∧ offset? (mark :: tail) = some micros := by
  unfold time? at h
  obtain ⟨clock, -, h⟩ := Option.bind_eq_some_iff.mp h
  cases hrest : s.dropWhile fun b => !opensOffset b with
  | nil =>
      rw [hrest] at h
      dsimp only at h
      split at h <;> cases h
  | cons mark tail =>
      rw [hrest] at h
      obtain ⟨o, hoffset, h⟩ := Option.bind_eq_some_iff.mp h
      cases h
      have hmark := List.head_dropWhile_not (fun b => !opensOffset b) (l := s) (by simp [hrest])
      simp only [hrest, List.head_cons, Bool.not_eq_false'] at hmark
      have hmem : mark ∈ s.dropWhile fun b => !opensOffset b := by
        rw [hrest]
        exact List.mem_cons_self
      exact ⟨mark, tail, (List.dropWhile_suffix _).subset hmem, hmark, hoffset⟩

theorem dateLength_ge {s : List UInt8} {length : Nat} (h : dateLength? s = some length) :
    7 ≤ length := by
  unfold dateLength? at h
  grind

/-- The offset of a point in time is opened behind the date, which has seven bytes at least. -/
theorem offset_of_numbers {s : List UInt8} {n : Numbers} {micros : Int}
    (h : numbersOf? s = some n) (hmicros : n.offset? = some micros) :
    ∃ mark tail, mark ∈ s.drop 7 ∧ opensOffset mark = true ∧
      offset? (mark :: tail) = some micros := by
  unfold numbersOf? at h
  split at h
  · cases h
  · obtain ⟨length, hlength, h⟩ := Option.bind_eq_some_iff.mp h
    obtain ⟨⟨year, month, day⟩, -, h⟩ := Option.bind_eq_some_iff.mp h
    dsimp only at h
    split at h
    · cases h
      cases hmicros
    · rename_i b rest hrest
      obtain ⟨⟨clock, o⟩, htime, h⟩ := Option.bind_eq_some_iff.mp h
      cases h
      cases hmicros
      obtain ⟨mark, tail, hmem, hmark, hoffset⟩ := offset_of_time htime
      refine ⟨mark, tail, ?_, hmark, hoffset⟩
      have hbehind : mark ∈ s.drop length := by
        rw [hrest]
        exact List.mem_cons_of_mem b (List.mem_of_mem_drop hmem)
      exact (List.drop_suffix_drop_left s (dateLength_ge hlength)).subset hbehind

/-- What has passed the checks is made of the numbers. -/
theorem check_ok {n : Numbers} {m : Moment} (h : n.check = .ok m) :
    Date.of? n.year n.month n.day = .ok m.wall.date ∧
      ClockTime.of? n.clock.hour n.clock.minute n.clock.second n.clock.micros = .ok m.wall.time ∧
      n.offset? = m.offset?.map Offset.micros := by
  -- behind the offset, date and time are checked alike, whether there is an offset or none
  have hrest : ∀ {offset? : Option Offset},
      (do
        let date ← (Date.of? n.year n.month n.day).mapError MomentError.field
        let time ← (ClockTime.of? n.clock.hour n.clock.minute n.clock.second
          n.clock.micros).mapError .field
        return (⟨⟨date, time⟩, offset?⟩ : Moment)) = .ok m →
      Date.of? n.year n.month n.day = .ok m.wall.date ∧
        ClockTime.of? n.clock.hour n.clock.minute n.clock.second n.clock.micros =
          .ok m.wall.time ∧ m.offset? = offset? := by
    intro offset? h
    obtain ⟨date, hdate, h⟩ := exists_of_bind_ok h
    obtain ⟨time, htime, h⟩ := exists_of_bind_ok h
    cases h
    exact ⟨eq_ok_of_mapError hdate, eq_ok_of_mapError htime, rfl⟩
  unfold Numbers.check at h
  cases hmicros : n.offset? with
  | none =>
      rw [hmicros] at h
      obtain ⟨hdate, htime, hoffset⟩ := hrest h
      exact ⟨hdate, htime, by rw [hoffset]; rfl⟩
  | some micros =>
      rw [hmicros] at h
      dsimp only at h
      unfold Offset.of? at h
      by_cases hfits : -dayMicros < micros ∧ micros < dayMicros
      · rw [dif_pos hfits] at h
        obtain ⟨hdate, htime, hoffset⟩ := hrest h
        exact ⟨hdate, htime, by rw [hoffset]; rfl⟩
      · rw [dif_neg hfits] at h
        cases h

end Iso

/-- The numbers that a timestamp is read from; its offset is among them. -/
theorem Timestamp.numbers_of_read {text : String} {t : Timestamp} (h : read? text = .ok t) :
    ∃ n, Iso.numbersOf? (encodeChars
      (withoutZone (Text.trimChars Text.isBlankChar text.toList))) = some n ∧
      n.offset? = some t.offset.micros := by
  rw [read_left rfl] at h
  obtain ⟨moment, hmoment, h⟩ := exists_of_bind_ok h
  have hoffset : moment.offset? = some t.offset := by
    obtain ⟨wall, offset?⟩ := moment
    cases offset? with
    | none => cases h
    | some offset =>
        cases h
        rfl
  unfold Moment.read? Utf8.encode at hmoment
  rw [String.toList_ofList] at hmoment
  split at hmoment
  · cases hmoment
  · rename_i n hn
    obtain ⟨-, -, hmicros⟩ := Iso.check_ok hmoment
    rw [hoffset, Option.map_some] at hmicros
    exact ⟨n, hn, hmicros⟩

/-- A bare text has no offset if nothing opens one behind the first seven bytes. -/
theorem Timestamp.read_unmarked {text : String} (hbare : IsBare text.toList)
    (h : ∀ b ∈ (encodeChars text.toList).drop 7, Iso.opensOffset b = false) (t : Timestamp) :
    read? text ≠ .ok t := by
  intro hread
  obtain ⟨n, hn, hmicros⟩ := numbers_of_read hread
  rw [hbare.alone] at hn
  obtain ⟨mark, tail, hmem, hmark, -⟩ := Iso.offset_of_numbers hn hmicros
  rw [h mark hmem] at hmark
  cases hmark

/-- Whatever text a timestamp is read from, its offset is one that reading gives. -/
theorem Timestamp.offset_of_read {text : String} {t : Timestamp} (h : read? text = .ok t) :
    t.offset.IsReadable := by
  obtain ⟨n, hn, hmicros⟩ := numbers_of_read h
  obtain ⟨mark, tail, -, -, hoffset⟩ := Iso.offset_of_numbers hn hmicros
  exact Iso.offset_readable hoffset

/-- **What has been read is read again** from either of its written forms: the local time to the
microsecond and the offset, whatever form of ISO 8601 they came from. -/
theorem Timestamp.read_again {text : String} {t : Timestamp} (h : read? text = .ok t) :
    read? t.write = .ok t ∧ read? t.writeSpaced = .ok t := by
  have hoffset := offset_of_read h
  constructor
  · exact read_write hoffset
  · exact read_chars hoffset (by decide) (by decide)

/-- The Thursday of a week, which is a leap day, with a comma in its seconds, seven digits behind it
and the widest of all offsets. -/
theorem Timestamp.read_again_leap_day :
    let text := "\u00a02024-W09-4x10:30:15,1234567-23:59:59.999999[Europe/Paris]\n"
    let t : Timestamp := ⟨⟨⟨2024, 2, 29, by decide, by decide, by decide⟩,
      ⟨10, 30, 15, 123456, by decide, by decide, by decide, by decide⟩⟩,
      ⟨-86399999999, by decide, by decide⟩⟩
    read? text = .ok t ∧ t.write = "2024-02-29T10:30:15.123456-23:59:59.999999" ∧
      t.writeSpaced = "2024-02-29 10:30:15.123456-23:59:59.999999" ∧
      read? t.write = .ok t ∧ read? t.writeSpaced = .ok t := by
  intro text t
  have hread : read? text = .ok t := toOption_eq_some.mp (by decide +kernel)
  exact ⟨hread, by decide +kernel, by decide +kernel, read_again hread⟩

end TimetableFeed
