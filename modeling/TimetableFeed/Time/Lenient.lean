import TimetableFeed.Number.Numeral
import TimetableFeed.Number.Quantity
import TimetableFeed.Time.Iso

/-!
# Timestamps given leniently

Data that does not come from a feed may give a timestamp as a text or as a number.

A text is a date with hyphens; then `T`, an underscore or a space; hours and minutes with a colon,
perhaps seconds and a fraction of them; and an offset. Or it is a number in decimal. A number counts
from the beginning of 1970 in UTC: seconds, or milliseconds if it exceeds twenty thousand million.
The calendar of counts begins with a year 0, which can be counted to but has no dates.

Main definitions: `Timestamp.ofText?`, `Timestamp.ofQuantity?`.
-/

namespace TimetableFeed

inductive LenientCause where
  | tooShort
  | leftover
  | yearDigit
  | monthDigit
  | dayDigit
  | hyphen
  | month
  | day
  | yearZero
  | tooEarly
  | tooLate
  | notANumber
  deriving DecidableEq, Repr

def LenientCause.message : LenientCause → String
  | .tooShort => "input is too short"
  | .leftover => "unexpected extra characters at the end of the input"
  | .yearDigit => "invalid character in year"
  | .monthDigit => "invalid character in month"
  | .dayDigit => "invalid character in day"
  | .hyphen => "invalid date separator, expected `-`"
  | .month => "month value is outside expected range of 1-12"
  | .day => "day value is outside expected range"
  | .yearZero => "year 0 is out of range"
  | .tooEarly => "dates before 0000 are not supported as unix timestamps"
  | .tooLate => "dates after 9999 are not supported as unix timestamps"
  | .notANumber => "NaN values not permitted"

/-- Why something is not a timestamp: it gives no time at all, or a time without an offset, or a
time that cannot be read; what cannot be read as a text might also have been meant as a date. -/
inductive LenientError where
  | noTime
  | noOffset
  | time (cause : LenientCause)
  | timeOrDate (cause : LenientCause)
  deriving DecidableEq, Repr

def LenientError.name : LenientError → String
  | .noTime => "datetime_type"
  | .noOffset => "timezone_aware"
  | .time _ => "datetime_parsing"
  | .timeOrDate _ => "datetime_from_date_parsing"

def LenientError.message : LenientError → String
  | .noTime => "Input should be a valid datetime"
  | .noOffset => "Input should have timezone info"
  | .time cause => "Input should be a valid datetime, " ++ cause.message
  | .timeOrDate cause => "Input should be a valid datetime or date, " ++ cause.message

namespace Lenient

open TimetableFeed.Text (asciiByte)

/-! ## Numbers -/

/-- The greatest count of seconds; beyond it a count is one of milliseconds. -/
def mostSeconds : Nat := 20000000000

/-- How many microseconds a count has for each one: those of a millisecond or of a second. -/
def countMicros (isMilliseconds : Bool) : Nat := if isMilliseconds then 1000 else 1000000

/-- The beginning of year 0, in microseconds from the beginning of 1970. -/
def leastMicros : Int := -62167219200 * 1000000

/-- The timestamp in UTC so many microseconds after the beginning of 1970. -/
def ofMicros? (micros : Int) : Except LenientCause Timestamp :=
  if micros < leastMicros then .error .tooEarly
  else if unixEpoch + micros < 0 then .error .yearZero
  else
    match LocalTime.ofMicros? (unixEpoch + micros) with
    | some wall => .ok ⟨wall, .utc⟩
    | none => .error .tooLate

def ofWhole? (count : Int) : Except LenientCause Timestamp :=
  ofMicros? (count * countMicros (mostSeconds < count.natAbs))

/-- The part of a count beyond the whole ones in microseconds. -/
def partMicros (part : Binary64) (unit : Nat) : Nat :=
  -- rounded twice: as a product first, and then to a whole number
  match part.mul (.ofInt unit) with
  | .finite _ mantissa exponent => Binary64.roundMagnitude mantissa exponent
  | _ => 0

/-- The timestamp that a fractional number counts to: the number is rounded down, and what it
exceeds that by is counted on in microseconds. -/
def ofReal? : Binary64 → Except LenientCause Timestamp
  | .nan => .error .notANumber
  | .infinite negative => .error (if negative then .tooEarly else .tooLate)
  | .finite negative mantissa exponent =>
    let units := Binary64.units negative mantissa exponent
    let unit := countMicros (mostSeconds * Binary64.one < units.natAbs)
    let part : Binary64 := .ofRatio false (units % Binary64.one).toNat Binary64.one
    ofMicros? (units / Binary64.one * unit + partMicros part unit)

def digitRun (s : List UInt8) : List Nat × List UInt8 :=
  ((s.takeWhile fun b => (Iso.digit? b).isSome).filterMap Iso.digit?,
    s.dropWhile fun b => (Iso.digit? b).isSome)

/-- Takes a sign off the front; true for less. -/
def sign (s : List UInt8) : Bool × List UInt8 :=
  match Iso.skip? '-' s with
  | some rest => (true, rest)
  | none => (false, (Iso.skip? '+' s).getD s)

def power? (s : List UInt8) : Option Int :=
  match s with
  | [] => some 0
  | b :: s =>
    if b = asciiByte 'e' ∨ b = asciiByte 'E' then
      let (negative, s) := sign s
      match digitRun s with
      | ([], _) => none
      | (_, _ :: _) => none
      | (digits, []) =>
        let power : Int := Numeral.ofDigits digits
        some (if negative then -power else power)
    else none

/-- The number that a text writes, with a sign or without: a whole number of 64 bits; or digits with
a point before, among or after them, and then perhaps a power of ten. -/
def quantity? (s : List UInt8) : Option Quantity :=
  let (negative, s) := sign s
  let (whole, s) := digitRun s
  match Iso.skip? '.' s with
  | some s =>
    let (places, s) := digitRun s
    if whole.isEmpty && places.isEmpty then none
    else (power? s).map fun power =>
      .real (.ofDecimal negative (Numeral.ofDigits (whole ++ places)) (power - places.length))
  | none =>
    let magnitude : Int := Numeral.ofDigits whole
    let n := if negative then -magnitude else magnitude
    if whole.isEmpty ∨ ¬ s.isEmpty then none
    else if -(twoPow 63 : Int) ≤ n ∧ n < twoPow 63 then some (.whole n)
    else none

/-! ## Texts -/

/-- A day of a calendar that has a year 0, a leap year. -/
structure Day where
  year : Nat
  month : Nat
  day : Nat
  deriving DecidableEq, Repr

/-- The date of the day; none in year 0. -/
def Day.date? (d : Day) : Option Date := (Date.of? d.year d.month d.day).toOption

/-- The number that the bytes write; `cause` if one of them is not a digit. -/
def number (cause : LenientCause) (bytes : List UInt8) : Except LenientCause Nat :=
  match Iso.digits? bytes.length bytes with
  | some (n, _) => .ok n
  | none => .error cause

def hyphen (b : UInt8) : Except LenientCause Unit :=
  if b = asciiByte '-' then .ok () else .error .hyphen

/-- The day at the front of a text, and what follows it. -/
def day? : List UInt8 → Except LenientCause (Day × List UInt8)
  | y1 :: y2 :: y3 :: y4 :: h1 :: m1 :: m2 :: h2 :: d1 :: d2 :: rest => do
    let year ← number .yearDigit [y1, y2, y3, y4]
    hyphen h1
    let month ← number .monthDigit [m1, m2]
    hyphen h2
    let day ← number .dayDigit [d1, d2]
    if month < 1 ∨ 12 < month then throw .month
    else if day < 1 ∨ monthLength year month < day then throw .day
    else return (⟨year, month, day⟩, rest)
  | _ => .error .tooShort

/-- The microseconds of a fraction, of which six digits count, and what follows. A point or comma
must have a digit after it. -/
def fraction? : List UInt8 → Option (Nat × List UInt8)
  | [] => some (0, [])
  | b :: s =>
    if b = asciiByte '.' ∨ b = asciiByte ',' then
      match digitRun s with
      | ([], _) => none
      | (digits, rest) =>
        some (Numeral.ofDigits (digits.take 6) * tenPow (6 - digits.length), rest)
    else some (0, b :: s)

/-- The time of day at the front of a text, and what follows it. -/
def clock? (s : List UInt8) : Option (ClockTime × List UInt8) := do
  let (hour, s) ← Iso.digits? 2 s
  let s ← Iso.skip? ':' s
  let (minute, s) ← Iso.digits? 2 s
  match Iso.skip? ':' s with
  | none => return (← (ClockTime.of? hour minute 0 0).toOption, s)
  | some s =>
    let (second, s) ← Iso.digits? 2 s
    let (micros, s) ← fraction? s
    return (← (ClockTime.of? hour minute second micros).toOption, s)

/-- Takes the sign of an offset off the front, for which the mathematical minus sign may stand; true
for less. -/
def offsetSign? (s : List UInt8) : Option (Bool × List UInt8) :=
  let minus := String.utf8EncodeChar '−'
  match Iso.skip? '+' s, Iso.skip? '-' s with
  | some rest, _ => some (false, rest)
  | none, some rest => some (true, rest)
  | none, none => if s.take minus.length = minus then some (true, s.drop minus.length) else none

/-- The offset that a text gives: `Z`, or a sign with hours and minutes, with or without a colon. -/
def offset? (s : List UInt8) : Option Offset :=
  if s = [asciiByte 'Z'] ∨ s = [asciiByte 'z'] then some .utc
  else do
    let (negative, s) ← offsetSign? s
    let (hours, s) ← Iso.digits? 2 s
    let (minutes, s) ← Iso.digits? 2 ((Iso.skip? ':' s).getD s)
    let micros : Int := (hours * 60 + minutes) * 60000000
    if s.isEmpty ∧ minutes < 60 then Offset.of? (if negative then -micros else micros) else none

/-- The byte may stand between date and time. -/
def isSeparator (b : UInt8) : Bool := (['T', 't', ' ', '_'].map asciiByte).contains b

/-- Day and time of a text, with the offset if it has one. -/
def parts? (s : List UInt8) : Option (Day × ClockTime × Option Offset) := do
  let (day, s) ← (day? s).toOption
  match s with
  | [] => none
  | b :: s =>
    if isSeparator b then
      match ← clock? s with
      | (time, []) => return (day, time, none)
      | (time, s) => return (day, time, some (← offset? s))
    else none

/-- What is wrong with a text that is neither a date with a time nor a number. -/
def errorOf (s : List UInt8) : LenientError :=
  match day? s with
  | .ok (_, []) => .noOffset
  | .ok (_, _ :: _) => .timeOrDate .leftover
  | .error cause => .timeOrDate cause

end Lenient

/-- The timestamp that a text gives: a date with a time, or a number. -/
def Timestamp.ofText? (text : String) : Except LenientError Timestamp :=
  let s := Utf8.encode text
  match Lenient.parts? s, Lenient.quantity? s with
  | some (_, _, none), _ => .error .noOffset
  | some (day, time, some offset), _ =>
    match day.date? with
    | some date => .ok ⟨⟨date, time⟩, offset⟩
    | none => .error (.time .yearZero)
  | none, some (.whole count) => (Lenient.ofWhole? count).mapError fun
    | .yearZero => .time .yearZero
    | cause => .timeOrDate cause
  | none, some (.real x) => (Lenient.ofReal? x).mapError fun
    | .yearZero => .time .yearZero
    -- what the number lacks is not told, but what the text lacks as a date
    | _ => Lenient.errorOf s
  | none, _ => .error (Lenient.errorOf s)

/-- The timestamp that a number gives; truth values give none. -/
def Timestamp.ofQuantity? : Quantity → Except LenientError Timestamp
  | .flag _ => .error .noTime
  | .real x => (Lenient.ofReal? x).mapError .time
  | .whole count =>
    -- whole numbers beyond the range of fractional ones are none
    match Binary64.ofInt count with
    | .infinite _ => .error .noTime
    | _ => (Lenient.ofWhole? count).mapError .time

end TimetableFeed
