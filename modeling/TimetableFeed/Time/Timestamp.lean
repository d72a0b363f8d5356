import TimetableFeed.Time.Date
import TimetableFeed.Time.Duration

/-!
# Timestamps

A date and a time of day, with or without an offset from UTC. A timestamp has an offset and so
denotes an instant, counted exactly in microseconds; two timestamps are compared by their instants,
whatever their offsets.

Main definitions: `Timestamp.instant`, `Timestamp.write`.
-/

namespace TimetableFeed

structure ClockTime where
  hour : Nat
  minute : Nat
  second : Nat
  micros : Nat
  hour_lt : hour < 24
  minute_lt : minute < 60
  second_lt : second < 60
  micros_lt : micros < 1000000
  deriving DecidableEq, Repr

/-- The time of day with these numbers, or the first that is out of range. Microseconds are taken
modulo a million. -/
def ClockTime.of? (hour minute second micros : Nat) : Except FieldError ClockTime :=
  if hh : hour < 24 then
    if hm : minute < 60 then
      if hs : second < 60 then
        .ok ⟨hour, minute, second, micros % 1000000, hh, hm, hs, Nat.mod_lt _ (by decide)⟩
      else .error .second
    else .error .minute
  else .error .hour

def ClockTime.sinceMidnight (t : ClockTime) : Nat :=
  ((t.hour * 60 + t.minute) * 60 + t.second) * 1000000 + t.micros

/-- The time of day so many microseconds after midnight; whole days are left out. -/
def ClockTime.ofMicros (n : Nat) : ClockTime :=
  ⟨n / 3600000000 % 24, n / 60000000 % 60, n / 1000000 % 60, n % 1000000,
    Nat.mod_lt _ (by decide), Nat.mod_lt _ (by decide), Nat.mod_lt _ (by decide),
    Nat.mod_lt _ (by decide)⟩

/-- What a clock on the wall and a calendar show. -/
structure LocalTime where
  date : Date
  time : ClockTime
  deriving DecidableEq, Repr

/-- The microseconds since the beginning of the calendar, by the same clock. -/
def LocalTime.micros (t : LocalTime) : Int :=
  ((t.date.ordinal : Int) - 1) * dayMicros + t.time.sinceMidnight

/-- The local time so many microseconds after the beginning of the calendar, up to year 9999. -/
def LocalTime.ofMicros? (micros : Int) : Option LocalTime :=
  if micros < 0 then none
  else
    (Date.ofOrdinal? ((micros / dayMicros).toNat + 1)).map fun date =>
      ⟨date, .ofMicros (micros % dayMicros).toNat⟩

/-- How far a clock is ahead of UTC: less than a day either way. -/
structure Offset where
  micros : Int
  lower : -dayMicros < micros
  upper : micros < dayMicros
  deriving DecidableEq, Repr

def Offset.utc : Offset := ⟨0, by decide, by decide⟩

instance : Inhabited Offset := ⟨Offset.utc⟩

def Offset.of? (micros : Int) : Option Offset :=
  if h : -dayMicros < micros ∧ micros < dayMicros then some ⟨micros, h.1, h.2⟩ else none

/-- A local time, and the offset if it is known. -/
structure Moment where
  wall : LocalTime
  offset? : Option Offset
  deriving DecidableEq, Repr

/-- A local time with its offset from UTC, which belongs to the timestamp. There are no zones, whose
offset varies with the date, and no second reading of an hour that a clock shows twice. -/
structure Timestamp where
  wall : LocalTime
  offset : Offset
  deriving DecidableEq, Repr

/-- The beginning of 1970, in microseconds since the beginning of the calendar. -/
def unixEpoch : Int := 719162 * dayMicros

def Moment.ofUnix? (micros : Int) : Option Moment :=
  (LocalTime.ofMicros? (unixEpoch + micros)).map fun wall => ⟨wall, some .utc⟩

def Moment.timestamp? (m : Moment) : Option Timestamp :=
  m.offset?.map fun offset => ⟨m.wall, offset⟩

namespace Timestamp

/-- The instant that the timestamp denotes, in microseconds. -/
def instant (t : Timestamp) : Int := t.wall.micros - t.offset.micros

end Timestamp

/-! ## Written form -/

def Date.chars (d : Date) : List Char :=
  paddedChars 4 d.year ++ '-' :: paddedChars 2 d.month ++ '-' :: paddedChars 2 d.day

/-- A fraction of a second, six digits after a point; nothing if there is none. -/
def fractionChars (micros : Nat) : List Char :=
  if micros = 0 then [] else '.' :: paddedChars 6 micros

def ClockTime.chars (t : ClockTime) : List Char :=
  paddedChars 2 t.hour ++ ':' :: paddedChars 2 t.minute ++ ':' :: paddedChars 2 t.second ++
    fractionChars t.micros

/-- Sign, hours and minutes; seconds and their fraction only as far as there are any. -/
def Offset.chars (o : Offset) : List Char :=
  let total := o.micros.natAbs
  let seconds := total / 1000000 % 60
  let micros := total % 1000000
  (if o.micros < 0 then '-' else '+') :: paddedChars 2 (total / 3600000000) ++
    ':' :: paddedChars 2 (total / 60000000 % 60) ++
    (if seconds = 0 ∧ micros = 0 then [] else ':' :: paddedChars 2 seconds ++ fractionChars micros)

/-- The characters of a timestamp, with `separator` between date and time. -/
def Timestamp.chars (separator : Char) (t : Timestamp) : List Char :=
  t.wall.date.chars ++ separator :: t.wall.time.chars ++ t.offset.chars

/-- A timestamp as ISO 8601 has it. -/
def Timestamp.write (t : Timestamp) : String := String.ofList (t.chars 'T')

/-- A timestamp as log lines show it. -/
def Timestamp.writeSpaced (t : Timestamp) : String := String.ofList (t.chars ' ')

/-- An offset in whole minutes: its magnitude is rounded to seconds first, a half upwards, and what
is left beyond the minutes is dropped; the sign stays, also before nought minutes. -/
def Offset.minuteChars (o : Offset) : List Char :=
  let seconds := (o.micros.natAbs + 500000) / 1000000
  let minutes := seconds / 60
  if seconds = 0 then ['Z']
  else
    (if o.micros < 0 then '-' else '+') :: paddedChars 2 (minutes / 60) ++
      ':' :: paddedChars 2 (minutes % 60)

/-- A timestamp as deliveries are written out: UTC as `Z`, other offsets in whole minutes. -/
def Timestamp.writeMinutes (t : Timestamp) : String :=
  String.ofList (t.wall.date.chars ++ 'T' :: t.wall.time.chars ++ t.offset.minuteChars)

end TimetableFeed
