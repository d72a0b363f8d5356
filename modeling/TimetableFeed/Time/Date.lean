/-!
# Calendar dates

The proleptic Gregorian calendar for the years 1 to 9999, the number of a day counted from 1 January
of year 1, and the week dates of ISO 8601.

Main statement: `monthLength_le`.
-/

namespace TimetableFeed

/-- Every fourth year, of the full centuries every fourth one. -/
def isLeapYear (year : Nat) : Bool := year % 4 == 0 && (year % 100 != 0 || year % 400 == 0)

def monthLength (year month : Nat) : Nat :=
  if month = 2 then if isLeapYear year then 29 else 28
  else if month = 4 ∨ month = 6 ∨ month = 9 ∨ month = 11 then 30
  else 31

def daysBeforeYear (year : Nat) : Nat :=
  (year - 1) * 365 + (year - 1) / 4 - (year - 1) / 100 + (year - 1) / 400

def daysBeforeMonth (year : Nat) : Nat → Nat
  | 0 => 0
  | 1 => 0
  | month + 2 => daysBeforeMonth year (month + 1) + monthLength year (month + 1)

theorem monthLength_le (year month : Nat) : monthLength year month ≤ 31 := by
  unfold monthLength
  repeat' split
  all_goals omega

structure Date where
  year : Nat
  month : Nat
  day : Nat
  year_range : 1 ≤ year ∧ year ≤ 9999
  month_range : 1 ≤ month ∧ month ≤ 12
  day_range : 1 ≤ day ∧ day ≤ monthLength year month
  deriving DecidableEq, Repr

/-- Why numbers do not make a date and a time of day. -/
inductive FieldError where
  | year (given : Nat)
  | month
  | day
  | hour
  | minute
  | second
  deriving DecidableEq, Repr

def FieldError.message : FieldError → String
  | .year given => s!"year {given} is out of range"
  | .month => "month must be in 1..12"
  | .day => "day is out of range for month"
  | .hour => "hour must be in 0..23"
  | .minute => "minute must be in 0..59"
  | .second => "second must be in 0..59"

namespace Date

/-- The date with these numbers, or the first number that is out of range. -/
def of? (year month day : Nat) : Except FieldError Date :=
  if hy : 1 ≤ year ∧ year ≤ 9999 then
    if hm : 1 ≤ month ∧ month ≤ 12 then
      if hd : 1 ≤ day ∧ day ≤ monthLength year month then .ok ⟨year, month, day, hy, hm, hd⟩
      else .error .day
    else .error .month
  else .error (.year year)

/-- The number of the day; 1 January of year 1 has the number 1. -/
def ordinal (d : Date) : Nat :=
  daysBeforeYear d.year + daysBeforeMonth d.year d.month + d.day

end Date

/-- The year of the day with the number `ordinal`. The mean length of a year gives it, or misses it
by one. -/
def yearOfOrdinal (ordinal : Nat) : Nat :=
  let guess := (ordinal - 1) * 400 / 146097 + 1
  if ordinal ≤ daysBeforeYear guess then guess - 1
  else if daysBeforeYear (guess + 1) < ordinal then guess + 1
  else guess

/-- The month and the day of the month of the `n`th day of a year, looked for from `month` on in at
most `months` months. -/
def monthAndDay (year month n : Nat) : Nat → Nat × Nat
  | 0 => (month, n)
  | months + 1 =>
    if n ≤ monthLength year month then (month, n)
    else monthAndDay year (month + 1) (n - monthLength year month) months

/-- Year, month and day of the day with the number `ordinal`, also beyond year 9999. -/
def fieldsOfOrdinal (ordinal : Nat) : Nat × Nat × Nat :=
  let year := yearOfOrdinal ordinal
  (year, monthAndDay year 1 (ordinal - daysBeforeYear year) 11)

/-- The day with the number `ordinal`, if it lies in the years 1 to 9999. -/
def Date.ofOrdinal? (ordinal : Nat) : Option Date :=
  let (year, month, day) := fieldsOfOrdinal ordinal
  (Date.of? year month day).toOption

/-- The day of the week on which a year begins, Monday being 0. -/
def firstWeekday (year : Nat) : Nat := daysBeforeYear year % 7

/-- The year has 53 weeks: it begins on a Thursday, or is a leap year and begins on a Wednesday. -/
def isLongYear (year : Nat) : Bool :=
  firstWeekday year == 3 || (firstWeekday year == 2 && isLeapYear year)

/-- The number of the Monday of week 1, which is the week with the first Thursday. -/
def firstMonday (year : Nat) : Nat :=
  let weekday := firstWeekday year
  if weekday ≤ 3 then daysBeforeYear year + 1 - weekday else daysBeforeYear year + 8 - weekday

/-- Year, month and day of a week date; none if the year has no such week or the week no such day.
Days before year 1 have no month. -/
def weekDate? (year week day : Nat) : Option (Nat × Nat × Nat) :=
  if 1 ≤ week ∧ (week ≤ 52 ∨ (week = 53 ∧ isLongYear year)) ∧ 1 ≤ day ∧ day ≤ 7 then
    if year = 0 then some (1, 0, 0)
    else some (fieldsOfOrdinal (firstMonday year + (week - 1) * 7 + (day - 1)))
  else none

end TimetableFeed
