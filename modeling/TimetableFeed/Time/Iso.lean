import TimetableFeed.Text.Ascii
import TimetableFeed.Text.Blank
import TimetableFeed.Text.Quoted
import TimetableFeed.Text.Utf8
import TimetableFeed.Time.Timestamp

/-!
# Reading ISO 8601

The forms of ISO 8601 that feeds use for a point in time: a calendar or week date, in the extended
form (with hyphens) or the basic one; any one character between date and time; hours, or hours and
minutes, or also seconds, with or without colons; a fraction of a second of any length after a point
or comma, of which six digits count; and an offset, `Z` or a sign and a time. A zone id in square
brackets may follow: the offset wins.

The text is read as UTF-8. A zero byte counts as the end of what it ends.

Main definitions: `Moment.read?`, `Timestamp.read?`.
-/

namespace TimetableFeed

inductive MomentError where
  | malformed (text : String)
  | noOffset (text : String)
  | offset (micros : Int)
  | field (error : FieldError)
  deriving DecidableEq, Repr

/-- An offset that is a day or more, by its days and seconds, the latter never negative. -/
def wideOffsetText (micros : Int) : String :=
  let parts := [("days", micros / dayMicros), ("seconds", micros % dayMicros / 1000000),
    ("microseconds", micros % 1000000)]
  let shown := parts.filter fun part => part.2 ≠ 0
  "datetime.timedelta(" ++
    ", ".intercalate (shown.map fun part => part.1 ++ "=" ++ integerText part.2) ++ ")"

def MomentError.message : MomentError → String
  | .malformed text => "Invalid isoformat string: " ++ Text.quoted text
  | .noOffset text => "timestamp has no UTC offset: " ++ Text.quoted text
  | .offset micros =>
    "offset must be a timedelta strictly between -timedelta(hours=24) and timedelta(hours=24), not "
      ++ wideOffsetText micros ++ "."
  | .field error => error.message

namespace Iso

open TimetableFeed.Text (asciiByte)

def digit? (b : UInt8) : Option Nat := Text.asciiDigit? b.toNat

/-- Takes `count` digits off the front; `total` is the number that the digits before them write. -/
def digitsFrom (total : Nat) : Nat → List UInt8 → Option (Nat × List UInt8)
  | 0, s => some (total, s)
  | _ + 1, [] => none
  | count + 1, b :: rest => (digit? b).bind fun d => digitsFrom (total * 10 + d) count rest

def digits? (count : Nat) (s : List UInt8) : Option (Nat × List UInt8) := digitsFrom 0 count s

def skip? (c : Char) : List UInt8 → Option (List UInt8)
  | [] => none
  | b :: rest => if b = asciiByte c then some rest else none

/-! ## Dates -/

def isAt (s : List UInt8) (i : Nat) (c : Char) : Bool := s[i]? == some (asciiByte c)

def digitAt (s : List UInt8) (i : Nat) : Bool := (s[i]?.bind digit?).isSome

/-- The length of the date at the front of a text of seven bytes or more. -/
def dateLength? (s : List UInt8) : Option Nat :=
  if s.length = 7 then some 7
  else if isAt s 4 '-' then
    if isAt s 5 'W' then
      -- ten bytes, or eight if the time follows the week
      if isAt s 8 '-' then
        if s.length = 9 then none else if digitAt s 10 then some 8 else some 10
      else some 8
    else some 10
  else if isAt s 4 'W' then
    -- the digits after the week tell whether the day of the week is among them
    let stop := 7 + ((s.drop 7).takeWhile fun b => (digit? b).isSome).length
    if stop < 9 then some stop else if stop % 2 = 0 then some 7 else some 8
  else some 8

/-- The year, month and day of a date of `length` bytes at the front. -/
def date? (length : Nat) (s : List UInt8) : Option (Nat × Nat × Nat) := do
  let (year, s) ← digits? 4 s
  let extended := isAt s 0 '-'
  let s := if extended then s.drop 1 else s
  if isAt s 0 'W' then
    let (week, s) ← digits? 2 (s.drop 1)
    if (if extended then 8 else 7) < length then
      let s ← if extended then skip? '-' s else some s
      let (day, _) ← digits? 1 s
      weekDate? year week day
    else weekDate? year week 1
  else
    let (month, s) ← digits? 2 s
    let s ← if extended then skip? '-' s else some s
    let (day, _) ← digits? 2 s
    return (year, month, day)

/-! ## Times -/

/-- Hours, minutes, seconds and microseconds as read, of any size; and whether something that is not
a zero byte follows. -/
structure Clock where
  hour : Nat
  minute : Nat
  second : Nat
  micros : Nat
  leftover : Bool
  deriving DecidableEq, Repr

/-- The text ends here, or a zero byte ends it. -/
def isOver (s : List UInt8) : Bool := s.head?.all (· == 0)

/-- The microseconds that the digits at the front give as a fraction, and the rest. -/
def fraction? (s : List UInt8) : Option (Nat × List UInt8) := do
  let count := min 6 s.length
  let (value, rest) ← digits? count s
  return (value * tenPow (6 - count), rest.dropWhile fun b => (digit? b).isSome)

/-- Up to `count` numbers of two digits, then perhaps a fraction, of which the microseconds and the
rest are given. -/
def numbers? (colons : Option Bool) : Nat → List UInt8 → Option (List Nat × Nat × List UInt8)
  -- what follows the last number is a fraction even without its mark
  | 0, s => (fraction? s).map fun (micros, rest) => ([], micros, rest)
  | count + 1, s => do
    let (value, s) ← digits? 2 s
    match s with
    | [] => return ([value], 0, [])
    | [b] => return ([value], 0, [b])
    | b :: rest =>
      -- the first byte after the first number tells whether colons separate the numbers
      let colons := colons.getD (b == asciiByte ':')
      let (values, micros, rest) ←
        if colons && b == asciiByte ':' then numbers? (some colons) count rest
        else if b == asciiByte '.' || b == asciiByte ',' then
          (fraction? rest).map fun (micros, rest) => ([], micros, rest)
        else if colons then none
        else numbers? (some colons) count (b :: rest)
      return (value :: values, micros, rest)

def clock? (s : List UInt8) : Option Clock := do
  let (values, micros, rest) ← numbers? none 3 s
  return ⟨values.getD 0 0, values.getD 1 0, values.getD 2 0, micros, !isOver rest⟩

def Clock.total (c : Clock) : Nat :=
  ((c.hour * 60 + c.minute) * 60 + c.second) * 1000000 + c.micros

/-- An offset as written: one of less than a second is none. -/
def offsetMicros (negative : Bool) (c : Clock) : Int :=
  if c.total < 1000000 then 0 else if negative then -(c.total : Int) else c.total

/-- The offset at the front: `Z`, or a sign and a time. -/
def offset? : List UInt8 → Option Int
  | [] => none
  | b :: rest =>
    if b = asciiByte 'Z' then if isOver rest then some 0 else none
    else do
      let c ← clock? rest
      if c.leftover then none else return offsetMicros (b == asciiByte '-') c

def opensOffset (b : UInt8) : Bool := b == asciiByte '+' || b == asciiByte '-' || b == asciiByte 'Z'

/-- A time, and the microseconds of its offset if it has one. -/
def time? (s : List UInt8) : Option (Clock × Option Int) := do
  let c ← clock? (s.takeWhile fun b => !opensOffset b)
  match s.dropWhile fun b => !opensOffset b with
  | [] => if c.leftover then none else return (c, none)
  -- what the time leaves over does not count before an offset
  | tail => return (c, some (← offset? tail))

def charLength (b : UInt8) : Nat :=
  if b.toNat / 16 = 0xE then 3 else if b.toNat / 16 = 0xF then 4
  else if b.toNat / 16 = 0xC ∨ b.toNat / 16 = 0xD then 2 else 1

/-- The numbers of a point in time, none of them checked. -/
structure Numbers where
  year : Nat
  month : Nat
  day : Nat
  clock : Clock
  offset? : Option Int
  deriving DecidableEq, Repr

def numbersOf? (s : List UInt8) : Option Numbers := do
  if s.length < 7 then none
  else
    let length ← dateLength? s
    let (year, month, day) ← date? length s
    match s.drop length with
    | [] => return ⟨year, month, day, ⟨0, 0, 0, 0, false⟩, none⟩
    | b :: rest =>
      let (clock, offset) ← time? (rest.drop (charLength b - 1))
      return ⟨year, month, day, clock, offset⟩

/-- Checks the numbers: the offset, then date and time from the year to the second. -/
def Numbers.check (n : Numbers) : Except MomentError Moment := do
  let offset? ←
    match n.offset? with
    | none => pure none
    | some micros =>
      match Offset.of? micros with
      | some offset => pure (some offset)
      | none => throw (.offset micros)
  let date ← (Date.of? n.year n.month n.day).mapError .field
  let time ←
    (ClockTime.of? n.clock.hour n.clock.minute n.clock.second n.clock.micros).mapError .field
  return ⟨⟨date, time⟩, offset?⟩

end Iso

def Moment.read? (text : String) : Except MomentError Moment :=
  match Iso.numbersOf? (Utf8.encode text) with
  | none => .error (.malformed text)
  | some numbers => numbers.check

/-! ## Zone ids -/

/-- The text without a zone id at its end: brackets with no closing bracket between them. The first
opening bracket from which on there is no closing one but the last character opens the zone id. -/
def withoutZone : List Char → List Char
  | [] => []
  | c :: rest =>
    if c = '[' ∧ rest.getLast? = some ']' ∧ rest.dropLast.all (· ≠ ']') then []
    else c :: withoutZone rest

/-- Reads a timestamp: white space around it is dropped, then a zone id at its end. -/
def Timestamp.read? (text : String) : Except MomentError Timestamp := do
  let bare := String.ofList (withoutZone (Text.trimChars Text.isBlankChar text.toList))
  let moment ← Moment.read? bare
  match moment.timestamp? with
  | some t => return t
  | none => throw (.noOffset text)

end TimetableFeed
