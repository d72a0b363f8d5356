import TimetableFeed.Number.Layout

/-!
# Durations

A span of time in whole microseconds, of less than a thousand million days either way.
-/

namespace TimetableFeed

/-- The microseconds of a day. -/
def dayMicros : Int := 86400000000

structure Duration where
  micros : Int
  lower : -999999999 * dayMicros ≤ micros
  upper : micros < 1000000000 * dayMicros
  deriving DecidableEq, Repr

inductive DurationError where
  /-- The number of days does not even fit into 32 bits. -/
  | uncountable
  | tooLong (days : Int)
  | notANumber
  | infinite
  deriving DecidableEq, Repr

def DurationError.message : DurationError → String
  | .uncountable => "Python int too large to convert to C int"
  | .tooLong days => s!"days={integerText days}; must have magnitude <= 999999999"
  | .notANumber => "cannot convert float NaN to integer"
  | .infinite => "cannot convert float infinity to integer"

namespace Duration

def ofMicros? (micros : Int) : Except DurationError Duration :=
  if h : -999999999 * dayMicros ≤ micros ∧ micros < 1000000000 * dayMicros then
    .ok ⟨micros, h.1, h.2⟩
  else
    let days := micros / dayMicros
    if -2147483648 ≤ days ∧ days ≤ 2147483647 then .error (.tooLong days) else .error .uncountable

def ofParts? (days seconds micros : Int) : Except DurationError Duration :=
  ofMicros? (days * dayMicros + seconds * 1000000 + micros)

/-- The duration of so many days. The whole days count exactly; the microseconds of the rest are
rounded to the format of the number first, and then to a whole number. -/
def ofDays? : Binary64 → Except DurationError Duration
  | .nan => .error .notANumber
  | .infinite _ => .error .infinite
  | .finite negative mantissa exponent =>
    let parts := Binary64.split negative mantissa exponent
    let whole := parts.whole * dayMicros
    match parts.fraction.mul (Binary64.ofInt dayMicros) with
    | .finite negative mantissa exponent =>
      ofMicros? (Binary64.roundSum whole negative mantissa exponent)
    | _ => ofMicros? whole

/-- The whole days, rounded down. -/
def days (d : Duration) : Int := d.micros / dayMicros

def seconds (d : Duration) : Int := d.micros % dayMicros / 1000000

def microseconds (d : Duration) : Int := d.micros % 1000000

end Duration

end TimetableFeed
