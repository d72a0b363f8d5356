import TimetableFeed.Number.Binary64

/-!
# Shortest decimals

The decimal with the fewest digits that reads back as a given value, and of those the nearest; two
that are equally near are told apart by a rule of choice. The decimals that read back form an
interval around the value; for one digit, two digits and so on the two neighbours of the value on
that decimal grid are tried, since a grid that meets the interval has one of them in it.
-/

namespace TimetableFeed.Binary64

/-- `digits * 10 ^ scale`. -/
structure Decimal where
  digits : Nat
  scale : Int
  deriving DecidableEq, Repr

/-- Which of two equally near decimals is taken: the one with an even last digit, or the one farther
from zero. -/
inductive Tie where
  | even
  | away
  deriving DecidableEq, Repr

/-- The decimals that read back as a value: from `low` to `high` in parts of `unit`, the ends
included if `closed`. -/
structure Interval where
  value : Nat
  low : Nat
  high : Nat
  unit : Nat
  closed : Bool

/-- The interval of a finite value that is not zero. It reaches halfway to the neighbours, of which
the lower one is nearer if the value is a power of two. -/
def interval (mantissa exponent : Nat) : Interval :=
  let step := twoPow exponent
  let below := if mantissa = twoPow 52 ∧ 0 < exponent then step else 2 * step
  let value := mantissa * 4 * step
  ⟨value, value - below, value + 2 * step, 4 * one, mantissa % 2 == 0⟩

/-- The interval in parts of a unit `10 ^ scale` times as large. -/
def Interval.rescale (i : Interval) (scale : Int) : Interval :=
  let up := tenPow (-scale).toNat
  ⟨i.value * up, i.low * up, i.high * up, i.unit * tenPow scale.toNat, i.closed⟩

def Interval.holds (i : Interval) (n : Nat) : Bool :=
  let point := n * i.unit
  (i.low < point || (i.closed && i.low == point)) &&
    (point < i.high || (i.closed && i.high == point))

/-- Of two neighbours that are equally near, the lower one `floor` is taken. -/
def Tie.takesLower : Tie → Nat → Bool
  | .even, floor => floor % 2 == 0
  | .away, _ => false

/-- The nearer of the two whole numbers of units next to the value, if one lies in the interval. -/
def Interval.nearest? (i : Interval) (tie : Tie) : Option Nat :=
  let floor := i.value / i.unit
  let twice := 2 * (i.value % i.unit)
  match i.holds floor, i.holds (floor + 1) with
  | false, false => none
  | true, false => some floor
  | false, true => some (floor + 1)
  | true, true =>
    some (if twice < i.unit ∨ (twice = i.unit ∧ tie.takesLower floor) then floor else floor + 1)

/-- The place of the value's first digit, that of the ones being 0. -/
def Interval.leadingPlace (i : Interval) (log2 : Int) : Int :=
  let guess := log2 * 30103 / 100000
  let reaches (place : Int) : Bool :=
    let j := i.rescale place
    j.unit ≤ j.value
  if reaches (guess + 1) then guess + 1 else if reaches guess then guess else guess - 1

/-- The first hit among the grids from `digits` digits on; `tries` grids are tried. -/
def Interval.search (i : Interval) (tie : Tie) (place : Int) (digits : Nat) : Nat → Decimal
  | 0 => ⟨(i.rescale (place + 1 - digits)).value / (i.rescale (place + 1 - digits)).unit,
      place + 1 - digits⟩
  | tries + 1 =>
    let scale := place + 1 - digits
    match (i.rescale scale).nearest? tie with
    | some n => ⟨n, scale⟩
    | none => i.search tie place (digits + 1) tries

/-- The shortest decimal of a finite value. Seventeen digits always suffice. -/
def shortest (tie : Tie) (mantissa exponent : Nat) : Decimal :=
  if mantissa = 0 then ⟨0, 0⟩
  else
    let i := interval mantissa exponent
    i.search tie (i.leadingPlace ((mantissa.log2 : Int) + exponent - 1074)) 1 17

end TimetableFeed.Binary64
