import TimetableFeed.Number.Layout

/-!
# Quantities

A number as settings and keyed data give it: whole, fractional, or a truth value, which settings
count as one or nought.
-/

namespace TimetableFeed

/-- A number as settings and keyed data give it. -/
inductive Quantity where
  | whole (value : Int)
  | real (value : Binary64)
  | flag (value : Bool)
  deriving DecidableEq, Repr

namespace Quantity

/-- The quantity as program text; a whole number is written with all its digits. -/
def write : Quantity → String
  | .whole i => integerText i
  | .real x => x.write .literal
  | .flag b => if b then "True" else "False"

/-- The exact value in units; none if it is not finite. -/
def units? : Quantity → Option Int
  | .whole i => some (i * Binary64.one)
  | .flag b => some (if b then Binary64.one else 0)
  | .real (.finite negative mantissa exponent) =>
    some (Binary64.units negative mantissa exponent)
  | .real _ => none

/-- The quantities are equal as numbers, whatever they are written as. Not-a-number is equal to
nothing, and nought has no sign. -/
def equals : Quantity → Quantity → Bool
  | .real (.infinite a), .real (.infinite b) => a == b
  | x, y => x.units?.isSome && x.units? == y.units?

def isNonPositive : Quantity → Bool
  | .whole i => decide (i ≤ 0)
  | .real x => x.isNonPositive
  | .flag b => !b

theorem equals_of_units (x : Quantity) {u : Int} (h : x.units? = some u) :
    (x.units?.isSome && x.units? == x.units?) = true := by
  rw [h, beq_self_eq_true]
  rfl

/-- Not-a-number is the one quantity that is not equal to itself. -/
theorem equals_self_iff {x : Quantity} : x.equals x = true ↔ x ≠ .real .nan := by
  match x with
  | .whole i => exact iff_of_true (equals_of_units (.whole i) rfl) nofun
  | .flag b => exact iff_of_true (equals_of_units (.flag b) rfl) nofun
  | .real (.finite negative mantissa exponent) =>
    exact iff_of_true (equals_of_units (.real (.finite negative mantissa exponent)) rfl) nofun
  | .real (.infinite negative) => exact iff_of_true (beq_self_eq_true negative) nofun
  | .real .nan => exact iff_of_false nofun fun h => h rfl

end Quantity

end TimetableFeed
