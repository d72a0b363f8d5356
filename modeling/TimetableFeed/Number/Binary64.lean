/-!
# Binary floating point of 64 bits

The values of the IEEE 754 format binary64, computed exactly: a finite value is a whole number of
units of 2⁻¹⁰⁷⁴. Quotients and decimals are rounded to the nearest value, a half to the even
neighbour; what exceeds the greatest finite value by half a unit is infinite.
-/

namespace TimetableFeed

def twoPow (n : Nat) : Nat := Nat.pow 2 n

def tenPow (n : Nat) : Nat := Nat.pow 10 n

/-- The quotient rounded to the nearest whole number, a half to the even neighbour. -/
def roundDiv (num den : Nat) : Nat :=
  let quotient := num / den
  let twice := 2 * (num % den)
  if twice < den ∨ (twice = den ∧ quotient % 2 = 0) then quotient else quotient + 1

/-- A value of the format. The finite ones are `mantissa * 2 ^ exponent` units of 2⁻¹⁰⁷⁴, with the
least exponent that leaves a mantissa below 2⁵³. -/
inductive Binary64 where
  | nan
  | infinite (negative : Bool)
  | finite (negative : Bool) (mantissa exponent : Nat)
  deriving DecidableEq, Repr

namespace Binary64

/-- How many units make one. -/
def one : Nat := twoPow 1074

/-- The value nearest to `num / den`, with the given sign. -/
def ofRatio (negative : Bool) (num den : Nat) : Binary64 :=
  let units := num * one
  let exponent := (units / den).log2 - 52
  let mantissa := roundDiv units (den * twoPow exponent)
  let (mantissa, exponent) :=
    if mantissa = twoPow 53 then (twoPow 52, exponent + 1) else (mantissa, exponent)
  if exponent > 2045 then .infinite negative else .finite negative mantissa exponent

/-- The value nearest to `digits * 10 ^ scale`, with the given sign. The first two cases only keep
the powers of ten small: such values are zero or infinite at any rate. -/
def ofDecimal (negative : Bool) (digits : Nat) (scale : Int) : Binary64 :=
  if digits = 0 ∨ (digits.log2 : Int) + 1 + 3 * scale < -1075 then .finite negative 0 0
  else if scale > 310 then .infinite negative
  else if 0 ≤ scale then ofRatio negative (digits * tenPow scale.toNat) 1
  else ofRatio negative digits (tenPow (-scale).toNat)

def ofInt (i : Int) : Binary64 := ofRatio (decide (i < 0)) i.natAbs 1

/-- The value is at most zero; not-a-number is not. -/
def isNonPositive : Binary64 → Bool
  | .nan => false
  | .infinite negative => negative
  | .finite negative mantissa _ => negative || mantissa == 0

/-- The value exceeds zero; not-a-number does not. -/
def isPositive : Binary64 → Bool
  | .nan => false
  | .infinite negative => !negative
  | .finite negative mantissa _ => !negative && mantissa != 0

def mul : Binary64 → Binary64 → Binary64
  | .nan, _ => .nan
  | _, .nan => .nan
  | .infinite a, .infinite b => .infinite (a != b)
  | .infinite a, .finite b m _ => if m = 0 then .nan else .infinite (a != b)
  | .finite a m _, .infinite b => if m = 0 then .nan else .infinite (a != b)
  | .finite a m e, .finite b n f => ofRatio (a != b) (m * n * twoPow (e + f)) (one * one)

structure Split where
  whole : Int
  fraction : Binary64
  deriving DecidableEq, Repr

/-- Splits a finite value at its point; both parts have its sign. -/
def split (negative : Bool) (mantissa exponent : Nat) : Split :=
  let units := mantissa * twoPow exponent
  let whole : Int := (units / one : Nat)
  ⟨if negative then -whole else whole, ofRatio negative (units % one) one⟩

/-- A finite value in units, with its sign. -/
def units (negative : Bool) (mantissa exponent : Nat) : Int :=
  let magnitude : Int := (mantissa * twoPow exponent : Nat)
  if negative then -magnitude else magnitude

/-- The magnitude of a finite value as a whole number, a half rounded upwards. -/
def roundMagnitude (mantissa exponent : Nat) : Nat :=
  (2 * (mantissa * twoPow exponent) + one) / (2 * one)

/-- The whole number nearest to the exact sum of `whole` and a finite value, a half to the even
neighbour. -/
def roundSum (whole : Int) (negative : Bool) (mantissa exponent : Nat) : Int :=
  let total := whole * one + units negative mantissa exponent
  let quotient := total / one
  let twice := 2 * (total % one)
  if twice < one ∨ (twice = one ∧ quotient % 2 = 0) then quotient else quotient + 1

theorem isPositive_eq_not {x : Binary64} (h : x ≠ .nan) : x.isPositive = !x.isNonPositive := by
  cases x with
  | nan => exact absurd rfl h
  | infinite negative => rfl
  | finite negative mantissa exponent => cases negative <;> simp [isPositive, isNonPositive, bne]

end Binary64

end TimetableFeed
