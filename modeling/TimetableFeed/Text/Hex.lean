/-!
# Hexadecimal digits

One digit to and from its value, and fixed-width hexadecimal text.
-/

namespace TimetableFeed.Text

/-- The digit of value `n`, lower case; the value is below sixteen. -/
def hexDigit (n : Nat) : Char :=
  if n < 10 then Char.ofNat ('0'.toNat + n) else Char.ofNat ('a'.toNat + (n - 10))

/-- The digit of value `n`, upper case; the value is below sixteen. -/
def hexDigitUpper (n : Nat) : Char :=
  if n < 10 then Char.ofNat ('0'.toNat + n) else Char.ofNat ('A'.toNat + (n - 10))

/-- The value of a hexadecimal digit of either case, given by its code. -/
def hexValue? (code : Nat) : Option Nat :=
  if 48 ≤ code ∧ code ≤ 57 then some (code - 48)
  else if 97 ≤ code ∧ code ≤ 102 then some (code - 87)
  else if 65 ≤ code ∧ code ≤ 70 then some (code - 55)
  else none

/-- The last `width` hexadecimal digits of `n`, lower case. -/
def hexChars : Nat → Nat → List Char
  | 0, _ => []
  | width + 1, n => hexChars width (n / 16) ++ [hexDigit (n % 16)]

/-- The value that hexadecimal digits, given by their codes, write; none if one is no digit. -/
def hexNumber? (codes : List Nat) : Option Nat :=
  codes.foldlM (fun total code => (hexValue? code).map (total * 16 + ·)) 0

theorem hexChars_length (width n : Nat) : (hexChars width n).length = width := by
  induction width generalizing n with
  | zero => rfl
  | succ width ih => simp [hexChars, ih]

theorem hexValue?_hexDigit {n : Nat} (h : n < 16) : hexValue? (hexDigit n).toNat = some n := by
  revert h n
  decide

theorem hexValue?_hexDigitUpper {n : Nat} (h : n < 16) :
    hexValue? (hexDigitUpper n).toNat = some n := by
  revert h n
  decide

end TimetableFeed.Text
