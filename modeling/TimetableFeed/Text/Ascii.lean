/-!
# ASCII

The bytes of ASCII characters, and the decimal digits among them.
-/

namespace TimetableFeed.Text

def asciiByte (c : Char) : UInt8 := UInt8.ofNat c.toNat

def asciiDigit? (code : Nat) : Option Nat :=
  if '0'.toNat ≤ code ∧ code ≤ '9'.toNat then some (code - '0'.toNat) else none

theorem asciiDigit?_lt {code n : Nat} (h : asciiDigit? code = some n) : n < 10 := by
  unfold asciiDigit? at h
  split at h
  · rename_i range
    obtain rfl := Option.some.inj h
    have high : code ≤ 57 := range.2
    show code - 48 < 10
    omega
  · cases h

end TimetableFeed.Text
