import TimetableFeed.Number.Shortest

/-!
# The written form of numbers

A number is written with its shortest decimal digits, positionally or with an exponent. The two
styles in use differ in which of two equally near decimals they take, in where positional notation
ends, in whether a whole value keeps its `.0`, and in the spelling of not-a-number.
-/

namespace TimetableFeed

def decimalChars (n : Nat) : List Char := Nat.toDigits 10 n

theorem isDigit_of_mem_decimalChars {n : Nat} {c : Char} (h : c ∈ decimalChars n) : c.isDigit :=
  Nat.isDigit_of_mem_toDigits (by decide) (by decide) h

/-- The decimal digits of `n`, with noughts in front up to `width` digits. -/
def paddedChars (width n : Nat) : List Char :=
  let digits := decimalChars n
  List.replicate (width - digits.length) '0' ++ digits

/-- The decimal text of a whole number, however long. An interpreter that refuses to write more than
4300 digits is not modelled. -/
def integerText (i : Int) : String :=
  String.ofList (if i < 0 then '-' :: decimalChars i.natAbs else decimalChars i.natAbs)

namespace Binary64

/-- A style of writing: the choice of digits, the decimal exponents of the first digit that are
written positionally, whether a whole value keeps `.0`, and the text of not-a-number. -/
structure Style where
  tie : Tie
  least : Option Int
  greatest : Option Int
  keepsPoint : Bool
  nan : String

/-- As program text: positional from 1e-4 up to 1e16, always recognisable as not whole. -/
def Style.literal : Style := ⟨.even, some (-4), some 15, true, "nan"⟩

/-- As plain text: positional throughout, whole values without a point. -/
def Style.plain : Style := ⟨.away, none, none, false, "NaN"⟩

def Style.isPositional (style : Style) (place : Int) : Bool :=
  (style.least.all fun least => least ≤ place) && (style.greatest.all fun most => place ≤ most)

def stripNoughts (digits : List Char) : List Char :=
  digits.foldr (fun c kept => if kept.isEmpty && c == '0' then [] else c :: kept) []

/-- Digits with the first at the place `place`, written positionally. -/
def positional (keepsPoint : Bool) (digits : List Char) (place : Int) : List Char :=
  let width := (place + 1).toNat
  let whole :=
    if width = 0 then ['0'] else digits.take width ++ List.replicate (width - digits.length) '0'
  let fraction :=
    if width = 0 then List.replicate (-place - 1).toNat '0' ++ digits else digits.drop width
  if fraction.isEmpty then whole ++ (if keepsPoint then ['.', '0'] else [])
  else whole ++ '.' :: fraction

/-- Digits with the first at the place `place`, written with an exponent of two digits or more. -/
def scientific (digits : List Char) (place : Int) : List Char :=
  let point :=
    match digits with
    | first :: next :: rest => first :: '.' :: next :: rest
    | _ => digits
  point ++ 'e' :: (if place < 0 then '-' else '+') :: paddedChars 2 place.natAbs

def write (style : Style) : Binary64 → String
  | .nan => style.nan
  | .infinite negative => if negative then "-inf" else "inf"
  | .finite negative mantissa exponent =>
    let decimal := shortest style.tie mantissa exponent
    let digits := decimalChars decimal.digits
    let place := decimal.scale + digits.length - 1
    let significant := if decimal.digits = 0 then digits else stripNoughts digits
    let body :=
      if style.isPositional place then positional style.keepsPoint significant place
      else scientific significant place
    String.ofList (if negative then '-' :: body else body)

end Binary64

end TimetableFeed
