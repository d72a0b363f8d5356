import TimetableFeed.Number.Binary64
import TimetableFeed.Text.Blank
import TimetableFeed.Text.DecimalDigit

/-!
# Reading numerals

Whole and fractional numbers as people type them into a setting: with white space around, a sign,
digits of any script, and single underscores between digits.
-/

namespace TimetableFeed.Numeral

open TimetableFeed.Text

/-- White space around a numeral: as for any text, but for the information separators. -/
def isMargin (c : Char) : Bool := isBlankChar c && !(0x1C ≤ c.toNat && c.toNat ≤ 0x1F)

/-- The digits at the front, an underscore between two digits being skipped, and what follows. -/
def digitRun (afterDigit : Bool) : List Char → List Nat × List Char
  | [] => ([], [])
  | c :: rest =>
    match digitValue? c with
    | some d =>
      let (digits, left) := digitRun true rest
      (d :: digits, left)
    | none =>
      if afterDigit ∧ c = '_' ∧ (rest.head?.bind digitValue?).isSome then digitRun false rest
      else ([], c :: rest)

def ofDigits (digits : List Nat) : Nat := digits.foldl (fun total d => total * 10 + d) 0

def sign : List Char → Bool × List Char
  | '-' :: rest => (true, rest)
  | '+' :: rest => (false, rest)
  | cs => (false, cs)

def integer? (s : String) : Option Int :=
  let (negative, cs) := sign (trimChars isMargin s.toList)
  match digitRun false cs with
  | ([], _) => none
  | (digits, []) => some (if negative then -(ofDigits digits : Int) else ofDigits digits)
  | (_, _ :: _) => none

def exponent? : List Char → Option Int
  | [] => some 0
  | mark :: rest =>
    if mark = 'e' ∨ mark = 'E' then
      let (negative, cs) := sign rest
      match digitRun false cs with
      | ([], _) => none
      | (digits, []) => some (if negative then -(ofDigits digits : Int) else ofDigits digits)
      | (_, _ :: _) => none
    else none

def fraction : List Char → List Nat × List Char
  | '.' :: rest => digitRun false rest
  | cs => ([], cs)

/-- The number that a text writes: in decimal, as infinity or as not-a-number. -/
def real? (s : String) : Option Binary64 :=
  let (negative, cs) := sign (trimChars isMargin s.toList)
  let word := cs.map Char.toLower
  if word = ['i', 'n', 'f'] ∨ word = ['i', 'n', 'f', 'i', 'n', 'i', 't', 'y'] then
    some (.infinite negative)
  else if word = ['n', 'a', 'n'] then some .nan
  else
    let (whole, rest) := digitRun false cs
    let (part, rest) := fraction rest
    if whole.isEmpty && part.isEmpty then none
    else (exponent? rest).map fun power =>
      Binary64.ofDecimal negative (ofDigits (whole ++ part)) (power - part.length)

end TimetableFeed.Numeral
