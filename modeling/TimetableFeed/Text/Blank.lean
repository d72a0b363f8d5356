/-!
# Blank characters

The characters that count as white space around a text: the Unicode white space of the separator
categories and of the bidirectional classes `WS`, `B` and `S`. U+200B, U+180E and U+FEFF are not
among them. Both ends of a text are stripped of them, and a text of nothing else is blank.
-/

namespace TimetableFeed.Text

/-- White space, as far as stripping is concerned. -/
def isBlankChar (c : Char) : Bool :=
  let n := c.toNat
  (0x09 ≤ n && n ≤ 0x0D) || (0x1C ≤ n && n ≤ 0x20) || n == 0x85 || n == 0xA0 || n == 0x1680 ||
    (0x2000 ≤ n && n ≤ 0x200A) || n == 0x2028 || n == 0x2029 || n == 0x202F || n == 0x205F ||
    n == 0x3000

/-- `cs` without the characters of the class `p` at its end. -/
def dropTrailing (p : Char → Bool) : List Char → List Char
  | [] => []
  | c :: rest =>
    match dropTrailing p rest with
    | [] => if p c then [] else [c]
    | kept => c :: kept

/-- `cs` without the characters of the class `p` at both ends. -/
def trimChars (p : Char → Bool) (cs : List Char) : List Char :=
  dropTrailing p (cs.dropWhile p)

def isBlank (s : String) : Bool := s.toList.all isBlankChar

theorem dropTrailing_eq_nil_iff {p : Char → Bool} {cs : List Char} :
    dropTrailing p cs = [] ↔ cs.all p = true := by
  induction cs with
  | nil => simp [dropTrailing]
  | cons c rest ih =>
    simp only [dropTrailing, List.all_cons, Bool.and_eq_true, ← ih]
    split <;> simp_all

end TimetableFeed.Text
