import TimetableFeed.Text.Hex
import TimetableFeed.Text.Printable

/-!
# Quoted text

A text or a byte string between quotes, on one line and in printable characters, as messages show
it. The quote is `'`, unless the text holds a `'` and no `"`. The backslash, the quote in use, line
feed, carriage return and tab have escapes of two characters; what else is not printable is written
in hexadecimal, with two, four or eight digits.
-/

namespace TimetableFeed.Text

/-- The quote that suits a text: the double one only if the text holds single ones and no double. -/
def quoteFor (cs : List Char) : Char :=
  if cs.contains '\x27' && !cs.contains '"' then '"' else '\x27'

/-- A character that is not printable, by its code point. -/
def hexEscape (n : Nat) : List Char :=
  if n < 0x100 then '\\' :: 'x' :: hexChars 2 n
  else if n < 0x10000 then '\\' :: 'u' :: hexChars 4 n
  else '\\' :: 'U' :: hexChars 8 n

/-- A character between the quotes `quote`; the class `plain` is written as it is. -/
def quoteChar (plain : Char → Bool) (quote c : Char) : List Char :=
  if c = '\\' ∨ c = quote then ['\\', c]
  else if c = '\n' then ['\\', 'n']
  else if c = '\r' then ['\\', 'r']
  else if c = '\t' then ['\\', 't']
  else if plain c then [c]
  else hexEscape c.toNat

/-- The characters between quotes; the class `plain` is written as it is. -/
def quoteChars (plain : Char → Bool) (cs : List Char) : List Char :=
  let quote := quoteFor cs
  quote :: cs.flatMap (quoteChar plain quote) ++ [quote]

def quoted (s : String) : String := String.ofList (quoteChars isPrintable s.toList)

/-- The bytes between quotes, after a `b`; a byte is shown as the ASCII character that it is, if it
is printable. -/
def quotedBytes (bytes : List UInt8) : String :=
  String.ofList ('b' :: quoteChars (fun c => 0x20 ≤ c.toNat && c.toNat < 0x7F)
    (bytes.map fun b => Char.ofNat b.toNat))

theorem quoteChar_ne_nil (plain : Char → Bool) (quote c : Char) : quoteChar plain quote c ≠ [] := by
  unfold quoteChar hexEscape
  repeat' split
  all_goals simp

end TimetableFeed.Text
