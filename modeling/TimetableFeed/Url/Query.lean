import TimetableFeed.Text.Hex
import TimetableFeed.Text.Pieces
import TimetableFeed.Text.Utf8

/-!
# Queries

A query as a list of names and values, in the encoding of forms: pairs between ampersands, an equals
sign after the name, a plus for a blank, and the bytes of other characters in hexadecimal after a
percent sign. In reading, a pair without an equals sign has an empty value, empty pieces are
skipped, a percent sign that no two digits follow stands for itself, and bytes that are not UTF-8
give U+FFFD. In writing, `<` and `>` are kept as they are.
-/

namespace TimetableFeed.Url

abbrev Pair := List Char × List Char

/-! ## Reading -/

/-- The bytes that ASCII characters stand for, escapes resolved, and the characters beyond ASCII. -/
def units : List Char → List (UInt8 ⊕ Char)
  | '%' :: a :: b :: rest =>
    match Text.hexNumber? [a.toNat, b.toNat] with
    | some n => .inl (UInt8.ofNat n) :: units rest
    | none => .inl 0x25 :: units (a :: b :: rest)
  | c :: rest => (if c.toNat < 0x80 then .inl (UInt8.ofNat c.toNat) else .inr c) :: units rest
  | [] => []

/-- What the units hold, in order: characters and broken sequences (none). A character beyond ASCII
breaks a sequence of bytes. -/
def unitPieces : Option Utf8.Partial → List (UInt8 ⊕ Char) → List (Option Char)
  | none, [] => []
  | some _, [] => [none]
  | state, .inl b :: rest => (Utf8.step state b).1 ++ unitPieces (Utf8.step state b).2 rest
  | none, .inr c :: rest => some c :: unitPieces none rest
  | some _, .inr c :: rest => none :: some c :: unitPieces none rest

def unescape (cs : List Char) : List Char :=
  let spaced := cs.map fun c => if c = '+' then ' ' else c
  (unitPieces none (units spaced)).map (·.getD Utf8.replacement)

def readPair (piece : List Char) : Pair :=
  let (name, value?) := Text.cut '=' piece
  (unescape name, unescape (value?.getD []))

def readQuery (query : List Char) : List Pair :=
  ((Text.splitAt '&' query).filter fun piece => !piece.isEmpty).map readPair

/-! ## Writing -/

def isPlain (b : UInt8) : Bool :=
  let n := b.toNat
  (0x30 ≤ n && n ≤ 0x39) || (0x41 ≤ n && n ≤ 0x5A) || (0x61 ≤ n && n ≤ 0x7A) || n == 0x5F ||
    n == 0x2E || n == 0x2D || n == 0x7E || n == 0x3C || n == 0x3E

def escapeByte (b : UInt8) : List Char :=
  if isPlain b then [Char.ofNat b.toNat]
  else if b = 0x20 then ['+']
  else ['%', Text.hexDigitUpper (b.toNat / 16), Text.hexDigitUpper (b.toNat % 16)]

def escape (cs : List Char) : List Char := (Utf8.encodeChars cs).flatMap escapeByte

def writePair (pair : Pair) : List Char := escape pair.1 ++ '=' :: escape pair.2

def writeQuery (pairs : List Pair) : List Char := ['&'].intercalate (pairs.map writePair)

end TimetableFeed.Url
