import TimetableFeed.Json.Value
import TimetableFeed.Number.Layout
import TimetableFeed.Text.Hex

/-!
# Printing JSON

Two layouts: on one line, with a blank after each comma and colon; and indented, with an item or
member a line. Characters beyond ASCII are kept, or written as hexadecimal escapes of their UTF-16
units.
-/

namespace TimetableFeed.Json

/-- How a document is laid out: whether only ASCII is used, and how far each level is indented if
each item and member has a line of its own. -/
structure Layout where
  ascii : Bool
  indent? : Option Nat

/-- On one line, in ASCII. -/
def Layout.line : Layout := ⟨true, none⟩

/-- Two columns for each level, with all characters kept. -/
def Layout.page : Layout := ⟨false, some 2⟩

def unitChars (unit : Nat) : List Char := '\\' :: 'u' :: Text.hexChars 4 unit

/-- The escapes of a character: one, or two for a surrogate pair. -/
def escapeChars (c : Char) : List Char :=
  let n := c.toNat
  if n < 0x10000 then unitChars n
  else unitChars (0xD800 + (n - 0x10000) / 0x400) ++ unitChars (0xDC00 + (n - 0x10000) % 0x400)

def charChars (ascii : Bool) (c : Char) : List Char :=
  if c = '"' then ['\\', '"']
  else if c = '\\' then ['\\', '\\']
  else if c = '\n' then ['\\', 'n']
  else if c = '\r' then ['\\', 'r']
  else if c = '\t' then ['\\', 't']
  else if c = Char.ofNat 0x0C then ['\\', 'f']
  else if c = Char.ofNat 0x08 then ['\\', 'b']
  else if c.toNat < 0x20 ∨ (ascii ∧ 0x7F ≤ c.toNat) then escapeChars c
  else [c]

def textChars (ascii : Bool) (s : String) : List Char :=
  '"' :: s.toList.flatMap (charChars ascii) ++ ['"']

/-- The word or numeral of a number that is not whole. -/
def realText : Binary64 → String
  | .nan => "NaN"
  | .infinite negative => if negative then "-Infinity" else "Infinity"
  | x => x.write .literal

namespace Layout

/-- What separates an opening bracket from what it holds, at the level inside. -/
def lineBreak (layout : Layout) (level : Nat) : List Char :=
  match layout.indent? with
  | none => []
  | some width => '\n' :: List.replicate (width * level) ' '

def separator (layout : Layout) (level : Nat) : List Char :=
  match layout.indent? with
  | none => [',', ' ']
  | some _ => ',' :: layout.lineBreak level

/-- A container with the given brackets; `body` is what it holds, at the level inside. -/
def enclose (layout : Layout) (level : Nat) (opening closing : Char) (body : List (List Char)) :
    List Char :=
  if body.isEmpty then [opening, closing]
  else
    opening :: layout.lineBreak (level + 1) ++
      (layout.separator (level + 1)).intercalate body ++ layout.lineBreak level ++ [closing]

end Layout

mutual

/-- The characters of a value that stands at the given level. -/
def chars (layout : Layout) (level : Nat) : Json → List Char
  | .null => ['n', 'u', 'l', 'l']
  | .boolean true => ['t', 'r', 'u', 'e']
  | .boolean false => ['f', 'a', 'l', 's', 'e']
  | .integer i => (integerText i).toList
  | .real x => (realText x).toList
  | .text s => textChars layout.ascii s
  | .array items => layout.enclose level '[' ']' (itemChars layout (level + 1) items)
  | .object members =>
    layout.enclose level '\x7b' '\x7d' (memberChars layout (level + 1) members)

def itemChars (layout : Layout) (level : Nat) : List Json → List (List Char)
  | [] => []
  | item :: rest => chars layout level item :: itemChars layout level rest

def memberChars (layout : Layout) (level : Nat) : List (String × Json) → List (List Char)
  | [] => []
  | (key, value) :: rest =>
    (textChars layout.ascii key ++ ':' :: ' ' :: chars layout level value) ::
      memberChars layout level rest

end

def print (layout : Layout) (json : Json) : String := String.ofList (json.chars layout 0)

end TimetableFeed.Json
