import TimetableFeed.Text.Ascii
import TimetableFeed.Text.Hex
import TimetableFeed.Text.Pieces

/-!
# Hosts in brackets

What may stand in square brackets in the authority of an address: an IP address of version 6, with
or without a zone, or one of a version yet to come. Dotted addresses of version 4 are recognised
too, since version 6 may end in one.
-/

namespace TimetableFeed.Url

/-- The value of ASCII digits; none if another character is among them. -/
def asciiNumber? (cs : List Char) : Option Nat :=
  cs.foldlM (fun total c => (Text.asciiDigit? c.toNat).map (total * 10 + ·)) 0

/-- A number of a dotted address: up to three digits, up to 255, without noughts in front. -/
def isOctet (cs : List Char) : Bool :=
  !cs.isEmpty && cs.length ≤ 3 && (cs == ['0'] || cs.head? != some '0') &&
    (asciiNumber? cs).any (· ≤ 255)

/-- An IP address of version 4: four numbers with points between them. -/
def isAddress4 (cs : List Char) : Bool :=
  let octets := Text.splitAt '.' cs
  octets.length == 4 && octets.all isOctet

/-- A group of an address of version 6: one to four hexadecimal digits. -/
def isGroup (cs : List Char) : Bool :=
  !cs.isEmpty && cs.length ≤ 4 && cs.all fun c => (Text.hexValue? c.toNat).isSome

/-- The groups of an address without its zone; a dotted address at the end counts as two. None if
the dotted address is not one. -/
def groups? (cs : List Char) : Option (List (List Char)) :=
  let parts := Text.splitAt ':' cs
  match parts.getLast? with
  | none => some parts
  | some tail =>
    if tail.contains '.' then
      if isAddress4 tail then some (parts.dropLast ++ [['0'], ['0']]) else none
    else some parts

/-- The groups make an address: eight of them, or fewer around one gap, an empty part between two
colons. -/
def areAddress6 (parts : List (List Char)) : Bool :=
  let inner := parts.tail.dropLast
  match inner.findIdx? List.isEmpty with
  | none => parts.length == 8 && parts.all isGroup
  | some gap =>
    let high := parts.take (gap + 1)
    let low := parts.drop (gap + 2)
    -- at an end of the address the part outside the gap is empty as well
    let high := if high == [[]] then [] else high
    let low := if low == [[]] then [] else low
    high.all isGroup && low.all isGroup && high.length + low.length ≤ 7

/-- An IP address of version 6, perhaps with a zone after a percent sign. -/
def isAddress6 (cs : List Char) : Bool :=
  let (address, zone?) := Text.cut '%' cs
  let zoneGood := zone?.all fun zone => !zone.isEmpty && !zone.contains '%'
  !cs.contains '/' && zoneGood && 3 ≤ (Text.splitAt ':' address).length &&
    (groups? address).any fun parts => parts.length ≤ 9 && areAddress6 parts

/-- A host of a version yet to come: `v`, hexadecimal digits, a point and something more. -/
def isFutureAddress (cs : List Char) : Bool :=
  match cs with
  | 'v' :: rest =>
    let digits := rest.takeWhile fun c => (Text.hexValue? c.toNat).isSome
    let tail := rest.drop digits.length
    !digits.isEmpty && tail.head? == some '.' && 2 ≤ tail.length
  | _ => false

end TimetableFeed.Url
