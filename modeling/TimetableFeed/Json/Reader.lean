import TimetableFeed.Json.SyntaxError
import TimetableFeed.Json.Value
import TimetableFeed.Text.Ascii
import TimetableFeed.Text.Hex
import TimetableFeed.Text.Utf8

/-!
# Reading JSON

A machine that reads a document byte by byte, with the containers that are still open on a stack.
Beside the values of RFC 8259 it reads `NaN`, `Infinity` and `-Infinity`. A container that is not
empty may be opened only inside fewer containers than a given limit; it is open from the first byte
of its first value on. A number must not have more bytes before its point or exponent than a second
limit allows. The first byte that cannot be read is the error, except that a hexadecimal escape is
judged once its four bytes are there, the UTF-8 of a text once its closing quote is, and a number
that is too long behind the first digit too many.

Main definitions: `Limits`, `Reader.step`, `Reader.finish`, `read?`.
-/

namespace TimetableFeed.Json

open TimetableFeed.Text (asciiByte)

/-- How much is read: how many containers a value may lie in, and how many bytes a number may have
before its point or exponent, the minus sign counted. -/
structure Limits where
  depth : Nat
  digits : Nat
  deriving DecidableEq, Repr

/-- An open container that waits for a value: the values or members before it, the last one first,
and the key of the member. -/
inductive Frame where
  | item (done : List Json)
  | member (done : List (String × Json)) (key : String)

/-- What a text is read for: a value, or the key after the members `done`. -/
inductive Purpose where
  | value
  | key (done : List (String × Json))

/-- How far an escape inside a text has been read: not begun; its backslash; some bytes of a
hexadecimal unit, the last one first; or, after the first unit of a pair, nothing or the backslash
of the second. -/
inductive Escape where
  | off
  | backslash
  | hex (high : Option Nat) (codes : List UInt8)
  | pair (high : Nat)
  | pairBackslash (high : Nat)

/-- A text that is being read: its purpose, the index of its first byte, the bytes that it stands
for so far, the last one first, and the escape. -/
structure TextDraft where
  purpose : Purpose
  start : Nat
  bytes : List UInt8
  escape : Escape

inductive NumberPhase where
  | minus
  | nought
  | whole
  | point
  | fraction
  | mark
  | markSign
  | power
  deriving DecidableEq, Repr

/-- A number that is being read: how many bytes it has before its point, its digits as one number,
how many of them follow the point, and the exponent. -/
structure NumberDraft where
  phase : NumberPhase
  negative : Bool
  width : Nat
  digits : Nat
  places : Nat
  powerNegative : Bool
  power : Nat
  deriving DecidableEq, Repr

/-- What is expected next. Members and items that have been read come last first. -/
inductive Mode where
  | value
  | firstItem
  | nextItem (done : List Json)
  | afterItem (done : List Json)
  | firstKey
  | nextKey (done : List (String × Json))
  | afterKey (done : List (String × Json)) (key : String)
  | afterMember (done : List (String × Json))
  | word (next : UInt8) (rest : List UInt8) (value : Json)
  | number (draft : NumberDraft)
  | text (draft : TextDraft)
  | finished (value : Json)

/-- The reader between two bytes. -/
structure Reader where
  stack : List Frame
  mode : Mode

def Reader.start : Reader := ⟨[], .value⟩

/-- A value is complete: it goes to the innermost open container, or is the document. -/
def complete : List Frame → Json → Reader
  | [], v => ⟨[], .finished v⟩
  | .item done :: stack, v => ⟨stack, .afterItem (v :: done)⟩
  | .member done key :: stack, v => ⟨stack, .afterMember ((key, v) :: done)⟩

/-- Space, tab, line feed and carriage return. -/
def isSpace (b : UInt8) : Bool := b == 0x20 || b == 0x09 || b == 0x0A || b == 0x0D

def isDigit (b : UInt8) : Bool := (Text.asciiDigit? b.toNat).isSome

/-! ## Numbers -/

namespace NumberDraft

def begin (negative : Bool) : NumberDraft :=
  ⟨.minus, negative, if negative then 1 else 0, 0, 0, false, 0⟩

def push (d : NumberDraft) (b : UInt8) : NumberDraft :=
  { d with digits := d.digits * 10 + (b.toNat - 0x30) }

def pushWhole (d : NumberDraft) (b : UInt8) : NumberDraft :=
  { d.push b with width := d.width + 1 }

def first (d : NumberDraft) (b : UInt8) : NumberDraft :=
  { d.pushWhole b with phase := if b == 0x30 then .nought else .whole }

def pushPlace (d : NumberDraft) (b : UInt8) : NumberDraft :=
  { d.push b with phase := .fraction, places := d.places + 1 }

def pushPower (d : NumberDraft) (b : UInt8) : NumberDraft :=
  { d with phase := .power, power := d.power * 10 + (b.toNat - 0x30) }

/-- The byte is part of the number, is not and the number is complete, or must not stand here. -/
inductive Step where
  | more (d : NumberDraft)
  | over
  | wrong

/-- What follows the digits before the point: a point, an exponent, or the end. -/
def afterWhole (d : NumberDraft) (b : UInt8) : Step :=
  if b == asciiByte '.' then .more { d with phase := .point }
  else if b == asciiByte 'e' || b == asciiByte 'E' then .more { d with phase := .mark }
  else .over

def step (d : NumberDraft) (b : UInt8) : Step :=
  match d.phase with
  | .minus => if isDigit b then .more (d.first b) else .wrong
  | .nought => if isDigit b then .wrong else d.afterWhole b
  | .whole => if isDigit b then .more (d.pushWhole b) else d.afterWhole b
  | .point => if isDigit b then .more (d.pushPlace b) else .wrong
  | .fraction =>
    if isDigit b then .more (d.pushPlace b)
    else if b == asciiByte 'e' || b == asciiByte 'E' then .more { d with phase := .mark }
    else .over
  | .mark =>
    if isDigit b then .more (d.pushPower b)
    else if b == asciiByte '+' then .more { d with phase := .markSign }
    else if b == asciiByte '-' then .more { d with phase := .markSign, powerNegative := true }
    else .wrong
  | .markSign => if isDigit b then .more (d.pushPower b) else .wrong
  | .power => if isDigit b then .more (d.pushPower b) else .over

/-- The number as it stands; none if more must follow. -/
def value? (d : NumberDraft) : Option Json :=
  match d.phase with
  | .nought | .whole =>
    some (.integer (if d.negative then -(d.digits : Int) else d.digits))
  | .fraction | .power =>
    let power : Int := if d.powerNegative then -(d.power : Int) else d.power
    some (.real (.ofDecimal d.negative d.digits (power - d.places)))
  | .minus | .point | .mark | .markSign => none

end NumberDraft

/-! ## Texts -/

/-- The byte that an escape of two characters stands for. -/
def shortEscape? (b : UInt8) : Option UInt8 :=
  if b == asciiByte '"' || b == asciiByte '\\' || b == asciiByte '/' then some b
  else if b == asciiByte 'b' then some 0x08
  else if b == asciiByte 'f' then some 0x0C
  else if b == asciiByte 'n' then some 0x0A
  else if b == asciiByte 'r' then some 0x0D
  else if b == asciiByte 't' then some 0x09
  else none

namespace TextDraft

/-- Adds bytes, in their order. -/
def push (d : TextDraft) (bytes : List UInt8) : TextDraft :=
  { d with bytes := bytes.reverse ++ d.bytes, escape := .off }

def pushChar (d : TextDraft) (n : Nat) : TextDraft := d.push (String.utf8EncodeChar (Char.ofNat n))

/-- The four bytes of a hexadecimal unit are there, the last one at `index`. -/
def unit (d : TextDraft) (high : Option Nat) (codes : List UInt8) (index : Nat) :
    Except SyntaxError TextDraft :=
  match Text.hexNumber? (codes.map UInt8.toNat) with
  | none =>
    let good := (codes.takeWhile fun b => (Text.hexValue? b.toNat).isSome).length
    .error ⟨.invalidEscape, index - 3 + good⟩
  | some unit =>
    match high with
    | none =>
      if 0xDC00 ≤ unit ∧ unit ≤ 0xDFFF then .error ⟨.loneSurrogate, index⟩
      else if 0xD800 ≤ unit ∧ unit ≤ 0xDBFF then .ok { d with escape := .pair unit }
      else .ok (d.pushChar unit)
    | some high =>
      if 0xDC00 ≤ unit ∧ unit ≤ 0xDFFF then
        .ok (d.pushChar (0x10000 + (high - 0xD800) * 0x400 + (unit - 0xDC00)))
      else .error ⟨.loneSurrogate, index⟩

/-- Reads a byte inside the text that does not close it. -/
def step (d : TextDraft) (index : Nat) (b : UInt8) : Except SyntaxError TextDraft :=
  match d.escape with
  | .off =>
    if b == asciiByte '\\' then .ok { d with escape := .backslash }
    else if b < 0x20 then .error ⟨.controlCharacter, index⟩
    else .ok (d.push [b])
  | .backslash =>
    if b == asciiByte 'u' then .ok { d with escape := .hex none [] }
    else
      match shortEscape? b with
      | some byte => .ok (d.push [byte])
      | none => .error ⟨.invalidEscape, index⟩
  | .hex high codes =>
    if codes.length < 3 then .ok { d with escape := .hex high (b :: codes) }
    else d.unit high (b :: codes).reverse index
  | .pair high =>
    if b == asciiByte '\\' then .ok { d with escape := .pairBackslash high }
    else .error ⟨.incompletePair, index⟩
  | .pairBackslash high =>
    if b == asciiByte 'u' then .ok { d with escape := .hex (some high) [] }
    else .error ⟨.incompletePair, index⟩

def isClosedBy (d : TextDraft) (b : UInt8) : Bool :=
  match d.escape with
  | .off => b == asciiByte '"'
  | _ => false

end TextDraft

/-! ## Documents -/

def word (next : Char) (rest : List Char) (value : Json) : Mode :=
  .word (asciiByte next) (rest.map asciiByte) value

/-- The first byte of a value. -/
def beginValue (limits : Limits) (stack : List Frame) (index : Nat) (b : UInt8) :
    Except SyntaxError Reader :=
  -- only here, so that an empty container may lie one level deeper
  if limits.depth < stack.length then .error ⟨.tooDeep, index⟩
  else if b == asciiByte '"' then .ok ⟨stack, .text ⟨.value, index + 1, [], .off⟩⟩
  else if b == asciiByte '[' then .ok ⟨stack, .firstItem⟩
  else if b == asciiByte '\x7b' then .ok ⟨stack, .firstKey⟩
  else if b == asciiByte 't' then .ok ⟨stack, word 'r' ['u', 'e'] (.boolean true)⟩
  else if b == asciiByte 'f' then
    .ok ⟨stack, word 'a' ['l', 's', 'e'] (.boolean false)⟩
  else if b == asciiByte 'n' then .ok ⟨stack, word 'u' ['l', 'l'] .null⟩
  else if b == asciiByte 'N' then .ok ⟨stack, word 'a' ['N'] (.real .nan)⟩
  else if b == asciiByte 'I' then .ok ⟨stack, infinity false⟩
  else if b == asciiByte '-' then .ok ⟨stack, .number (.begin true)⟩
  else if isDigit b then .ok ⟨stack, .number ((NumberDraft.begin false).first b)⟩
  else .error ⟨.expectedValue, index⟩
where
  infinity (negative : Bool) : Mode :=
    word 'n' ['f', 'i', 'n', 'i', 't', 'y'] (.real (.infinite negative))

def stepAfterValue (r : Reader) (index : Nat) (b : UInt8) : Except SyntaxError Reader :=
  if isSpace b then .ok r
  else
    match r.mode with
    | .afterItem done =>
      if b == asciiByte ',' then .ok ⟨r.stack, .nextItem done⟩
      else if b == asciiByte ']' then .ok (complete r.stack (.array done.reverse))
      else .error ⟨.expectedCommaOrBracket, index⟩
    | .afterMember done =>
      if b == asciiByte ',' then .ok ⟨r.stack, .nextKey done⟩
      else if b == asciiByte '\x7d' then .ok (complete r.stack (.object done.reverse))
      else .error ⟨.expectedCommaOrBrace, index⟩
    | _ => .error ⟨.trailingCharacters, index⟩

def closeText (stack : List Frame) (d : TextDraft) : Except SyntaxError Reader :=
  match Utf8.decode? d.bytes.reverse with
  | .error offset => .error ⟨.invalidCodePoint, d.start + offset⟩
  | .ok s =>
    match d.purpose with
    | .value => .ok (complete stack (.text s))
    | .key done => .ok ⟨stack, .afterKey done s⟩

/-- Reads the byte at `index`. -/
def Reader.step (limits : Limits) (r : Reader) (index : Nat) (b : UInt8) :
    Except SyntaxError Reader :=
  match r.mode with
  | .value => if isSpace b then .ok r else beginValue limits r.stack index b
  | .firstItem =>
    if isSpace b then .ok r
    else if b == asciiByte ']' then .ok (complete r.stack (.array []))
    else beginValue limits (.item [] :: r.stack) index b
  | .nextItem done =>
    if isSpace b then .ok r
    else if b == asciiByte ']' then .error ⟨.trailingComma, index⟩
    else beginValue limits (.item done :: r.stack) index b
  | .firstKey =>
    if isSpace b then .ok r
    else if b == asciiByte '"' then .ok ⟨r.stack, .text ⟨.key [], index + 1, [], .off⟩⟩
    else if b == asciiByte '\x7d' then .ok (complete r.stack (.object []))
    else .error ⟨.keyNotText, index⟩
  | .nextKey done =>
    if isSpace b then .ok r
    else if b == asciiByte '"' then .ok ⟨r.stack, .text ⟨.key done, index + 1, [], .off⟩⟩
    else if b == asciiByte '\x7d' then .error ⟨.trailingComma, index⟩
    else .error ⟨.keyNotText, index⟩
  | .afterKey done key =>
    if isSpace b then .ok r
    else if b == asciiByte ':' then .ok ⟨.member done key :: r.stack, .value⟩
    else .error ⟨.expectedColon, index⟩
  | .afterItem _ | .afterMember _ | .finished _ => stepAfterValue r index b
  | .word next rest v =>
    if b == next then
      match rest with
      | [] => .ok (complete r.stack v)
      | next :: rest => .ok ⟨r.stack, .word next rest v⟩
    else .error ⟨.expectedWord, index⟩
  | .number d =>
    -- the minus sign was that of an infinity
    if d.phase = .minus ∧ b == asciiByte 'I' then .ok ⟨r.stack, beginValue.infinity d.negative⟩
    else
      match d.step b with
      | .more d =>
        if limits.digits < d.width then .error ⟨.numberTooLong, index + 1⟩
        else .ok ⟨r.stack, .number d⟩
      | .wrong => .error ⟨.invalidNumber, index⟩
      | .over =>
        match d.value? with
        | some v => stepAfterValue (complete r.stack v) index b
        | none => .error ⟨.invalidNumber, index⟩
  | .text d =>
    if d.isClosedBy b then closeText r.stack d
    else (d.step index b).map fun d => ⟨r.stack, .text d⟩

def Reader.run (limits : Limits) (r : Reader) (index : Nat) : List UInt8 → Except SyntaxError Reader
  | [] => .ok r
  | b :: rest =>
    match r.step limits index b with
    | .ok r => r.run limits (index + 1) rest
    | .error e => .error e

/-- What the end of the document means where no number is being read. -/
def Mode.finish : Mode → Except SyntaxCause Json
  | .value | .nextItem _ | .nextKey _ | .word _ _ _ | .number _ => .error .endInValue
  | .firstItem | .afterItem _ => .error .endInArray
  | .firstKey | .afterKey _ _ | .afterMember _ => .error .endInObject
  | .text _ => .error .endInText
  | .finished v => .ok v

/-- What the end of the document means: it completes a number, and the document if nothing is
open. -/
def Reader.finish (r : Reader) : Except SyntaxCause Json :=
  match r.mode with
  | .number d =>
    match d.value? with
    | some v => (complete r.stack v).mode.finish
    | none => .error .endInValue
  | mode => mode.finish

def read? (limits : Limits) (bytes : List UInt8) : Except SyntaxError Json :=
  match Reader.start.run limits 0 bytes with
  | .error e => .error e
  | .ok r => r.finish.mapError fun cause => ⟨cause, bytes.length⟩

theorem Reader.run_cons_ok {limits : Limits} {r r' : Reader} {index : Nat} {b : UInt8}
    {rest : List UInt8} : r.run limits index (b :: rest) = .ok r' ↔
      ∃ next, r.step limits index b = .ok next ∧ next.run limits (index + 1) rest = .ok r' := by
  rw [run]
  cases r.step limits index b with
  | error e => exact ⟨nofun, fun ⟨_, h, _⟩ => nomatch h⟩
  | ok next =>
    constructor
    · intro h
      exact ⟨next, rfl, h⟩
    · rintro ⟨_, ⟨⟩, h⟩
      exact h

theorem Reader.run_append (limits : Limits) (r : Reader) (index : Nat) (xs ys : List UInt8) :
    r.run limits index (xs ++ ys) =
      (r.run limits index xs).bind fun r => r.run limits (index + xs.length) ys := by
  induction xs generalizing r index with
  | nil => rfl
  | cons b rest ih =>
    simp only [List.cons_append, run, List.length_cons]
    cases r.step limits index b with
    | error e => rfl
    | ok r => simp only [ih, Nat.add_assoc, Nat.add_comm 1]

end TimetableFeed.Json
