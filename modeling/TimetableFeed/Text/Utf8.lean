/-!
# UTF-8

Text as bytes and bytes as text. A machine reads one byte at a time: between characters a byte is a
whole character, opens one, or is stray; inside a character a byte is taken if it lies in the range
that the bytes before it leave open. What cannot be continued is a broken sequence, as long as the
longest prefix that some character has (the practice that the Unicode standard recommends), and the
byte that broke it is read afresh.

Main definitions: `encode`; `decode?`, which refuses broken sequences and tells where the first
begins; `decodeLossy`, which puts U+FFFD for each.
-/

namespace TimetableFeed.Utf8

def encodeChars (cs : List Char) : List UInt8 := cs.flatMap String.utf8EncodeChar

def encode (s : String) : List UInt8 := encodeChars s.toList

/-- An unfinished character: how many bytes it still needs, the range of the next one, and the bits
that its bytes so far hold. -/
structure Partial where
  owed : Nat
  low : Nat
  high : Nat
  bits : Nat
  deriving DecidableEq, Repr

/-- What a byte between two characters is. -/
inductive Lead where
  | single (c : Char)
  | opens (unfinished : Partial)
  | stray
  deriving DecidableEq, Repr

def lead (b : UInt8) : Lead :=
  let n := b.toNat
  if n < 0x80 then .single (Char.ofNat n)
  else if 0xC2 ≤ n ∧ n ≤ 0xDF then .opens ⟨1, 0x80, 0xBF, n - 0xC0⟩
  else if n = 0xE0 then .opens ⟨2, 0xA0, 0xBF, 0⟩
  else if n = 0xED then .opens ⟨2, 0x80, 0x9F, 0xD⟩
  else if 0xE1 ≤ n ∧ n ≤ 0xEF then .opens ⟨2, 0x80, 0xBF, n - 0xE0⟩
  else if n = 0xF0 then .opens ⟨3, 0x90, 0xBF, 0⟩
  else if 0xF1 ≤ n ∧ n ≤ 0xF3 then .opens ⟨3, 0x80, 0xBF, n - 0xF0⟩
  else if n = 0xF4 then .opens ⟨3, 0x80, 0x8F, 4⟩
  else .stray

/-- What becomes of an unfinished character when a byte of its range follows. -/
def Partial.extend (p : Partial) (b : UInt8) : Char ⊕ Partial :=
  let bits := p.bits * 64 + (b.toNat - 0x80)
  if p.owed ≤ 1 then .inl (Char.ofNat bits) else .inr ⟨p.owed - 1, 0x80, 0xBF, bits⟩

def Partial.admits (p : Partial) (b : UInt8) : Bool :=
  p.low ≤ b.toNat && b.toNat ≤ p.high

/-- Reads a byte between two characters: what it completes, characters and broken sequences
(none), and the character that it leaves unfinished. -/
def fresh (b : UInt8) : List (Option Char) × Option Partial :=
  match lead b with
  | .single c => ([some c], none)
  | .opens p => ([], some p)
  | .stray => ([none], none)

def step (state : Option Partial) (b : UInt8) : List (Option Char) × Option Partial :=
  match state with
  | none => fresh b
  | some p =>
    if p.admits b then
      match p.extend b with
      | .inl c => ([some c], none)
      | .inr p => ([], some p)
    else (none :: (fresh b).1, (fresh b).2)

/-- What the bytes hold, in order: characters and broken sequences (none). -/
def pieces : Option Partial → List UInt8 → List (Option Char)
  | none, [] => []
  | some _, [] => [none]
  | state, b :: rest => (step state b).1 ++ pieces (step state b).2 rest

/-- U+FFFD, which stands for what is no text. -/
def replacement : Char := Char.ofNat 0xFFFD

/-- The text of the bytes, with U+FFFD for each broken sequence. -/
def decodeCharsLossy (bytes : List UInt8) : List Char :=
  (pieces none bytes).map (·.getD replacement)

/-- The text of the bytes, with U+FFFD for each broken sequence. -/
def decodeLossy (bytes : List UInt8) : String := String.ofList (decodeCharsLossy bytes)

/-- The characters of the pieces, or the number of bytes before the first broken sequence. -/
def collect : Nat → List (Option Char) → Except Nat (List Char)
  | _, [] => .ok []
  | offset, none :: _ => .error offset
  | offset, some c :: rest => (collect (offset + c.utf8Size) rest).map (c :: ·)

/-- The text of the bytes, or the offset at which the first broken sequence begins. -/
def decode? (bytes : List UInt8) : Except Nat String :=
  (collect 0 (pieces none bytes)).map String.ofList

end TimetableFeed.Utf8
