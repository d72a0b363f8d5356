import TimetableFeed.Text.Ascii
import TimetableFeed.Text.Utf8

/-!
# Reading back UTF-8

The bytes of a text are read as that text: between two characters, the bytes of a character are read
as it, whatever follows them.

Main statement: `Utf8.decode_encodeChars`.
-/

namespace TimetableFeed.Utf8

open TimetableFeed.Text (asciiByte)

theorem encodeChars_append (xs ys : List Char) :
    encodeChars (xs ++ ys) = encodeChars xs ++ encodeChars ys :=
  List.flatMap_append

theorem encodeChars_cons (c : Char) (cs : List Char) :
    encodeChars (c :: cs) = String.utf8EncodeChar c ++ encodeChars cs :=
  List.flatMap_cons

/-! ## ASCII -/

theorem encodeChar_of_ascii {c : Char} (h : c.toNat < 128) :
    String.utf8EncodeChar c = [asciiByte c] := by
  have hle : c.val.toNat ≤ 127 := Nat.le_of_lt_succ h
  rw [String.utf8EncodeChar, if_pos hle]
  rfl

theorem encodeChars_cons_ascii {c : Char} (h : c.toNat < 128) (cs : List Char) :
    encodeChars (c :: cs) = asciiByte c :: encodeChars cs := by
  rw [encodeChars_cons, encodeChar_of_ascii h, List.singleton_append]

theorem encodeChars_of_ascii {cs : List Char} (h : ∀ c ∈ cs, c.toNat < 128) :
    encodeChars cs = cs.map asciiByte := by
  induction cs with
  | nil => rfl
  | cons c rest ih =>
      obtain ⟨hc, hrest⟩ := List.forall_mem_cons.mp h
      rw [encodeChars_cons_ascii hc, ih hrest, List.map_cons]

theorem toNat_asciiByte {c : Char} (h : c.toNat < 128) : (asciiByte c).toNat = c.toNat := by
  rw [asciiByte, UInt8.toNat_ofNat']
  omega

/-! ## The first byte -/

theorem lead_of_ascii : ∀ n < 128, lead (UInt8.ofNat n) = .single (Char.ofNat n) := by decide

theorem lead_of_two : ∀ n < 32, 2 ≤ n →
    lead (UInt8.ofNat (n + 192)) = .opens ⟨1, 0x80, 0xBF, n⟩ := by
  decide

/-- Of three bytes, the second one is not so small that two would have done, and it does not make a
surrogate. -/
theorem lead_of_three : ∀ n < 16, lead (UInt8.ofNat (n + 224)) =
    .opens ⟨2, if n = 0 then 0xA0 else 0x80, if n = 13 then 0x9F else 0xBF, n⟩ := by
  decide

/-- Of four bytes, the second one is not so small that three would have done, and not beyond the
last code point. -/
theorem lead_of_four : ∀ n < 5, lead (UInt8.ofNat (n + 240)) =
    .opens ⟨3, if n = 0 then 0x90 else 0x80, if n = 4 then 0x8F else 0xBF, n⟩ := by
  decide

/-! ## Byte by byte -/

theorem pieces_of_single {b : UInt8} {c : Char} (h : lead b = .single c) (rest : List UInt8) :
    pieces none (b :: rest) = some c :: pieces none rest := by
  rw [pieces, step, fresh, h]
  rfl

theorem pieces_of_opens {b : UInt8} {p : Partial} (h : lead b = .opens p) (rest : List UInt8) :
    pieces none (b :: rest) = pieces (some p) rest := by
  rw [pieces, step, fresh, h]
  rfl

/-- What an unfinished character becomes with six more bits. -/
theorem step_of_bits {p : Partial} {n : Nat} (hn : n < 64) (hlow : p.low ≤ n + 128)
    (hhigh : n + 128 ≤ p.high) : step (some p) (UInt8.ofNat (n + 128)) =
      if p.owed ≤ 1 then ([some (Char.ofNat (p.bits * 64 + n))], none)
      else ([], some ⟨p.owed - 1, 0x80, 0xBF, p.bits * 64 + n⟩) := by
  have hbyte : (UInt8.ofNat (n + 128)).toNat = n + 128 := by
    rw [UInt8.toNat_ofNat']
    omega
  have hadmits : p.admits (UInt8.ofNat (n + 128)) = true := by
    rw [Partial.admits, hbyte, decide_eq_true hlow, decide_eq_true hhigh]
    rfl
  rw [step, if_pos hadmits, Partial.extend, hbyte, Nat.add_sub_cancel]
  by_cases howed : p.owed ≤ 1
  · rw [if_pos howed, if_pos howed]
  · rw [if_neg howed, if_neg howed]

theorem pieces_of_last {p : Partial} {n : Nat} (howed : p.owed = 1) (hn : n < 64)
    (hlow : p.low ≤ n + 128) (hhigh : n + 128 ≤ p.high) (rest : List UInt8) :
    pieces (some p) (UInt8.ofNat (n + 128) :: rest) =
      some (Char.ofNat (p.bits * 64 + n)) :: pieces none rest := by
  rw [pieces, step_of_bits hn hlow hhigh, if_pos (Nat.le_of_eq howed)]
  rfl

theorem pieces_of_middle {p : Partial} {n : Nat} (howed : 1 < p.owed) (hn : n < 64)
    (hlow : p.low ≤ n + 128) (hhigh : n + 128 ≤ p.high) (rest : List UInt8) :
    pieces (some p) (UInt8.ofNat (n + 128) :: rest) =
      pieces (some ⟨p.owed - 1, 0x80, 0xBF, p.bits * 64 + n⟩) rest := by
  rw [pieces, step_of_bits hn hlow hhigh, if_neg (Nat.not_le_of_lt howed)]
  rfl

/-- **A character is read back**, by the number of its bytes. -/
theorem pieces_encodeChar (c : Char) (rest : List UInt8) :
    pieces none (String.utf8EncodeChar c ++ rest) = some c :: pieces none rest := by
  have hvalid : c.toNat < 0xD800 ∨ 0xDFFF < c.toNat ∧ c.toNat < 0x110000 := c.valid
  have hchar : ∀ n, n = c.toNat → Char.ofNat n = c := by
    rintro n rfl
    exact Char.ofNat_toNat c
  unfold String.utf8EncodeChar
  rw [show c.val.toNat = c.toNat from rfl]
  generalize c.toNat = v at hvalid hchar
  dsimp only
  split
  · rename_i hv
    rw [List.singleton_append, pieces_of_single (lead_of_ascii v (by omega)), hchar v rfl]
  · split
    · rename_i hfew hv
      simp only [List.cons_append, List.nil_append]
      rw [pieces_of_opens (lead_of_two _ (by omega) (by omega)),
        pieces_of_last rfl (by omega) (by dsimp only; omega) (by dsimp only; omega), hchar]
      dsimp only
      omega
    · split
      · rename_i hfew hv
        simp only [List.cons_append, List.nil_append]
        rw [pieces_of_opens (lead_of_three _ (by omega)),
          pieces_of_middle (by dsimp only; omega) (by omega) (by dsimp only; split <;> omega)
            (by dsimp only; split <;> omega),
          pieces_of_last rfl (by omega) (by dsimp only; omega) (by dsimp only; omega), hchar]
        dsimp only
        omega
      · rename_i hfew
        simp only [List.cons_append, List.nil_append]
        rw [show v / 262144 % 8 = v / 262144 by omega,
          pieces_of_opens (lead_of_four _ (by omega)),
          pieces_of_middle (by dsimp only; omega) (by omega) (by dsimp only; split <;> omega)
            (by dsimp only; split <;> omega),
          pieces_of_middle (by dsimp only; omega) (by omega) (by dsimp only; omega)
            (by dsimp only; omega),
          pieces_of_last rfl (by omega) (by dsimp only; omega) (by dsimp only; omega), hchar]
        dsimp only
        omega

/-- Characters are read back in front of any bytes. -/
theorem pieces_encodeChars_append (cs : List Char) (rest : List UInt8) :
    pieces none (encodeChars cs ++ rest) = cs.map some ++ pieces none rest := by
  induction cs with
  | nil => rfl
  | cons c cs ih =>
      rw [encodeChars_cons, List.append_assoc, pieces_encodeChar, ih, List.map_cons,
        List.cons_append]

theorem pieces_encodeChars (cs : List Char) : pieces none (encodeChars cs) = cs.map some := by
  have h := pieces_encodeChars_append cs []
  rwa [List.append_nil, pieces, List.append_nil] at h

theorem collect_map_some (cs : List Char) (offset : Nat) :
    collect offset (cs.map some) = .ok cs := by
  induction cs generalizing offset with
  | nil => rfl
  | cons c rest ih =>
      rw [List.map_cons, collect, ih]
      rfl

/-- **A text is read back** from its bytes. -/
theorem decode_encodeChars (cs : List Char) :
    decode? (encodeChars cs) = .ok (String.ofList cs) := by
  rw [decode?, pieces_encodeChars, collect_map_some]
  rfl

end TimetableFeed.Utf8
