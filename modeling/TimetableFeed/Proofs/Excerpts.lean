import TimetableFeed.Feed.Excerpt
import TimetableFeed.Proofs.Utf8Text

/-!
# Excerpts of texts

The excerpt of a text ends at a byte, wherever in a character that is. It shows the longest
beginning of whole characters that fits; of a character that is cut through it shows one replacement
character, however many of its bytes are left.

Main definitions: `Excerpt.LongestFit`, `Excerpt.CutsThrough`. Main statements: `Utf8.pieces_cut`,
`Excerpt.write_text`.
-/

namespace TimetableFeed

namespace Utf8

/-! ## Characters that are cut through -/

/-- What has been read counts for the rest only by the state that it leaves. -/
theorem pieces_append (front : List UInt8) (state : Option Partial) :
    ∃ out state', ∀ rest, pieces state (front ++ rest) = out ++ pieces state' rest := by
  induction front generalizing state with
  | nil => exact ⟨[], state, fun rest => rfl⟩
  | cons b front ih =>
      obtain ⟨out, state', h⟩ := ih (step state b).2
      refine ⟨(step state b).1 ++ out, state', fun rest => ?_⟩
      rw [List.cons_append, pieces, h, List.append_assoc]

/-- A byte gives a piece, or it leaves an unfinished character. -/
theorem step_gives_or_leaves (state : Option Partial) (b : UInt8) :
    (step state b).1 ≠ [] ∨ (step state b).2 ≠ none := by
  have hfresh : (fresh b).1 ≠ [] ∨ (fresh b).2 ≠ none := by
    unfold fresh
    cases lead b <;> simp
  cases state with
  | none => exact hfresh
  | some p =>
      rw [step]
      split
      · cases p.extend b <;> simp
      · exact .inl (List.cons_ne_nil _ _)

/-- No byte is passed over, and no unfinished character. -/
theorem pieces_eq_nil_iff (state : Option Partial) (bytes : List UInt8) :
    pieces state bytes = [] ↔ state = none ∧ bytes = [] := by
  induction bytes generalizing state with
  | nil => cases state <;> simp [pieces]
  | cons b rest ih =>
      refine iff_of_false ?_ fun h => List.cons_ne_nil _ _ h.2
      rw [pieces, List.append_eq_nil_iff, ih]
      rintro ⟨hgives, hleaves, -⟩
      rcases step_gives_or_leaves state b with h | h
      · exact h hgives
      · exact h hleaves

/-- **A character that is cut through** is one broken sequence, wherever it is cut: its last byte
alone gives the character, so the bytes before that give nothing but what is left of it. -/
theorem pieces_cut {c : Char} {front rest : List UInt8}
    (h : String.utf8EncodeChar c = front ++ rest) (hfront : front ≠ []) (hrest : rest ≠ []) :
    pieces none front = [none] := by
  obtain ⟨out, state, hout⟩ := pieces_append front none
  have hwhole : out ++ pieces state rest = [some c] := by
    have hchar := pieces_encodeChar c []
    rw [List.append_nil, h, hout] at hchar
    exact hchar
  have hstop : pieces none front = out ++ pieces state [] := by
    rw [← hout, List.append_nil]
  have hleft : pieces state rest ≠ [] := fun hnil => hrest ((pieces_eq_nil_iff _ _).mp hnil).2
  have hnothing : out = [] := by
    rcases List.append_eq_singleton_iff.mp hwhole with ⟨hnil, -⟩ | ⟨-, hnil⟩
    · exact hnil
    · exact absurd hnil hleft
  rw [hnothing, List.nil_append] at hstop
  cases state with
  | none => exact absurd ((pieces_eq_nil_iff _ _).mp hstop).2 hfront
  | some p => exact hstop

end Utf8

namespace Excerpt

open Utf8 (encodeChars decodeCharsLossy replacement)

/-! ## Whole characters -/

def size (cs : List Char) : Nat := (encodeChars cs).length

/-- Of the beginnings of the characters `front` is the longest one whose bytes fit. -/
structure LongestFit (limit : Nat) (cs front : List Char) : Prop where
  begins : front <+: cs
  fits : size front ≤ limit
  longest : ∀ other, other <+: cs → size other ≤ limit → other <+: front

/-- So many bytes end inside of a character. -/
def CutsThrough (limit : Nat) (cs : List Char) : Prop :=
  ∃ before c after, cs = before ++ c :: after ∧ size before < limit ∧ limit < size (before ++ [c])

variable {limit : Nat} {front rest : List Char}

theorem size_append (xs ys : List Char) : size (xs ++ ys) = size xs + size ys := by
  rw [size, Utf8.encodeChars_append, List.length_append]
  rfl

/-- `front` fits, and with one character more it does not. -/
def StopsAt (limit : Nat) (front rest : List Char) : Prop :=
  size front ≤ limit ∧ ∀ c ∈ rest.head?, limit < size (front ++ [c])

theorem exists_stop (limit : Nat) (cs : List Char) :
    ∃ front rest, cs = front ++ rest ∧ StopsAt limit front rest := by
  induction cs generalizing limit with
  | nil => exact ⟨[], [], rfl, Nat.zero_le _, nofun⟩
  | cons c cs ih =>
      by_cases hfits : size [c] ≤ limit
      · obtain ⟨front, rest, rfl, hfront, hnext⟩ := ih (limit - size [c])
        refine ⟨c :: front, rest, rfl, ?_, fun d hd => ?_⟩
        · rw [← List.singleton_append, size_append]
          omega
        · have hd := hnext d hd
          rw [List.cons_append, ← List.singleton_append, size_append]
          omega
      · refine ⟨[], c :: cs, rfl, Nat.zero_le _, ?_⟩
        rintro d ⟨⟩
        exact Nat.lt_of_not_le hfits

theorem StopsAt.longestFit (h : StopsAt limit front rest) :
    LongestFit limit (front ++ rest) front := by
  refine ⟨List.prefix_append _ _, h.1, fun other hother hfits => ?_⟩
  obtain ⟨after, hafter⟩ := hother
  rcases List.append_eq_append_iff.mp hafter with ⟨more, rfl, -⟩ | ⟨more, rfl, hrest⟩
  · exact List.prefix_append _ _
  · cases more with
    | nil => simp
    | cons c more =>
        -- with its next character `front` does not fit, so `other` does not either
        have hnext := h.2 c (by rw [hrest]; rfl)
        rw [← List.singleton_append, ← List.append_assoc, size_append] at hfits
        omega

theorem StopsAt.cutsThrough_iff (h : StopsAt limit front rest) :
    CutsThrough limit (front ++ rest) ↔ rest ≠ [] ∧ size front < limit := by
  constructor
  · rintro ⟨before, c, after, hcs, hbefore, hc⟩
    have hfront := h.1
    rcases List.append_eq_append_iff.mp hcs with ⟨more, rfl, rfl⟩ | ⟨more, rfl, hrest⟩
    · rw [size_append] at hbefore
      exact ⟨by simp, by omega⟩
    · cases more with
      | nil =>
          rw [List.append_nil]
          exact ⟨by rw [← List.nil_append rest, ← hrest]; exact List.cons_ne_nil _ _, hbefore⟩
      | cons d more =>
          -- the character that is cut through would belong to `front`, which fits
          obtain ⟨rfl, -⟩ := List.cons.inj hrest
          rw [← List.singleton_append, ← List.append_assoc, size_append] at hfront
          omega
  · rintro ⟨hrest, hlt⟩
    obtain ⟨c, after, rfl⟩ := List.exists_cons_of_ne_nil hrest
    exact ⟨front, c, after, rfl, hlt, h.2 c rfl⟩

/-! ## The excerpt -/

/-- The first bytes of a text, read as text. -/
theorem StopsAt.decode (h : StopsAt limit front rest) :
    decodeCharsLossy ((encodeChars (front ++ rest)).take limit) =
      front ++ if rest ≠ [] ∧ size front < limit then [replacement] else [] := by
  have hlength : (encodeChars front).length = size front := rfl
  have hfront := h.1
  have hcut : Utf8.pieces none ((encodeChars rest).take (limit - size front)) =
      if rest ≠ [] ∧ size front < limit then [none] else [] := by
    cases rest with
    | nil => simp [encodeChars, Utf8.pieces]
    | cons c after =>
        have hnext := h.2 c rfl
        have hc : size [c] = (String.utf8EncodeChar c).length := by simp [size, encodeChars]
        rw [size_append, hc] at hnext
        rw [Utf8.encodeChars_cons, List.take_append_of_le_length (by omega)]
        by_cases hlt : size front < limit
        · rw [if_pos ⟨List.cons_ne_nil _ _, hlt⟩]
          refine Utf8.pieces_cut (List.take_append_drop _ _).symm ?_ ?_
          · rw [← List.length_pos_iff, List.length_take]
            omega
          · rw [← List.length_pos_iff, List.length_drop]
            omega
        · rw [if_neg (fun hboth => hlt hboth.2), show limit - size front = 0 by omega]
          rfl
  rw [Utf8.encodeChars_append, List.take_append, List.take_of_length_le (by omega), hlength,
    decodeCharsLossy, Utf8.pieces_encodeChars_append, hcut, List.map_append, List.map_map,
    show (fun x : Option Char => x.getD replacement) ∘ some = id from rfl, List.map_id]
  split <;> rfl

/-- **What the excerpt of a text shows**: the longest beginning of whole characters whose bytes fit;
then one replacement character if the limit cuts through a character, and none otherwise; then the
mark if there is more, and none otherwise. It is the same for the text and for its bytes. -/
theorem write_text (s : String) (limit : Nat) :
    writeText limit s = write limit (Utf8.encode s) ∧
      ∃ (front : List Char) (cut tail : String), LongestFit limit s.toList front ∧
        write limit (Utf8.encode s) = String.ofList front ++ cut ++ tail ∧
        (CutsThrough limit s.toList → cut = "\uFFFD") ∧
        (¬ CutsThrough limit s.toList → cut = "") ∧
        (limit < (Utf8.encode s).length → tail = mark (Utf8.encode s).length) ∧
        ((Utf8.encode s).length ≤ limit → tail = "") := by
  obtain ⟨front, rest, hs, hstop⟩ := exists_stop limit s.toList
  have hhead : head (Utf8.encode s) limit = (encodeChars (front ++ rest)).take limit := by
    rw [head, if_pos (Int.natCast_nonneg limit), Int.toNat_natCast, Utf8.encode, hs]
  have htext : Utf8.decodeLossy (head (Utf8.encode s) limit) = String.ofList front ++
      if rest ≠ [] ∧ size front < limit then "\uFFFD" else "" := by
    rw [Utf8.decodeLossy, hhead, hstop.decode, String.ofList_append]
    split <;> rfl
  refine ⟨rfl, front, if rest ≠ [] ∧ size front < limit then "\uFFFD" else "",
    if limit < (Utf8.encode s).length then mark (Utf8.encode s).length else "", ?_, ?_, ?_, ?_, ?_,
    ?_⟩
  · rw [hs]
    exact hstop.longestFit
  · rw [write, htext]
    by_cases hmore : limit < (Utf8.encode s).length
    · rw [if_pos hmore, if_pos (Int.ofNat_lt.mpr hmore)]
    · rw [if_neg hmore, if_neg (fun h => hmore (Int.ofNat_lt.mp h)), String.append_empty]
  · rw [hs, hstop.cutsThrough_iff]
    exact fun h => if_pos h
  · rw [hs, hstop.cutsThrough_iff]
    exact fun h => if_neg h
  · exact fun h => if_pos h
  · exact fun h => if_neg (Nat.not_lt.mpr h)

/-- The limit leaves one byte of the last character, which has three. -/
example : writeText 4 "né€" = "né\uFFFD…<truncated 6b>" := by decide +kernel

end Excerpt

end TimetableFeed
