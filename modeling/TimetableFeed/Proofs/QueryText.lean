import TimetableFeed.Proofs.Masking
import TimetableFeed.Proofs.Utf8Text

/-!
# Reading back queries

Pairs that are written as a query are read as the same pairs, whatever their names and values hold.
Each byte of a name or a value is read back as itself, whatever follows it, and none of the marks
that a query is cut at stands in what is written of it.

Main statement: `Url.readQuery_writeQuery`.
-/

namespace TimetableFeed.Url

/-! ## Names and values -/

/-- The text as it is once a plus has become a blank. -/
def spaced (cs : List Char) : List Char := cs.map fun c => if c = '+' then ' ' else c

theorem spaced_append (xs ys : List Char) : spaced (xs ++ ys) = spaced xs ++ spaced ys :=
  List.map_append

/-- A plain byte is a character of ASCII that has no part in escapes. -/
theorem plain_byte : ∀ n < 256, isPlain (UInt8.ofNat n) = true →
    n < 128 ∧ Char.ofNat n ≠ '+' ∧ Char.ofNat n ≠ '%' ∧ (Char.ofNat n).toNat = n := by
  decide +kernel

theorem hexDigitUpper_ne_plus {n : Nat} (h : n < 16) : Text.hexDigitUpper n ≠ '+' := by
  revert h n
  decide

theorem hexNumber_of_byte (b : UInt8) :
    Text.hexNumber? [(Text.hexDigitUpper (b.toNat / 16)).toNat,
      (Text.hexDigitUpper (b.toNat % 16)).toNat] = some b.toNat := by
  have hbound : b.toNat < 256 := b.toNat_lt
  have hhigh := Text.hexValue?_hexDigitUpper (n := b.toNat / 16) (by omega)
  have hlow := Text.hexValue?_hexDigitUpper (n := b.toNat % 16) (by omega)
  have hsum : b.toNat / 16 * 16 + b.toNat % 16 = b.toNat := by omega
  simp [Text.hexNumber?, hhigh, hlow, hsum]

/-- **A byte is read back**, by the three ways of writing it. -/
theorem units_escapeByte (b : UInt8) (rest : List Char) :
    units (spaced (escapeByte b) ++ rest) = .inl b :: units rest := by
  unfold escapeByte
  split
  · rename_i hplain
    obtain ⟨hascii, hplus, hpercent, hcode⟩ :=
      plain_byte b.toNat b.toNat_lt (by rwa [UInt8.ofNat_toNat])
    rw [spaced, List.map_singleton, if_neg hplus, List.singleton_append,
      units.eq_2 _ _ fun _ _ _ heq _ => hpercent heq, hcode, if_pos hascii, UInt8.ofNat_toNat]
  · split
    · rename_i hblank
      subst hblank
      rw [show spaced ['+'] ++ rest = ' ' :: rest from rfl,
        units.eq_2 _ _ fun _ _ _ heq _ => absurd heq (by decide)]
      rfl
    · have hbound : b.toNat < 256 := b.toNat_lt
      have hhigh := hexDigitUpper_ne_plus (n := b.toNat / 16) (by omega)
      have hlow := hexDigitUpper_ne_plus (n := b.toNat % 16) (by omega)
      have hspaced : spaced ['%', Text.hexDigitUpper (b.toNat / 16),
          Text.hexDigitUpper (b.toNat % 16)] =
          ['%', Text.hexDigitUpper (b.toNat / 16), Text.hexDigitUpper (b.toNat % 16)] := by
        simp [spaced, hhigh, hlow]
      rw [hspaced, List.cons_append, List.cons_append, List.singleton_append, units.eq_1,
        hexNumber_of_byte]
      simp only [UInt8.ofNat_toNat]

theorem units_escapeBytes (bs : List UInt8) :
    units (spaced (bs.flatMap escapeByte)) = bs.map .inl := by
  induction bs with
  | nil => rfl
  | cons b rest ih =>
      rw [List.flatMap_cons, spaced_append, units_escapeByte, ih, List.map_cons]

theorem unitPieces_bytes (state : Option Utf8.Partial) (bs : List UInt8) :
    unitPieces state (bs.map .inl) = Utf8.pieces state bs := by
  induction bs generalizing state with
  | nil => cases state <;> rfl
  | cons b rest ih => cases state <;> simp only [List.map_cons, unitPieces, Utf8.pieces, ih]

/-- **A name or a value is read back.** -/
theorem unescape_escape (cs : List Char) : unescape (escape cs) = cs := by
  show (unitPieces none (units (spaced (escape cs)))).map (·.getD Utf8.replacement) = cs
  rw [escape, units_escapeBytes, unitPieces_bytes, Utf8.pieces_encodeChars, List.map_map]
  exact List.map_id cs

/-! ## Pairs -/

/-- A query and its pieces are not cut at the character, and an address does not lose it. -/
def isUncut (c : Char) : Bool :=
  c != '&' && c != '=' && c != '#' && c != '\t' && c != '\n' && c != '\r'

theorem isUncut_escapeByte : ∀ n < 256, (escapeByte (UInt8.ofNat n)).all isUncut = true := by
  decide +kernel

theorem isUncut_escape {cs : List Char} {c : Char} (h : c ∈ escape cs) : isUncut c = true := by
  obtain ⟨b, -, hc⟩ := List.mem_flatMap.mp h
  have hall := isUncut_escapeByte b.toNat b.toNat_lt
  rw [UInt8.ofNat_toNat] at hall
  exact List.all_eq_true.mp hall c hc

theorem not_mem_escape {c : Char} (h : isUncut c = false) (cs : List Char) : c ∉ escape cs := by
  intro hmem
  rw [isUncut_escape hmem] at h
  cases h

theorem readPair_writePair (pair : Pair) : readPair (writePair pair) = pair := by
  have hcut : Text.cut '=' (writePair pair) = (escape pair.1, some (escape pair.2)) :=
    Text.cut_behind (not_mem_escape rfl pair.1) (some (escape pair.2))
  rw [readPair, hcut]
  simp only [Option.getD_some, unescape_escape]

theorem not_mem_writePair {c : Char} (h : isUncut c = false) (hne : c ≠ '=') (pair : Pair) :
    c ∉ writePair pair := by
  simp only [writePair, List.mem_append, List.mem_cons, not_or]
  exact ⟨not_mem_escape h pair.1, hne, not_mem_escape h pair.2⟩

/-- **Pairs are read back** from the query that holds them. -/
theorem readQuery_writeQuery (pairs : List Pair) : readQuery (writeQuery pairs) = pairs := by
  by_cases hne : pairs = []
  · subst hne
    rfl
  · have hpieces : ∀ piece ∈ pairs.map writePair, '&' ∉ piece := by
      intro piece hpiece
      obtain ⟨pair, -, rfl⟩ := List.mem_map.mp hpiece
      exact not_mem_writePair rfl (by decide) pair
    have hfull : ∀ piece ∈ pairs.map writePair, (!piece.isEmpty) = true := by
      intro piece hpiece
      obtain ⟨pair, -, rfl⟩ := List.mem_map.mp hpiece
      simp [writePair]
    rw [readQuery, writeQuery, Text.splitAt_intercalate hpieces (by simpa using hne),
      List.filter_eq_self.mpr hfull, List.map_map]
    exact (List.map_congr_left fun pair _ => readPair_writePair pair).trans (List.map_id pairs)

/-- Neither a fragment begins in a written query, nor does an address lose any of it. -/
theorem not_mem_writeQuery {c : Char} (h : isUncut c = false) (hequals : c ≠ '=') (hamp : c ≠ '&')
    (pairs : List Pair) : c ∉ writeQuery pairs := by
  induction pairs with
  | nil => exact List.not_mem_nil
  | cons pair rest ih =>
      have hpair := not_mem_writePair h hequals pair
      cases rest with
      | nil => simpa [writeQuery] using hpair
      | cons next rest =>
          rw [writeQuery, List.map_cons, List.map_cons, List.intercalate_cons_cons]
          simp only [List.mem_append, List.mem_singleton, not_or]
          exact ⟨⟨hpair, hamp⟩, ih⟩

end TimetableFeed.Url
