import Mathlib.Logic.Basic
import TimetableFeed.Proofs.JsonText

/-!
# Widths of numbers

How long the numbers of a document are is told by a scan that knows no values and no containers, but
only where a text begins and ends. The scan keeps step with any reader of the document: where the
reader is inside a number, the scan has counted as many bytes of it.

Main definitions: `Json.Scan`, `Json.longestNumber`. Main statement: `Json.Reader.step_scans`.
-/

namespace TimetableFeed.Json

open TimetableFeed.Text (asciiByte)

/-! ## The scan -/

/-- What is known between two bytes: they are outside texts and numbers; they belong to a number,
before its point or exponent or behind it; they belong to a text, whose next bytes may have to be
skipped; or a backslash has been read. -/
inductive Scan where
  | outside
  | whole (width : Nat)
  | rest (width : Nat)
  | text (skipped : Nat)
  | escape
  deriving DecidableEq

namespace Scan

def step : Scan → UInt8 → Scan
  | .outside, b =>
    if b == asciiByte '"' then .text 0
    else if isDigit b || b == asciiByte '-' then .whole 1
    else .outside
  | .whole width, b =>
    if isDigit b then .whole (width + 1)
    else if b == asciiByte '.' || b == asciiByte 'e' || b == asciiByte 'E' then .rest width
    else .outside
  | .rest width, b =>
    if isDigit b || b == asciiByte 'e' || b == asciiByte 'E' || b == asciiByte '+' ||
      b == asciiByte '-' then .rest width
    else .outside
  | .text 0, b =>
    if b == asciiByte '"' then .outside
    else if b == asciiByte '\\' then .escape
    else .text 0
  | .text (skipped + 1), _ => .text skipped
  -- the four digits of a hexadecimal escape need not be looked at
  | .escape, b => .text (if b == asciiByte 'u' then 4 else 0)

/-- How many bytes before its point or exponent the number has that is being read. -/
def width : Scan → Nat
  | .whole width | .rest width => width
  | _ => 0

/-- The largest width of a number, from here on. -/
def longest (s : Scan) : List UInt8 → Nat
  | [] => s.width
  | b :: bytes => max s.width ((s.step b).longest bytes)

theorem width_le_longest (s : Scan) (bytes : List UInt8) : s.width ≤ s.longest bytes := by
  cases bytes with
  | nil => exact Nat.le_refl _
  | cons b bytes => exact Nat.le_max_left _ _

end Scan

/-- How many bytes the longest number of a document has before its point or exponent, the minus sign
counted. -/
def longestNumber (bytes : List UInt8) : Nat := Scan.outside.longest bytes

example : longestNumber ("[\"a\\\"1234\", -12, 3.25e+100]".toList.map asciiByte) = 3 := by decide

/-! ## The scan beside a reader -/

def NumberPhase.scan (width : Nat) : NumberPhase → Scan
  | .minus | .nought | .whole => .whole width
  | .point | .fraction | .mark | .markSign | .power => .rest width

def NumberDraft.scan (d : NumberDraft) : Scan := d.phase.scan d.width

inductive Escape.Scans : Escape → Scan → Prop where
  | off : Escape.Scans .off (.text 0)
  | backslash : Escape.Scans .backslash .escape
  | hex (high : Option Nat) (codes : List UInt8) (left : Nat) (h : codes.length + left = 3) :
      Escape.Scans (.hex high codes) (.text (left + 1))
  | pair (high : Nat) : Escape.Scans (.pair high) (.text 0)
  | pairBackslash (high : Nat) : Escape.Scans (.pairBackslash high) .escape

/-- The scan stands where a reader in this mode does. The bytes of a word must not look like the
beginning of a number or a text. -/
def Mode.Scans (mode : Mode) (s : Scan) : Prop :=
  match mode with
  | .number d => s = d.scan
  | .text d => d.escape.Scans s
  | .word next rest _ => s = .outside ∧ ∀ b ∈ next :: rest, Scan.outside.step b = .outside
  | _ => s = .outside

def Mode.width : Mode → Nat
  | .number d => d.width
  | _ => 0

variable {l : Limits} {stack : List Frame} {index : Nat} {b : UInt8} {r r' : Reader} {s : Scan}

theorem Mode.width_of_space {mode : Mode} (h : mode.AllowsSpace) : mode.width = 0 := by
  cases mode with
  | number d => cases h
  | _ => rfl

theorem complete_width (stack : List Frame) (v : Json) : (complete stack v).mode.width = 0 := by
  cases stack with
  | nil => rfl
  | cons frame stack => cases frame <;> rfl

theorem Mode.Scans.width {mode : Mode} (h : mode.Scans s) : s.width = mode.width := by
  cases mode with
  | number d =>
      cases h
      show (d.phase.scan d.width).width = d.width
      cases d.phase <;> rfl
  | text d =>
      change d.escape.Scans s at h
      generalize d.escape = escape at h
      cases h <;> rfl
  | word next rest v => rw [h.1]; rfl
  | _ => cases h; rfl

theorem complete_scans (stack : List Frame) (v : Json) :
    (complete stack v).mode.Scans .outside := by
  cases stack with
  | nil => rfl
  | cons frame stack => cases frame <;> rfl

theorem word_scans (next : Char) (rest : List Char) (v : Json)
    (h : ((next :: rest).map asciiByte).all fun b => Scan.outside.step b = .outside) :
    (word next rest v).Scans .outside :=
  ⟨rfl, by simpa using h⟩

/-! ### Bytes behind a value -/

/-- The byte begins nothing, and ends a number. -/
structure Separates (b : UInt8) : Prop where
  outside : Scan.outside.step b = .outside
  whole : ∀ width, (Scan.whole width).step b = .outside
  rest : ∀ width, (Scan.rest width).step b = .outside

theorem separates_of_space (h : isSpace b = true) : Separates b := by
  simp only [isSpace, Bool.or_eq_true, beq_iff_eq] at h
  rcases h with ((rfl | rfl) | rfl) | rfl <;> exact ⟨rfl, fun _ => rfl, fun _ => rfl⟩

theorem NumberDraft.scan_separated (d : NumberDraft) (h : Separates b) :
    d.scan.step b = .outside := by
  unfold NumberDraft.scan
  cases d.phase with
  | minus | nought | whole => exact h.whole _
  | point | fraction | mark | markSign | power => exact h.rest _

/-- What a byte behind a value does. -/
inductive Behind (r : Reader) (b : UInt8) : Reader → Prop where
  | space (h : isSpace b = true) : Behind r b r
  | nextItem {done : List Json} (hmode : r.mode = .afterItem done) (h : b = asciiByte ',') :
      Behind r b ⟨r.stack, .nextItem done⟩
  | endArray {done : List Json} (hmode : r.mode = .afterItem done) (h : b = asciiByte ']') :
      Behind r b (complete r.stack (.array done.reverse))
  | nextKey {done : List (String × Json)} (hmode : r.mode = .afterMember done)
      (h : b = asciiByte ',') : Behind r b ⟨r.stack, .nextKey done⟩
  | endObject {done : List (String × Json)} (hmode : r.mode = .afterMember done)
      (h : b = asciiByte '\x7d') : Behind r b (complete r.stack (.object done.reverse))

theorem stepAfterValue_behind (h : stepAfterValue r index b = .ok r') : Behind r b r' := by
  obtain ⟨stack, mode⟩ := r
  rcases ite_eq_iff.mp h with ⟨hb, h⟩ | ⟨-, h⟩
  · cases h
    exact .space hb
  cases mode with
  | afterItem done =>
      rcases ite_eq_iff.mp h with ⟨hb, h⟩ | ⟨-, h⟩
      · cases h
        exact .nextItem rfl (beq_iff_eq.mp hb)
      rcases ite_eq_iff.mp h with ⟨hb, h⟩ | ⟨-, h⟩
      · cases h
        exact .endArray rfl (beq_iff_eq.mp hb)
      · cases h
  | afterMember done =>
      rcases ite_eq_iff.mp h with ⟨hb, h⟩ | ⟨-, h⟩
      · cases h
        exact .nextKey rfl (beq_iff_eq.mp hb)
      rcases ite_eq_iff.mp h with ⟨hb, h⟩ | ⟨-, h⟩
      · cases h
        exact .endObject rfl (beq_iff_eq.mp hb)
      · cases h
  | _ => cases h

theorem Behind.scans (h : Behind r b r') (hr : r.mode.Scans .outside) :
    Separates b ∧ r'.mode.Scans .outside := by
  cases h with
  | space h => exact ⟨separates_of_space h, hr⟩
  | nextItem _ h | nextKey _ h =>
      cases h
      exact ⟨⟨rfl, fun _ => rfl, fun _ => rfl⟩, rfl⟩
  | endArray _ h | endObject _ h =>
      cases h
      exact ⟨⟨rfl, fun _ => rfl, fun _ => rfl⟩, complete_scans _ _⟩

/-! ### Steps -/

theorem NumberDraft.first_scan (d : NumberDraft) (b : UInt8) :
    (d.first b).scan = .whole (d.width + 1) := by
  show NumberPhase.scan (d.width + 1) (if b == 0x30 then .nought else .whole) = _
  split
  · rfl
  · rfl

theorem Scan.outside_digit (h : isDigit b = true) : Scan.outside.step b = .whole 1 := by
  have hquote : ¬ (b == asciiByte '"') = true := by
    intro hb
    obtain rfl := beq_iff_eq.mp hb
    cases h
  rw [Scan.step, if_neg hquote, h]
  rfl

theorem beginValue_scans (h : beginValue l stack index b = .ok r') :
    r'.mode.Scans (Scan.outside.step b) := by
  unfold beginValue at h
  rcases ite_eq_iff.mp h with ⟨-, h⟩ | ⟨-, h⟩
  · cases h
  rcases ite_eq_iff.mp h with ⟨hb, h⟩ | ⟨-, h⟩
  · obtain rfl := beq_iff_eq.mp hb
    cases h
    exact .off
  -- a list, an object
  iterate 2
    rcases ite_eq_iff.mp h with ⟨hb, h⟩ | ⟨-, h⟩
    · obtain rfl := beq_iff_eq.mp hb
      cases h
      rfl
  -- five words
  iterate 5
    rcases ite_eq_iff.mp h with ⟨hb, h⟩ | ⟨-, h⟩
    · obtain rfl := beq_iff_eq.mp hb
      cases h
      exact word_scans _ _ _ (by decide)
  rcases ite_eq_iff.mp h with ⟨hb, h⟩ | ⟨-, h⟩
  · obtain rfl := beq_iff_eq.mp hb
    cases h
    rfl
  rcases ite_eq_iff.mp h with ⟨hb, h⟩ | ⟨-, h⟩
  · cases h
    rw [Scan.outside_digit hb]
    exact (NumberDraft.first_scan (.begin false) b).symm
  · cases h

theorem Scan.rest_step {width : Nat} (h : isDigit b = true ∨ b = asciiByte 'e' ∨ b = asciiByte 'E' ∨
    b = asciiByte '+' ∨ b = asciiByte '-') : (Scan.rest width).step b = .rest width :=
  if_pos (by simpa only [Bool.or_eq_true, beq_iff_eq, or_assoc] using h)

/-- Behind the digits before the point. -/
theorem NumberDraft.afterWhole_scans {d next : NumberDraft} (hdigit : ¬ isDigit b = true)
    (h : d.afterWhole b = .more next) : next.scan = (Scan.whole d.width).step b := by
  unfold NumberDraft.afterWhole at h
  rw [Scan.step, if_neg hdigit]
  rcases ite_eq_iff.mp h with ⟨hb, h⟩ | ⟨-, h⟩
  · cases h
    rw [hb]
    rfl
  rcases ite_eq_iff.mp h with ⟨hb, h⟩ | ⟨-, h⟩
  · cases h
    rw [Bool.or_assoc, hb, Bool.or_true]
    rfl
  · cases h

theorem NumberDraft.step_scans {d next : NumberDraft} (h : d.step b = .more next) :
    next.scan = d.scan.step b := by
  unfold NumberDraft.step at h
  rw [NumberDraft.scan.eq_def d]
  cases hphase : d.phase with
  | minus =>
      simp only [hphase] at h
      rcases ite_eq_iff.mp h with ⟨hb, h⟩ | ⟨-, h⟩
      · cases h
        rw [NumberDraft.first_scan, NumberPhase.scan, Scan.step, if_pos hb]
      · cases h
  | nought =>
      simp only [hphase] at h
      rcases ite_eq_iff.mp h with ⟨-, h⟩ | ⟨hb, h⟩
      · cases h
      · exact afterWhole_scans hb h
  | whole =>
      simp only [hphase] at h
      rcases ite_eq_iff.mp h with ⟨hb, h⟩ | ⟨hb, h⟩
      · cases h
        rw [NumberPhase.scan, Scan.step, if_pos hb, NumberDraft.scan, NumberDraft.pushWhole,
          NumberDraft.push, hphase, NumberPhase.scan]
      · exact afterWhole_scans hb h
  | point | markSign | power =>
      simp only [hphase] at h
      rcases ite_eq_iff.mp h with ⟨hb, h⟩ | ⟨-, h⟩
      · cases h
        exact (Scan.rest_step (.inl hb)).symm
      · cases h
  | fraction =>
      simp only [hphase] at h
      rcases ite_eq_iff.mp h with ⟨hb, h⟩ | ⟨-, h⟩
      · cases h
        exact (Scan.rest_step (.inl hb)).symm
      rcases ite_eq_iff.mp h with ⟨hb, h⟩ | ⟨-, h⟩
      · cases h
        simp only [Bool.or_eq_true, beq_iff_eq] at hb
        exact (Scan.rest_step (.inr (hb.imp_right .inl))).symm
      · cases h
  | mark =>
      simp only [hphase] at h
      rcases ite_eq_iff.mp h with ⟨hb, h⟩ | ⟨-, h⟩
      · cases h
        exact (Scan.rest_step (.inl hb)).symm
      rcases ite_eq_iff.mp h with ⟨hb, h⟩ | ⟨-, h⟩
      · cases h
        exact (Scan.rest_step (by simp [beq_iff_eq.mp hb])).symm
      rcases ite_eq_iff.mp h with ⟨hb, h⟩ | ⟨-, h⟩
      · cases h
        exact (Scan.rest_step (by simp [beq_iff_eq.mp hb])).symm
      · cases h

/-! ### Texts -/

theorem TextDraft.unit_scans {d next : TextDraft} {high : Option Nat} {codes : List UInt8}
    (h : d.unit high codes index = .ok next) : next.escape.Scans (.text 0) := by
  unfold TextDraft.unit at h
  split at h
  · cases h
  · split at h
    · split at h
      · cases h
      · split at h
        · cases h
          exact .pair _
        · cases h
          exact .off
    · split at h
      · cases h
        exact .off
      · cases h

theorem TextDraft.step_scans {d next : TextDraft} (hs : d.escape.Scans s)
    (hopen : ¬ d.isClosedBy b = true) (h : d.step index b = .ok next) :
    next.escape.Scans (s.step b) := by
  unfold TextDraft.step at h
  unfold TextDraft.isClosedBy at hopen
  generalize d.escape = escape at hs h hopen
  cases hs with
  | off =>
      rw [Scan.step, if_neg hopen]
      rcases ite_eq_iff.mp h with ⟨hb, h⟩ | ⟨hb, h⟩
      · cases h
        rw [if_pos hb]
        exact .backslash
      rw [if_neg hb]
      rcases ite_eq_iff.mp h with ⟨-, h⟩ | ⟨-, h⟩
      · cases h
      · cases h
        exact .off
  | backslash =>
      rw [Scan.step]
      rcases ite_eq_iff.mp h with ⟨hb, h⟩ | ⟨hb, h⟩
      · cases h
        rw [if_pos hb]
        exact .hex none [] 3 rfl
      · rw [if_neg hb]
        split at h
        · cases h
          exact .off
        · cases h
  | hex high codes left hleft =>
      rcases ite_eq_iff.mp h with ⟨hfew, h⟩ | ⟨hfew, h⟩
      · cases h
        obtain ⟨left, rfl⟩ : ∃ n, left = n + 1 := ⟨left - 1, by omega⟩
        exact .hex high (b :: codes) left (by rw [List.length_cons]; omega)
      · obtain rfl : left = 0 := by omega
        exact unit_scans h
  | pair high =>
      rcases ite_eq_iff.mp h with ⟨hb, h⟩ | ⟨-, h⟩
      · obtain rfl := beq_iff_eq.mp hb
        cases h
        exact .pairBackslash high
      · cases h
  | pairBackslash high =>
      rcases ite_eq_iff.mp h with ⟨hb, h⟩ | ⟨-, h⟩
      · obtain rfl := beq_iff_eq.mp hb
        cases h
        exact .hex (some high) [] 3 rfl
      · cases h

theorem closeText_scans {d : TextDraft} (h : closeText stack d = .ok r') :
    r'.mode.Scans .outside := by
  unfold closeText at h
  split at h
  · cases h
  · split at h
    · cases h
      exact complete_scans _ _
    · cases h
      rfl

/-! ### Documents -/

theorem number_scans {d : NumberDraft} (h : Reader.step l ⟨stack, .number d⟩ index b = .ok r') :
    r'.mode.Scans (d.scan.step b) := by
  simp only [Reader.step] at h
  split at h
  · obtain ⟨hphase, hb⟩ := ‹d.phase = .minus ∧ _›
    obtain rfl := beq_iff_eq.mp hb
    cases h
    rw [NumberDraft.scan, hphase]
    exact word_scans _ _ _ (by decide)
  · split at h
    · split at h
      · cases h
      · cases h
        exact (NumberDraft.step_scans ‹_›).symm
    · cases h
    · split at h
      · obtain ⟨hend, hscans⟩ := (stepAfterValue_behind h).scans (complete_scans _ _)
        rw [NumberDraft.scan_separated d hend]
        exact hscans
      · cases h

theorem text_scans {d : TextDraft} (hs : d.escape.Scans s)
    (h : Reader.step l ⟨stack, .text d⟩ index b = .ok r') : r'.mode.Scans (s.step b) := by
  simp only [Reader.step] at h
  split at h
  · have hclosed : d.isClosedBy b = true := ‹_›
    unfold TextDraft.isClosedBy at hclosed
    have hoff : d.escape = .off := by
      generalize d.escape = escape at hclosed
      cases escape with
      | off => rfl
      | _ => cases hclosed
    rw [hoff] at hs hclosed
    obtain rfl := beq_iff_eq.mp hclosed
    cases hs
    exact closeText_scans h
  · cases hstep : d.step index b with
    | error e =>
        rw [hstep] at h
        cases h
    | ok next =>
        rw [hstep] at h
        cases h
        exact TextDraft.step_scans hs ‹_› hstep

theorem word_step_scans {next : UInt8} {rest : List UInt8} {v : Json}
    (hplain : ∀ b ∈ next :: rest, Scan.outside.step b = .outside)
    (h : Reader.step l ⟨stack, .word next rest v⟩ index b = .ok r') :
    r'.mode.Scans (Scan.outside.step b) := by
  obtain ⟨hnext, hrest⟩ := List.forall_mem_cons.mp hplain
  simp only [Reader.step] at h
  split at h
  · obtain rfl := beq_iff_eq.mp ‹_›
    rw [hnext]
    cases rest with
    | nil =>
        cases h
        exact complete_scans _ _
    | cons next rest =>
        cases h
        exact ⟨rfl, hrest⟩
  · cases h

theorem Reader.start_scans : Reader.start.mode.Scans .outside := rfl

/-- **The scan keeps step** with the reader. -/
theorem Reader.step_scans (hs : r.mode.Scans s) (h : r.step l index b = .ok r') :
    r'.mode.Scans (s.step b) := by
  obtain ⟨stack, mode⟩ := r
  by_cases hspace : mode.AllowsSpace ∧ isSpace b = true
  · obtain ⟨hallows, hb⟩ := hspace
    rw [step_space hallows hb] at h
    cases h
    have hout : s = .outside ∧ mode.Scans .outside := by
      cases mode with
      | word | number | text => cases hallows
      | _ => exact ⟨hs, rfl⟩
    rw [hout.1, (separates_of_space hb).outside]
    exact hout.2
  cases mode with
  | value =>
      have hplain : ¬ isSpace b = true := fun hb => hspace ⟨trivial, hb⟩
      cases hs
      exact beginValue_scans ((if_neg hplain).symm.trans h)
  | firstItem =>
      have hplain : ¬ isSpace b = true := fun hb => hspace ⟨trivial, hb⟩
      cases hs
      rcases ite_eq_iff.mp ((if_neg hplain).symm.trans h) with ⟨hb, h⟩ | ⟨-, h⟩
      · obtain rfl := beq_iff_eq.mp hb
        cases h
        exact complete_scans _ _
      · exact beginValue_scans h
  | nextItem done =>
      have hplain : ¬ isSpace b = true := fun hb => hspace ⟨trivial, hb⟩
      cases hs
      rcases ite_eq_iff.mp ((if_neg hplain).symm.trans h) with ⟨-, h⟩ | ⟨-, h⟩
      · cases h
      · exact beginValue_scans h
  | number d =>
      cases hs
      exact number_scans h
  | text d => exact text_scans hs h
  | word next rest v =>
      cases hs.1
      exact word_step_scans hs.2 h
  | firstKey =>
      have hplain : ¬ isSpace b = true := fun hb => hspace ⟨trivial, hb⟩
      cases hs
      rcases ite_eq_iff.mp ((if_neg hplain).symm.trans h) with ⟨hb, h⟩ | ⟨-, h⟩
      · obtain rfl := beq_iff_eq.mp hb
        cases h
        exact .off
      rcases ite_eq_iff.mp h with ⟨hb, h⟩ | ⟨-, h⟩
      · obtain rfl := beq_iff_eq.mp hb
        cases h
        exact complete_scans _ _
      · cases h
  | nextKey done =>
      have hplain : ¬ isSpace b = true := fun hb => hspace ⟨trivial, hb⟩
      cases hs
      rcases ite_eq_iff.mp ((if_neg hplain).symm.trans h) with ⟨hb, h⟩ | ⟨-, h⟩
      · obtain rfl := beq_iff_eq.mp hb
        cases h
        exact .off
      rcases ite_eq_iff.mp h with ⟨-, h⟩ | ⟨-, h⟩
      · cases h
      · cases h
  | afterKey done key =>
      have hplain : ¬ isSpace b = true := fun hb => hspace ⟨trivial, hb⟩
      cases hs
      rcases ite_eq_iff.mp ((if_neg hplain).symm.trans h) with ⟨hb, h⟩ | ⟨-, h⟩
      · obtain rfl := beq_iff_eq.mp hb
        cases h
        rfl
      · cases h
  | afterItem _ | afterMember _ | finished _ =>
      cases hs
      obtain ⟨hend, hscans⟩ := (stepAfterValue_behind h).scans rfl
      rw [hend.outside]
      exact hscans

end TimetableFeed.Json
