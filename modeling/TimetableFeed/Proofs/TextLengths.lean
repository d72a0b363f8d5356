import Mathlib.Algebra.Order.Ring.Nat
import TimetableFeed.Feed.Excerpt
import TimetableFeed.Proofs.Places
import TimetableFeed.Proofs.Precedence

/-!
# Lengths of texts

Texts that are bounded but for some parts of them, such as numbers. The excerpt of a body and the
written form of a timestamp are bounded, and so is the written path to a node that the schema
recognises, but for its indices.

Main definitions: `Within`, `Frames`, `Shape.reach`. Main statements: `Excerpt.write_within`,
`Timestamp.write_within`, `Shape.Recognises.room_le`.
-/

namespace TimetableFeed

/-! ## Lengths of texts -/

/-- The text has at most `limit` characters beside those of the texts in `free`. -/
def Within (limit : Nat) (free : List String) (s : String) : Prop :=
  s.length ≤ limit + (free.map String.length).sum

/-- The text shows `quoted`, with at most `limit` characters before and behind it beside those of
the texts in `free`. -/
def Frames (limit : Nat) (free : List String) (quoted s : String) : Prop :=
  ∃ before after, s = before ++ quoted ++ after ∧ Within limit free (before ++ after)

section Within

variable {k l : Nat} {xs ys : List String} {quoted s t : String}

theorem Within.literal (s : String) : Within s.length [] s := Nat.le_refl _

theorem Within.free (s : String) : Within 0 [s] s := by
  simp [Within]

theorem Within.append (hs : Within k xs s) (ht : Within l ys t) :
    Within (k + l) (xs ++ ys) (s ++ t) := by
  unfold Within at *
  rw [String.length_append, List.map_append, List.sum_append]
  omega

theorem sum_length_le_of_sublist (h : xs.Sublist ys) :
    (xs.map String.length).sum ≤ (ys.map String.length).sum := by
  induction h with
  | slnil => exact Nat.le_refl _
  | cons x _ ih => exact Nat.le_trans ih (Nat.le_add_left _ _)
  | cons_cons x _ ih => exact Nat.add_le_add_left ih _

theorem Within.mono (hs : Within k xs s) (hkl : k ≤ l) (hxs : xs.Sublist ys) : Within l ys s :=
  Nat.le_trans hs (Nat.add_le_add hkl (sum_length_le_of_sublist hxs))

theorem Within.frames (hs : Within k xs s) : Frames k xs "" s :=
  ⟨s, "", by rw [String.append_empty, String.append_empty], by rwa [String.append_empty]⟩

theorem Frames.quote (quoted : String) : Frames 0 [] quoted quoted :=
  ⟨"", "", by rw [String.empty_append, String.append_empty], Nat.le_refl 0⟩

theorem Frames.behind (hs : Within k xs s) (ht : Frames l ys quoted t) :
    Frames (k + l) (xs ++ ys) quoted (s ++ t) := by
  obtain ⟨before, after, rfl, h⟩ := ht
  refine ⟨s ++ before, after, by simp only [String.append_assoc], ?_⟩
  rw [String.append_assoc]
  exact hs.append h

theorem Frames.before (hs : Frames k xs quoted s) (ht : Within l ys t) :
    Frames (k + l) (xs ++ ys) quoted (s ++ t) := by
  obtain ⟨before, after, rfl, h⟩ := hs
  refine ⟨before, after ++ t, by simp only [String.append_assoc], ?_⟩
  rw [← String.append_assoc]
  exact h.append ht

theorem Frames.mono (hs : Frames k xs quoted s) (hkl : k ≤ l) (hxs : xs.Sublist ys) :
    Frames l ys quoted s := by
  obtain ⟨before, after, heq, h⟩ := hs
  exact ⟨before, after, heq, h.mono hkl hxs⟩

end Within

/-! ## Excerpts of bodies -/

/-- An unfinished character counts as one more. -/
theorem Utf8.length_pieces (state : Option Utf8.Partial) (bytes : List UInt8) :
    (Utf8.pieces state bytes).length ≤ bytes.length + state.toList.length := by
  have hfresh : ∀ b, (Utf8.fresh b).1.length + (Utf8.fresh b).2.toList.length = 1 := by
    intro b
    unfold Utf8.fresh
    cases Utf8.lead b <;> rfl
  have hstep : ∀ state b, (Utf8.step state b).1.length + (Utf8.step state b).2.toList.length ≤
      1 + state.toList.length := by
    intro state b
    have hb := hfresh b
    cases state with
    | none => exact Nat.le_of_eq hb
    | some p =>
        simp only [Utf8.step, Option.toList_some, List.length_singleton]
        cases p.admits b with
        | true => cases p.extend b <;> simp
        | false =>
            simp only [Bool.false_eq_true, if_false, List.length_cons]
            omega
  induction bytes generalizing state with
  | nil => cases state <;> simp [Utf8.pieces]
  | cons b rest ih =>
      have hpieces : Utf8.pieces state (b :: rest) =
          (Utf8.step state b).1 ++ Utf8.pieces (Utf8.step state b).2 rest := by
        cases state <;> rfl
      have hb := hstep state b
      have hrest := ih (Utf8.step state b).2
      rw [hpieces, List.length_append, List.length_cons]
      omega

/-- The size of a body as its excerpt shows it: only if the body has been cut. -/
def Excerpt.sizes (body : List UInt8) : List Int :=
  if Excerpt.defaultLimit < body.length then [(body.length : Int)] else []

theorem Excerpt.write_within (body : List UInt8) :
    Within 270 ((Excerpt.sizes body).map integerText)
      (Excerpt.write Excerpt.defaultLimit body) := by
  have hhead : Within 256 [] (Utf8.decodeLossy (Excerpt.head body Excerpt.defaultLimit)) := by
    have hpieces := Utf8.length_pieces none (body.take 256)
    have htake := List.length_take_le 256 body
    show (String.ofList _).length ≤ 256
    rw [String.length_ofList, Utf8.decodeCharsLossy, List.length_map]
    exact Nat.le_trans hpieces htake
  unfold Excerpt.write Excerpt.sizes
  by_cases hcut : Excerpt.defaultLimit < body.length
  · rw [if_pos hcut, if_pos hcut]
    have hmark : Within 14 [integerText body.length] (Excerpt.mark body.length) :=
      ((Within.literal _).append (.free _)).append (.literal _)
    exact hhead.append hmark
  · rw [if_neg hcut, if_neg hcut]
    exact hhead.mono (by decide) (List.Sublist.refl _)

/-! ## Written times -/

theorem length_paddedChars {width n : Nat} (hwidth : 0 < width) (h : n < 10 ^ width) :
    (paddedChars width n).length = width := by
  have hdigits : (decimalChars n).length ≤ width :=
    (Nat.length_toDigits_le_iff (by decide) hwidth).mpr h
  unfold paddedChars
  rw [List.length_append, List.length_replicate]
  omega

theorem length_two {n : Nat} (h : n < 100) : (paddedChars 2 n).length = 2 :=
  length_paddedChars (by decide) h

theorem length_fractionChars_le {micros : Nat} (h : micros < 1000000) :
    (fractionChars micros).length ≤ 7 := by
  unfold fractionChars
  split
  · exact Nat.zero_le 7
  · exact Nat.le_of_eq (congrArg Nat.succ (length_paddedChars (by decide) h))

theorem Date.length_chars (d : Date) : d.chars.length = 10 := by
  have hyear := d.year_range
  have hmonth := d.month_range
  have hday := d.day_range
  have hlength := monthLength_le d.year d.month
  have hfour : (paddedChars 4 d.year).length = 4 := length_paddedChars (by decide) (by omega)
  simp [chars, hfour, length_two (show d.month < 100 by omega),
    length_two (show d.day < 100 by omega)]

theorem ClockTime.length_chars_le (t : ClockTime) : t.chars.length ≤ 15 := by
  have hhour := t.hour_lt
  have hminute := t.minute_lt
  have hsecond := t.second_lt
  have hfraction := length_fractionChars_le t.micros_lt
  simp only [chars, List.length_append, List.length_cons,
    length_two (show t.hour < 100 by omega), length_two (show t.minute < 100 by omega),
    length_two (show t.second < 100 by omega)]
  omega

theorem Offset.length_chars_le (o : Offset) : o.chars.length ≤ 16 := by
  have hlower := o.lower
  have hupper := o.upper
  have hmicros : o.micros.natAbs < 86400000000 := by
    unfold dayMicros at hlower hupper
    omega
  have hfraction := length_fractionChars_le
    (show o.micros.natAbs % 1000000 < 1000000 from Nat.mod_lt _ (by decide))
  simp only [chars, List.length_append, List.length_cons,
    length_two (show o.micros.natAbs / 3600000000 < 100 by omega),
    length_two (show o.micros.natAbs / 60000000 % 60 < 100 by omega)]
  split
  · simp
  · simp only [List.length_append, List.length_cons,
      length_two (show o.micros.natAbs / 1000000 % 60 < 100 by omega)]
    omega

theorem Timestamp.length_chars_le (separator : Char) (t : Timestamp) :
    (t.chars separator).length ≤ 42 := by
  have htime := t.wall.time.length_chars_le
  have hoffset := t.offset.length_chars_le
  simp only [chars, List.length_append, List.length_cons, Date.length_chars]
  omega

theorem Timestamp.write_within (t : Timestamp) : Within 42 [] t.write := by
  rw [Within, write, String.length_ofList]
  exact t.length_chars_le 'T'

theorem Timestamp.writeSpaced_within (t : Timestamp) : Within 42 [] t.writeSpaced := by
  rw [Within, writeSpaced, String.length_ofList]
  exact t.length_chars_le ' '

/-! ## Paths -/

namespace Path

/-- How long the written form of a path is at most, but for its indices. -/
def room : Path → Nat
  | [] => 0
  | .key name :: rest => name.length + 1 + room rest
  | .index _ :: rest => 2 + room rest

def indices : Path → List Int
  | [] => []
  | .key _ :: rest => indices rest
  | .index i :: rest => (i : Int) :: indices rest

theorem room_append (p q : Path) : room (p ++ q) = room p + room q := by
  induction p with
  | nil => exact (Nat.zero_add _).symm
  | cons step rest ih =>
      cases step <;> simp only [List.cons_append, room, ih, Nat.add_assoc]

theorem foldl_writeStep_within {k : Nat} {free : List String} {written : String}
    (h : Within k free written) (path : Path) :
    Within (k + room path) (free ++ path.indices.map integerText)
      (path.foldl writeStep written) := by
  induction path generalizing k free written with
  | nil => simpa [room, indices] using h
  | cons step rest ih =>
      cases step with
      | key name =>
          have hnext : Within (k + (name.length + 1)) free (writeStep written (.key name)) := by
            have hdot := (h.append (.literal ".")).append (.literal name)
            rw [List.append_nil, List.append_nil, show (".".length : Nat) = 1 from rfl] at hdot
            rw [writeStep]
            by_cases hempty : written = ""
            · rw [if_pos hempty]
              exact (Within.literal name).mono (by omega) (List.nil_sublist _)
            · rw [if_neg hempty]
              exact hdot.mono (by omega) (List.Sublist.refl _)
          rw [List.foldl_cons, room, indices, ← Nat.add_assoc]
          exact ih hnext
      | index i =>
          have hnext : Within (k + 2) (free ++ [integerText i]) (writeStep written (.index i)) := by
            have hclosed := ((h.append (.literal "[")).append (.free (integerText i))).append
              (.literal "]")
            rw [List.append_nil, List.append_nil] at hclosed
            exact hclosed
          rw [List.foldl_cons, room, indices, ← Nat.add_assoc, List.map_cons, List.append_cons]
          exact ih hnext

theorem write_within (path : Path) :
    Within (room path) (path.indices.map integerText) path.write := by
  have h := foldl_writeStep_within (Within.literal "") path
  rwa [List.nil_append, show ("" : String).length = 0 from rfl, Nat.zero_add] at h

/-- The part of a path inside its journey is the last part of it. -/
theorem locate_inner_suffix (path : Path) : path.locate.inner <:+ path := by
  rcases locateFrom_journey ⟨none, none, path⟩ path with ⟨-, -, hinner⟩ | ⟨i, hlast, -⟩
  · exact ⟨[], by rw [locate, hinner, List.nil_append]⟩
  · obtain ⟨front, hpath⟩ := hlast.split
    exact ⟨_, hpath.symm⟩

theorem room_le_of_suffix {p q : Path} (h : p <:+ q) : room p ≤ room q := by
  obtain ⟨before, rfl⟩ := h
  rw [room_append]
  exact Nat.le_add_left _ _

end Path

namespace Shape

mutual

/-- How much room the paths to the nodes inside take at most. -/
def reach : Shape → Nat
  | .text => 0
  | .array item => 2 + item.reach
  | .object fields => reachIn fields

@[inherit_doc reach]
def reachIn : List (Field × Shape) → Nat
  | [] => 0
  | (f, s) :: rest => max (max f.camel.length f.snake.length + 1 + s.reach) (reachIn rest)

end

theorem le_reachIn {fields : List (Field × Shape)} {f : Field} {s : Shape} (hf : (f, s) ∈ fields)
    (spelling : Spelling) : (f.name spelling).length + 1 + s.reach ≤ reachIn fields := by
  induction fields with
  | nil => cases hf
  | cons first rest ih =>
      rw [reachIn]
      rcases List.mem_cons.mp hf with rfl | hf
      · cases spelling with
        | camel => simp only [Field.name]; omega
        | snake => simp only [Field.name]; omega
      · exact Nat.le_trans (ih hf) (Nat.le_max_right _ _)

/-- The schema bounds the paths to its nodes, by induction on the way to the node. -/
theorem Recognises.room_le {s t : Shape} {json node : Json} {path : Path}
    (h : s.Recognises json path t node) : path.room ≤ s.reach := by
  induction h with
  | here => exact Nat.zero_le _
  | item hx h ih =>
      rw [Path.room, reach]
      omega
  | field hf hx h ih =>
      obtain ⟨spelling, rfl⟩ := member?_name hx
      have hreach := le_reachIn hf spelling
      rw [Path.room, reach]
      omega

theorem reach_document : document.reach = 110 := by decide

end Shape

end TimetableFeed
