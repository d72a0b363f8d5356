import Mathlib.Data.List.TakeWhile
import TimetableFeed.Proofs.Results
import TimetableFeed.Time.Iso

/-!
# Zone ids and white space around times

What stands around a time is dropped before it is read: white space at both ends, and then a zone id
in square brackets at the end. Whatever the zone id holds, and however much white space there is, a
time that is bare itself is read as if it stood alone: one that neither begins nor ends with white
space and holds no opening bracket.

Main definition: `Timestamp.IsBare`. Main statement: `Timestamp.read_around`.
-/

namespace TimetableFeed

/-! ## White space -/

namespace Text

variable {p : Char → Bool} {cs ds before after : List Char}

theorem dropTrailing_append (cs : List Char) (h : ∀ c ∈ ds, p c = true) :
    dropTrailing p (cs ++ ds) = dropTrailing p cs := by
  induction cs with
  | nil => exact dropTrailing_eq_nil_iff.mpr (List.all_eq_true.mpr h)
  | cons c rest ih => rw [List.cons_append, dropTrailing, dropTrailing, ih]

theorem dropTrailing_of_last (h : ∀ c ∈ cs.getLast?, p c = false) : dropTrailing p cs = cs := by
  induction cs with
  | nil => rfl
  | cons c rest ih =>
      rw [dropTrailing]
      by_cases hrest : rest = []
      · subst hrest
        simp [dropTrailing, h c rfl]
      · have hlast : ∀ d ∈ rest.getLast?, p d = false := by
          intro d hd
          apply h
          rwa [List.getLast?_cons_of_ne_nil hrest]
        rw [ih hlast]
        obtain ⟨d, tail, rfl⟩ := List.exists_cons_of_ne_nil hrest
        rfl

/-- Only what belongs to the class is trimmed, and all that stands at the ends. -/
theorem trimChars_around (hbefore : ∀ c ∈ before, p c = true) (hafter : ∀ c ∈ after, p c = true)
    (hfirst : ∀ c ∈ cs.head?, p c = false) (hlast : ∀ c ∈ cs.getLast?, p c = false) :
    trimChars p (before ++ cs ++ after) = cs := by
  unfold trimChars
  rw [List.append_assoc, List.dropWhile_append_of_pos hbefore]
  by_cases hcs : cs = []
  · -- nothing is left, so the front has no end
    rw [hcs, List.nil_append, List.dropWhile_eq_nil_iff.mpr hafter, dropTrailing]
  · obtain ⟨c, rest, rfl⟩ := List.exists_cons_of_ne_nil hcs
    have hc : ¬ p c = true := by
      rw [hfirst c rfl]
      exact Bool.false_ne_true
    rw [List.cons_append, List.dropWhile_cons_of_neg hc, ← List.cons_append,
      dropTrailing_append _ hafter, dropTrailing_of_last hlast]

end Text

/-! ## Zone ids -/

theorem withoutZone_of_none {cs : List Char} (h : '[' ∉ cs) : withoutZone cs = cs := by
  induction cs with
  | nil => rfl
  | cons c rest ih =>
      have hc : c ≠ '[' := (List.ne_of_not_mem_cons h).symm
      rw [withoutZone, if_neg (fun hzone => hc hzone.1), ih (List.not_mem_of_not_mem_cons h)]

/-- A zone id begins at the first opening bracket, also if others follow. -/
theorem withoutZone_zone {cs zone : List Char} (h : '[' ∉ cs) (hzone : ']' ∉ zone) :
    withoutZone (cs ++ '[' :: (zone ++ [']'])) = cs := by
  induction cs with
  | nil =>
      rw [List.nil_append, withoutZone, if_pos]
      refine ⟨rfl, List.getLast?_concat, ?_⟩
      rw [List.dropLast_concat, List.all_eq_true]
      intro c hc
      exact decide_eq_true (ne_of_mem_of_not_mem hc hzone)
  | cons c rest ih =>
      have hc : c ≠ '[' := (List.ne_of_not_mem_cons h).symm
      rw [List.cons_append, withoutZone, if_neg (fun hopen => hc hopen.1),
        ih (List.not_mem_of_not_mem_cons h)]

/-! ## Times -/

namespace Timestamp

/-- Nothing of the text is dropped before it is read: it neither begins nor ends with white space,
and no zone id begins in it. -/
structure IsBare (cs : List Char) : Prop where
  first : ∀ c ∈ cs.head?, Text.isBlankChar c = false
  last : ∀ c ∈ cs.getLast?, Text.isBlankChar c = false
  unbracketed : '[' ∉ cs

variable {cs zone before after : List Char}

theorem isBare_of_plain (h : ∀ c ∈ cs, Text.isBlankChar c = false ∧ c ≠ '[') : IsBare cs where
  first c hc := (h c (List.mem_of_mem_head? hc)).1
  last c hc := (h c (List.mem_of_getLast? hc)).1
  unbracketed hmem := (h '[' hmem).2 rfl

/-- Two plain texts with anything but a bracket between them. -/
theorem IsBare.join {separator : Char}
    (hbefore : ∀ c ∈ before, Text.isBlankChar c = false ∧ c ≠ '[') (hfront : before ≠ [])
    (hseparator : separator ≠ '[') (hafter : ∀ c ∈ after, Text.isBlankChar c = false ∧ c ≠ '[')
    (hback : after ≠ []) : IsBare (before ++ separator :: after) where
  first c hc := by
    rw [List.head?_append_of_ne_nil _ hfront] at hc
    exact (hbefore c (List.mem_of_mem_head? hc)).1
  last c hc := by
    rw [List.getLast?_append_of_ne_nil _ (List.cons_ne_nil _ _),
      List.getLast?_cons_of_ne_nil hback] at hc
    exact (hafter c (List.mem_of_getLast? hc)).1
  unbracketed hmem := by
    rcases List.mem_append.mp hmem with hmem | hmem
    · exact (hbefore '[' hmem).2 rfl
    · rcases List.mem_cons.mp hmem with hmem | hmem
      · exact hseparator hmem.symm
      · exact (hafter '[' hmem).2 rfl

/-- What is left of a bare text in white space. -/
theorem IsBare.of_blank (h : IsBare cs) (hbefore : ∀ c ∈ before, Text.isBlankChar c = true)
    (hafter : ∀ c ∈ after, Text.isBlankChar c = true) :
    withoutZone (Text.trimChars Text.isBlankChar (before ++ cs ++ after)) = cs := by
  rw [Text.trimChars_around hbefore hafter h.first h.last, withoutZone_of_none h.unbracketed]

theorem IsBare.alone (h : IsBare cs) :
    withoutZone (Text.trimChars Text.isBlankChar cs) = cs := by
  simpa using h.of_blank (List.forall_mem_nil _) (List.forall_mem_nil _)

/-- What is left of a bare text with a zone id in white space. -/
theorem IsBare.of_zone (h : IsBare cs) (hzone : ']' ∉ zone)
    (hbefore : ∀ c ∈ before, Text.isBlankChar c = true)
    (hafter : ∀ c ∈ after, Text.isBlankChar c = true) :
    withoutZone (Text.trimChars Text.isBlankChar
      (before ++ (cs ++ '[' :: (zone ++ [']'])) ++ after)) = cs := by
  -- the brackets are not white space, so they stand at the ends if nothing else does
  have hfirst : ∀ c ∈ (cs ++ '[' :: (zone ++ [']'])).head?, Text.isBlankChar c = false := by
    intro c hc
    rw [List.head?_append, Option.mem_def, Option.or_eq_some_iff] at hc
    rcases hc with hc | ⟨-, hc⟩
    · exact h.first c hc
    · cases hc
      rfl
  have hlast : ∀ c ∈ (cs ++ '[' :: (zone ++ [']'])).getLast?, Text.isBlankChar c = false := by
    intro c hc
    rw [← List.cons_append, ← List.append_assoc, List.getLast?_concat] at hc
    cases hc
    rfl
  rw [Text.trimChars_around hbefore hafter hfirst hlast, withoutZone_zone h.unbracketed hzone]

/-- A text is read from what is left of it; as a whole it is quoted if it has no offset. -/
theorem read_left {text : String}
    (h : withoutZone (Text.trimChars Text.isBlankChar text.toList) = cs) :
    read? text = (Moment.read? (String.ofList cs)).bind fun m =>
      m.timestamp?.elim (.error (.noOffset text)) .ok := by
  unfold read?
  rw [h]
  refine congrArg (Except.bind _) (funext fun m => ?_)
  cases m.timestamp? <;> rfl

/-- Texts of which the same is left are read alike. -/
theorem read_ok_iff_of_left {text other : String}
    (h : withoutZone (Text.trimChars Text.isBlankChar text.toList) = cs)
    (hother : withoutZone (Text.trimChars Text.isBlankChar other.toList) = cs) (t : Timestamp) :
    read? text = .ok t ↔ read? other = .ok t := by
  rw [read_left h, read_left hother]
  cases Moment.read? (String.ofList cs) with
  | error e => exact Iff.rfl
  | ok m =>
      show m.timestamp?.elim _ _ = _ ↔ m.timestamp?.elim _ _ = _
      cases m.timestamp? with
      | none => exact iff_of_false nofun nofun
      | some found => exact Iff.rfl

/-- **Neither a zone id nor white space changes what is read**: with them or without, a bare text is
read as the same timestamp, or as none. -/
theorem read_around {s zone before after : String} (hs : IsBare s.toList)
    (hzone : ']' ∉ zone.toList) (hbefore : Text.isBlank before = true)
    (hafter : Text.isBlank after = true) (t : Timestamp) :
    (read? (before ++ s ++ "[" ++ zone ++ "]" ++ after) = .ok t ↔ read? s = .ok t) ∧
      (read? (before ++ s ++ after) = .ok t ↔ read? s = .ok t) := by
  have hfront := List.all_eq_true.mp hbefore
  have hback := List.all_eq_true.mp hafter
  constructor
  · refine read_ok_iff_of_left ?_ hs.alone t
    simpa using hs.of_zone hzone hfront hback
  · refine read_ok_iff_of_left ?_ hs.alone t
    simpa using hs.of_blank hfront hback

/-- A zone id that holds an opening bracket, white space and a line break; wide white space in front
of the time and a separator of records behind it. -/
theorem read_around_brackets :
    let s := "2024-W22-6 07:30:15.25-03"
    let zone := "[ America\nBahia "
    let t : Timestamp := ⟨⟨⟨2024, 6, 1, by decide, by decide, by decide⟩,
      ⟨7, 30, 15, 250000, by decide, by decide, by decide, by decide⟩⟩,
      ⟨-10800000000, by decide, by decide⟩⟩
    IsBare s.toList ∧ ']' ∉ zone.toList ∧ Text.isBlank "\u2003\t" = true ∧
      Text.isBlank "\u001e\n" = true ∧
      read? "\u2003\t2024-W22-6 07:30:15.25-03[[ America\nBahia ]\u001e\n" = .ok t ∧
      read? "\u2003\t2024-W22-6 07:30:15.25-03\u001e\n" = .ok t := by
  intro s zone t
  have hfirst : s.toList.head? = some '2' := by decide +kernel
  have hlast : s.toList.getLast? = some '3' := by decide +kernel
  have hs : IsBare s.toList := by
    constructor
    · rw [hfirst]
      rintro c ⟨⟩
      rfl
    · rw [hlast]
      rintro c ⟨⟩
      rfl
    · decide +kernel
  have hzone : ']' ∉ zone.toList := by decide +kernel
  have hbefore : Text.isBlank "\u2003\t" = true := by decide
  have hafter : Text.isBlank "\u001e\n" = true := by decide
  have hread : read? s = .ok t := toOption_eq_some.mp (by decide +kernel)
  obtain ⟨hwith, hwithout⟩ := read_around hs hzone hbefore hafter t
  exact ⟨hs, hzone, hbefore, hafter, hwith.mpr hread, hwithout.mpr hread⟩

end Timestamp

end TimetableFeed
