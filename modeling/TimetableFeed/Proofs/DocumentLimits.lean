import TimetableFeed.Proofs.NumberWidths
import TimetableFeed.Proofs.Results

/-!
# Limits of documents

What a document holds does not depend on how much of it is read: limits make a difference only where
they are exceeded, and then the error says so. Whether the depth is exceeded can be told from the
value, whether a number is too long only from the bytes.

The measure of the depth is the reach of a reader: in how many containers the innermost value lies
that has been begun. It never falls, it rises only to depths that the limits allow, and in the end
it is the depth of the document. The measure of the numbers is the scan that keeps step.

Main definitions: `Json.DenotedBy`, `Json.Limits.Allow`, `Json.Reader.reach`. Main statements:
`Json.read_curbed`, `Json.read_iff_allowed`, `Json.DenotedBy.refused`.
-/

namespace TimetableFeed.Json

open TimetableFeed.Text (asciiByte)

/-! ## Depth -/

mutual

/-- In how many containers the innermost value lies. -/
def depth : Json → Nat
  | .array items => itemsDepth items
  | .object members => membersDepth members
  | _ => 0

def itemsDepth : List Json → Nat
  | [] => 0
  | item :: rest => max (item.depth + 1) (itemsDepth rest)

def membersDepth : List (String × Json) → Nat
  | [] => 0
  | (_, value) :: rest => max (value.depth + 1) (membersDepth rest)

end

theorem itemsDepth_append (xs ys : List Json) :
    itemsDepth (xs ++ ys) = max (itemsDepth xs) (itemsDepth ys) := by
  induction xs with
  | nil => simp [itemsDepth]
  | cons x rest ih => simp only [List.cons_append, itemsDepth, ih, Nat.max_assoc]

theorem itemsDepth_reverse (items : List Json) : itemsDepth items.reverse = itemsDepth items := by
  induction items with
  | nil => rfl
  | cons item rest ih =>
      rw [List.reverse_cons, itemsDepth_append, ih, itemsDepth, itemsDepth, itemsDepth,
        Nat.max_zero, Nat.max_comm]

theorem membersDepth_eq (members : List (String × Json)) :
    membersDepth members = itemsDepth (members.map (·.2)) := by
  induction members with
  | nil => rfl
  | cons member rest ih => rw [List.map_cons, itemsDepth, membersDepth, ih]

theorem membersDepth_reverse (members : List (String × Json)) :
    membersDepth members.reverse = membersDepth members := by
  rw [membersDepth_eq, membersDepth_eq, List.map_reverse, itemsDepth_reverse]

/-! ## The reach of a reader -/

def Purpose.depth : Purpose → Nat
  | .value => 0
  | .key done => membersDepth done

def Frame.depth : Frame → Nat
  | .item done => itemsDepth done
  | .member done _ => membersDepth done

/-- The depth of what has been read in the innermost open container. -/
def Mode.depth : Mode → Nat
  | .nextItem done | .afterItem done => itemsDepth done
  | .nextKey done | .afterKey done _ | .afterMember done => membersDepth done
  | .text d => d.purpose.depth
  | .word _ _ v | .finished v => v.depth
  | .value | .firstItem | .firstKey | .number _ => 0

namespace Reader

def outerReach : List Frame → Nat
  | [] => 0
  | frame :: stack => max (outerReach stack) (stack.length + frame.depth)

/-- In how many containers the innermost value lies that has been begun. Where a value is awaited
behind a colon, it does not count yet. -/
def reach (r : Reader) : Nat :=
  match r.mode with
  | .value => outerReach r.stack
  | .finished v => v.depth
  | mode => max (outerReach r.stack) (r.stack.length + mode.depth)

theorem reach_complete (stack : List Frame) (v : Json) :
    (complete stack v).reach = max (outerReach stack) (stack.length + v.depth) := by
  cases stack with
  | nil => simp [complete, reach, outerReach]
  | cons frame stack =>
      cases frame <;>
        simp only [complete, reach, outerReach, Mode.depth, Frame.depth, itemsDepth, membersDepth,
          List.length_cons] <;>
        omega

end Reader

open Reader (outerReach reach_complete)

variable {l : Limits} {stack : List Frame} {index : Nat} {b : UInt8} {r r' : Reader} {s : Scan}

/-! ### Steps -/

/-- A value that begins lies in all open containers, and in no more than the limit. If it is a
number, one byte of it has been read. -/
theorem beginValue_reach (h : beginValue l stack index b = .ok r') :
    stack.length ≤ l.depth ∧ r'.reach = max (outerReach stack) stack.length ∧
      r'.mode.width ≤ 1 := by
  unfold beginValue at h
  rcases ite_eq_iff.mp h with ⟨-, h⟩ | ⟨hroom, h⟩
  · cases h
  · refine ⟨Nat.le_of_not_lt hroom, ?_⟩
    -- eight kinds of values that are no numbers
    iterate 8
      rcases ite_eq_iff.mp h with ⟨-, h⟩ | ⟨-, h⟩
      · cases h
        exact ⟨rfl, Nat.zero_le 1⟩
    iterate 2
      rcases ite_eq_iff.mp h with ⟨-, h⟩ | ⟨-, h⟩
      · cases h
        exact ⟨rfl, Nat.le_refl 1⟩
    cases h

/-- Behind a value the reach stays as it is. -/
theorem Behind.reach (h : Behind r b r') (hr : r.mode.width = 0) :
    r'.mode.width = 0 ∧ r'.reach = r.reach := by
  obtain ⟨stack, mode⟩ := r
  cases h with
  | space => exact ⟨hr, rfl⟩
  | nextItem hmode _ | nextKey hmode _ =>
      cases hmode
      exact ⟨rfl, rfl⟩
  | endArray hmode _ =>
      cases hmode
      rw [reach_complete, depth, itemsDepth_reverse]
      exact ⟨complete_width _ _, rfl⟩
  | endObject hmode _ =>
      cases hmode
      rw [reach_complete, depth, membersDepth_reverse]
      exact ⟨complete_width _ _, rfl⟩

theorem TextDraft.pushChar_purpose (d : TextDraft) (n : Nat) : (d.pushChar n).purpose = d.purpose :=
  rfl

theorem TextDraft.unit_purpose {d d' : TextDraft} {high : Option Nat} {codes : List UInt8}
    (h : d.unit high codes index = .ok d') : d'.purpose = d.purpose := by
  unfold TextDraft.unit at h
  split at h
  · cases h
  · split at h
    · split at h
      · cases h
      · split at h
        · cases h
          rfl
        · cases h
          exact d.pushChar_purpose _
    · split at h
      · cases h
        exact d.pushChar_purpose _
      · cases h

theorem TextDraft.step_purpose {d d' : TextDraft} (h : d.step index b = .ok d') :
    d'.purpose = d.purpose := by
  unfold TextDraft.step at h
  split at h
  case h_3 =>
    split at h
    · cases h
      rfl
    · exact TextDraft.unit_purpose h
  all_goals
    repeat' split at h
    all_goals cases h <;> rfl

theorem NumberDraft.value_depth {d : NumberDraft} {v : Json} (h : d.value? = some v) :
    v.depth = 0 := by
  unfold NumberDraft.value? at h
  split at h <;> cases h <;> rfl

theorem closeText_reach {d : TextDraft} (h : closeText stack d = .ok r') :
    r'.mode.width = 0 ∧ r'.reach = Reader.reach ⟨stack, .text d⟩ := by
  unfold closeText at h
  split at h
  · cases h
  · show _ ∧ _ = max (outerReach stack) (stack.length + d.purpose.depth)
    split at h
    · cases h
      rw [reach_complete, ‹d.purpose = _›]
      exact ⟨complete_width _ _, rfl⟩
    · cases h
      rw [‹d.purpose = _›]
      exact ⟨rfl, rfl⟩

/-- What a step can do. Limits matter only to a value that begins and to a byte of a number; and
only where a value begins does the reach change. -/
inductive Reader.Course (r : Reader) (index : Nat) (b : UInt8) (r' : Reader) : Prop where
  | begins (stack : List Frame) (hstep : ∀ l, r.step l index b = beginValue l stack index b)
      (hreach : r.reach = outerReach stack)
  | counts (d : NumberDraft)
      (hstep : ∀ l, r.step l index b =
        if l.digits < d.width then .error ⟨.numberTooLong, index + 1⟩ else .ok r')
      (hwidth : r'.mode.width = d.width) (hreach : r'.reach = r.reach)
  | goesOn (hstep : ∀ l, r.step l index b = .ok r') (hwidth : r'.mode.width = 0)
      (hreach : r'.reach = r.reach)

theorem step_number {d : NumberDraft} (h : Reader.step l ⟨stack, .number d⟩ index b = .ok r') :
    Reader.Course ⟨stack, .number d⟩ index b r' := by
  by_cases hinfinity : d.phase = .minus ∧ b == asciiByte 'I'
  · have hstep : ∀ l, Reader.step l ⟨stack, .number d⟩ index b =
        .ok ⟨stack, beginValue.infinity d.negative⟩ := fun l => if_pos hinfinity
    rw [hstep l] at h
    cases h
    exact .goesOn hstep rfl rfl
  · rcases hd : d.step b with next | _ | _
    · have hstep : ∀ l, Reader.step l ⟨stack, .number d⟩ index b =
          if l.digits < next.width then .error ⟨.numberTooLong, index + 1⟩
          else .ok ⟨stack, .number next⟩ :=
        fun l => by simp only [Reader.step, if_neg hinfinity, hd]
      rw [hstep l] at h
      split at h
      · cases h
      · cases h
        exact .counts next hstep rfl rfl
    · -- the number is complete
      cases hv : d.value? with
      | none =>
          simp only [Reader.step, if_neg hinfinity, hd, hv] at h
          cases h
      | some v =>
          have hstep : ∀ l, Reader.step l ⟨stack, .number d⟩ index b =
              stepAfterValue (complete stack v) index b :=
            fun l => by simp only [Reader.step, if_neg hinfinity, hd, hv]
          rw [hstep l] at h
          obtain ⟨hwidth, hreach⟩ := (stepAfterValue_behind h).reach (complete_width _ _)
          refine .goesOn (fun l => (hstep l).trans h) hwidth ?_
          rw [hreach, reach_complete, NumberDraft.value_depth hv]
          rfl
    · simp only [Reader.step, if_neg hinfinity, hd] at h
      cases h

theorem step_text {d : TextDraft} (h : Reader.step l ⟨stack, .text d⟩ index b = .ok r') :
    r'.mode.width = 0 ∧ r'.reach = Reader.reach ⟨stack, .text d⟩ := by
  simp only [Reader.step] at h
  split at h
  · exact closeText_reach h
  · cases hstep : d.step index b with
    | error e =>
        rw [hstep] at h
        cases h
    | ok next =>
        rw [hstep] at h
        cases h
        refine ⟨rfl, ?_⟩
        simp only [Reader.reach, Mode.depth, TextDraft.step_purpose hstep]

theorem step_firstKey (h : Reader.step l ⟨stack, .firstKey⟩ index b = .ok r') :
    r'.mode.width = 0 ∧ r'.reach = Reader.reach ⟨stack, .firstKey⟩ := by
  simp only [Reader.step] at h
  split at h
  · cases h
    exact ⟨rfl, rfl⟩
  · split at h
    · cases h
      exact ⟨rfl, rfl⟩
    · split at h
      · cases h
        exact ⟨complete_width _ _, reach_complete _ _⟩
      · cases h

theorem step_word {next : UInt8} {rest : List UInt8} {v : Json}
    (h : Reader.step l ⟨stack, .word next rest v⟩ index b = .ok r') :
    r'.mode.width = 0 ∧ r'.reach = Reader.reach ⟨stack, .word next rest v⟩ := by
  simp only [Reader.step] at h
  split at h
  · cases rest with
    | nil =>
        cases h
        exact ⟨complete_width _ _, reach_complete _ _⟩
    | cons next rest =>
        cases h
        exact ⟨rfl, rfl⟩
  · cases h

theorem Reader.step_course (h : r.step l index b = .ok r') : r.Course index b r' := by
  obtain ⟨stack, mode⟩ := r
  by_cases hspace : mode.AllowsSpace ∧ isSpace b = true
  · have hstep : ∀ l, step l ⟨stack, mode⟩ index b = .ok ⟨stack, mode⟩ :=
      fun l => step_space hspace.1 hspace.2 index
    rw [hstep l] at h
    cases h
    exact .goesOn hstep (Mode.width_of_space hspace.1) rfl
  cases mode with
  | value =>
      have hplain : ¬ isSpace b = true := fun hb => hspace ⟨trivial, hb⟩
      exact .begins stack (fun l => if_neg hplain) rfl
  | firstItem =>
      have hplain : ¬ isSpace b = true := fun hb => hspace ⟨trivial, hb⟩
      by_cases hclose : (b == asciiByte ']') = true
      · have hstep : ∀ l, step l ⟨stack, .firstItem⟩ index b = .ok (complete stack (.array [])) :=
          fun l => (if_neg hplain).trans (if_pos hclose)
        rw [hstep l] at h
        cases h
        exact .goesOn hstep (complete_width _ _) (reach_complete _ _)
      · exact .begins (.item [] :: stack) (fun l => (if_neg hplain).trans (if_neg hclose)) rfl
  | nextItem done =>
      have hplain : ¬ isSpace b = true := fun hb => hspace ⟨trivial, hb⟩
      by_cases hclose : (b == asciiByte ']') = true
      · have hstep : step l ⟨stack, .nextItem done⟩ index b = .error ⟨.trailingComma, index⟩ :=
          (if_neg hplain).trans (if_pos hclose)
        rw [hstep] at h
        cases h
      · exact .begins (.item done :: stack) (fun l => (if_neg hplain).trans (if_neg hclose)) rfl
  | number d => exact step_number h
  | text d => exact .goesOn (fun _ => h) (step_text h).1 (step_text h).2
  | word next rest v => exact .goesOn (fun _ => h) (step_word h).1 (step_word h).2
  | firstKey => exact .goesOn (fun _ => h) (step_firstKey h).1 (step_firstKey h).2
  | nextKey done =>
      suffices hr : r'.mode.width = 0 ∧ r'.reach = reach ⟨stack, .nextKey done⟩ from
        .goesOn (fun _ => h) hr.1 hr.2
      simp only [step] at h
      repeat' split at h
      all_goals cases h <;> exact ⟨rfl, rfl⟩
  | afterKey done key =>
      suffices hr : r'.mode.width = 0 ∧ r'.reach = reach ⟨stack, .afterKey done key⟩ from
        .goesOn (fun _ => h) hr.1 hr.2
      simp only [step] at h
      repeat' split at h
      all_goals cases h <;> exact ⟨rfl, rfl⟩
  | afterItem _ | afterMember _ | finished _ =>
      obtain ⟨hwidth, hreach⟩ := (stepAfterValue_behind h).reach rfl
      exact .goesOn (fun _ => h) hwidth hreach

/-- **Step lemma**: the reach does not fall, and it rises only to a depth that is allowed. -/
theorem Reader.step_reach (h : r.step l index b = .ok r') :
    r.reach ≤ r'.reach ∧ r'.reach ≤ max r.reach l.depth := by
  cases step_course h with
  | begins stack hstep hbefore =>
      rw [hstep l] at h
      obtain ⟨hroom, hreach, -⟩ := beginValue_reach h
      omega
  | counts d _ _ hreach => omega
  | goesOn _ _ hreach => omega

/-- **Step lemma**: the number that is being read is not too long. One byte is always read. -/
theorem Reader.step_width (h : r.step l index b = .ok r') : r'.mode.width ≤ max 1 l.digits := by
  cases step_course h with
  | begins stack hstep _ =>
      rw [hstep l] at h
      obtain ⟨-, -, hwidth⟩ := beginValue_reach h
      exact Nat.le_trans hwidth (Nat.le_max_left 1 _)
  | counts d hstep hwidth _ =>
      rw [hstep l] at h
      rw [hwidth]
      have hshort : d.width ≤ l.digits := by
        refine Nat.le_of_not_lt fun hlong => ?_
        rw [if_pos hlong] at h
        cases h
      exact Nat.le_trans hshort (Nat.le_max_right 1 _)
  | goesOn _ hwidth _ => omega

/-- **Run lemma**. -/
theorem Reader.run_reach {bytes : List UInt8} (h : r.run l index bytes = .ok r') :
    r.reach ≤ r'.reach ∧ r'.reach ≤ max r.reach l.depth := by
  induction bytes generalizing r index with
  | nil =>
      cases h
      omega
  | cons b rest ih =>
      obtain ⟨next, hstep, h⟩ := run_cons_ok.mp h
      have hnext := step_reach hstep
      have hrest := ih h
      omega

/-- **Run lemma**, for the numbers. -/
theorem Reader.run_longest {bytes : List UInt8} (hs : r.mode.Scans s)
    (hr : r.mode.width ≤ max 1 l.digits) (h : r.run l index bytes = .ok r') :
    s.longest bytes ≤ max 1 l.digits := by
  induction bytes generalizing r s index with
  | nil => rwa [Scan.longest, hs.width]
  | cons b rest ih =>
      obtain ⟨next, hstep, h⟩ := run_cons_ok.mp h
      refine Nat.max_le.mpr ⟨?_, ih (step_scans hs hstep) (step_width hstep) h⟩
      rwa [hs.width]

/-- At the end of a document the reach is the depth of what it holds. -/
theorem Reader.finish_reach {v : Json} (h : r.finish = .ok v) : v.depth = r.reach := by
  obtain ⟨stack, mode⟩ := r
  cases mode with
  | finished w =>
      cases h
      rfl
  | number d =>
      simp only [finish] at h
      split at h
      · rename_i w hw
        -- inside a container the end is missing
        cases stack with
        | nil =>
            cases h
            rw [NumberDraft.value_depth hw]
            rfl
        | cons frame stack => cases frame <;> cases h
      · cases h
  | _ => cases h

/-! ## Other limits -/

/-- The error is about a limit, not about the syntax. -/
def SyntaxCause.IsLimit (cause : SyntaxCause) : Prop := cause = .tooDeep ∨ cause = .numberTooLong

/-- What limits make of a result that others give: they keep it, or one of them is less than what
is reached in the end, and the error is about that one. -/
inductive Curbed {α : Type} (l : Limits) (reach width : Nat) (a : α) :
    Except SyntaxError α → Prop where
  | same : Curbed l reach width a (.ok a)
  | tooDeep (index : Nat) (h : l.depth < reach) :
      Curbed l reach width a (.error ⟨.tooDeep, index⟩)
  | tooLong (index : Nat) (h : l.digits < width) :
      Curbed l reach width a (.error ⟨.numberTooLong, index⟩)

theorem Curbed.mono {α : Type} {reach width width' : Nat} {a : α} {result : Except SyntaxError α}
    (h : Curbed l reach width a result) (hwidth : width ≤ width') :
    Curbed l reach width' a result := by
  cases h with
  | same => exact .same
  | tooDeep index hdeep => exact .tooDeep index hdeep
  | tooLong index hlong => exact .tooLong index (Nat.lt_of_lt_of_le hlong hwidth)

/-- **Step lemma**, for other limits. -/
theorem Reader.step_curbed (l' : Limits) (h : r.step l index b = .ok r') :
    Curbed l' r'.reach r'.mode.width r' (r.step l' index b) := by
  cases step_course h with
  | begins stack hstep _ =>
      rw [hstep l] at h
      rw [hstep l']
      obtain ⟨hroom, hreach, -⟩ := beginValue_reach h
      by_cases hdeep : l'.depth < stack.length
      · rw [beginValue, if_pos hdeep]
        exact .tooDeep index (by omega)
      · have heq : beginValue l' stack index b = beginValue l stack index b := by
          rw [beginValue, beginValue, if_neg hdeep, if_neg (Nat.not_lt_of_le hroom)]
        rw [heq, h]
        exact .same
  | counts d hstep hwidth _ =>
      rw [hstep l']
      by_cases hlong : l'.digits < d.width
      · rw [if_pos hlong]
        exact .tooLong _ (by rwa [hwidth])
      · rw [if_neg hlong]
        exact .same
  | goesOn hstep _ _ =>
      rw [hstep l']
      exact .same

/-- **Run lemma**, for other limits. -/
theorem Reader.run_curbed (l' : Limits) {bytes : List UInt8} (hs : r.mode.Scans s)
    (h : r.run l index bytes = .ok r') :
    Curbed l' r'.reach (s.longest bytes) r' (r.run l' index bytes) := by
  induction bytes generalizing r s index with
  | nil =>
      cases h
      exact .same
  | cons b rest ih =>
      obtain ⟨next, hstep, h⟩ := run_cons_ok.mp h
      have hnext := step_scans hs hstep
      -- what has been reached stays reached to the end
      obtain ⟨hrise, -⟩ := run_reach h
      have hlonger : (s.step b).longest rest ≤ s.longest (b :: rest) := Nat.le_max_right _ _
      have hwidth := (s.step b).width_le_longest rest
      rw [hnext.width] at hwidth
      have hcurbed := step_curbed l' hstep
      rw [run]
      generalize r.step l' index b = result at hcurbed
      cases hcurbed with
      | same => exact (ih hnext h).mono hlonger
      | tooDeep _ hdeep => exact .tooDeep _ (Nat.lt_of_lt_of_le hdeep hrise)
      | tooLong _ hlong => exact .tooLong _ (by omega)

/-! ## Documents -/

theorem read_ok_iff {bytes : List UInt8} {v : Json} :
    read? l bytes = .ok v ↔ ∃ r, Reader.start.run l 0 bytes = .ok r ∧ r.finish = .ok v := by
  unfold read?
  cases hrun : Reader.start.run l 0 bytes with
  | error e => exact ⟨nofun, fun ⟨_, h, _⟩ => nomatch h⟩
  | ok r =>
      constructor
      · intro h
        exact ⟨r, rfl, eq_ok_of_mapError h⟩
      · rintro ⟨_, ⟨⟩, hfinish⟩
        show r.finish.mapError _ = _
        rw [hfinish]
        rfl

theorem depth_le_of_read {bytes : List UInt8} {v : Json} (h : read? l bytes = .ok v) :
    v.depth ≤ l.depth := by
  obtain ⟨r, hrun, hfinish⟩ := read_ok_iff.mp h
  have hstart : Reader.start.reach = 0 := rfl
  have hreach := Reader.run_reach hrun
  have hdepth := Reader.finish_reach hfinish
  omega

theorem longestNumber_le_of_read {bytes : List UInt8} {v : Json} (h : read? l bytes = .ok v) :
    longestNumber bytes ≤ max 1 l.digits := by
  obtain ⟨r, hrun, -⟩ := read_ok_iff.mp h
  exact Reader.run_longest Reader.start_scans (Nat.zero_le _) hrun

/-- **Other limits** give the same value, or an error about a limit that is exceeded. -/
theorem read_curbed (l' : Limits) {bytes : List UInt8} {v : Json} (h : read? l bytes = .ok v) :
    Curbed l' v.depth (longestNumber bytes) v (read? l' bytes) := by
  obtain ⟨r, hrun, hfinish⟩ := read_ok_iff.mp h
  have hcurbed : Curbed l' r.reach (longestNumber bytes) r _ :=
    Reader.run_curbed l' Reader.start_scans hrun
  rw [← Reader.finish_reach hfinish] at hcurbed
  unfold read?
  generalize Reader.start.run l' 0 bytes = result at hcurbed
  cases hcurbed with
  | same =>
      dsimp only
      rw [hfinish]
      exact .same
  | tooDeep _ hdeep => exact .tooDeep _ hdeep
  | tooLong _ hlong => exact .tooLong _ hlong

/-- The bytes are a document that holds the value, be it ever so deep or its numbers ever so
long. -/
def DenotedBy (v : Json) (bytes : List UInt8) : Prop := ∃ limits, read? limits bytes = .ok v

/-- A document is within the limits. -/
structure Limits.Allow (limits : Limits) (bytes : List UInt8) (v : Json) : Prop where
  depth : v.depth ≤ limits.depth
  numbers : longestNumber bytes ≤ limits.digits

variable {bytes : List UInt8} {v w : Json}

/-- A document holds one value. -/
theorem DenotedBy.unique (hv : v.DenotedBy bytes) (hw : w.DenotedBy bytes) : v = w := by
  obtain ⟨limits, hv⟩ := hv
  obtain ⟨limits', hw⟩ := hw
  have hcurbed := read_curbed limits' hv
  rw [hw] at hcurbed
  cases hcurbed
  rfl

/-- **Which documents are read**: those within the limits. -/
theorem read_iff_allowed (hl : 0 < l.digits) (h : v.DenotedBy bytes) :
    read? l bytes = .ok v ↔ l.Allow bytes v := by
  constructor
  · intro hread
    have hnumbers := longestNumber_le_of_read hread
    exact ⟨depth_le_of_read hread, by omega⟩
  · rintro ⟨hdepth, hnumbers⟩
    obtain ⟨wide, hread⟩ := h
    have hcurbed := read_curbed l hread
    generalize read? l bytes = result at hcurbed
    cases hcurbed with
    | same => rfl
    | tooDeep _ hdeep => exact absurd hdepth (Nat.not_le_of_lt hdeep)
    | tooLong _ hlong => exact absurd hnumbers (Nat.not_le_of_lt hlong)

/-- A document beyond the limits is refused because of them. -/
theorem DenotedBy.refused (hl : 0 < l.digits) (h : v.DenotedBy bytes)
    (hnot : ¬ l.Allow bytes v) : ∃ e, read? l bytes = .error e ∧ e.cause.IsLimit := by
  obtain ⟨wide, hread⟩ := id h
  have hcurbed := read_curbed l hread
  cases hresult : read? l bytes with
  | ok w =>
      rw [hresult] at hcurbed
      cases hcurbed
      exact absurd ((read_iff_allowed hl h).mp hresult) hnot
  | error e =>
      rw [hresult] at hcurbed
      cases hcurbed with
      | tooDeep _ _ => exact ⟨_, rfl, .inl rfl⟩
      | tooLong _ _ => exact ⟨_, rfl, .inr rfl⟩

end TimetableFeed.Json
