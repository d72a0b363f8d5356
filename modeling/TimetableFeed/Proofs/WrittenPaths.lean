import Mathlib.Logic.Function.Defs
import TimetableFeed.Delivery.DecodeError

/-!
# Written paths

A path is written step by step: a name with a point in front unless it comes first, an index in
brackets. Where no name is empty, and no step seems to begin inside a name, the steps can be told
from the text again: each goes as far as the mark of the next one.

Main definitions: `Path.IsPlain`, `Path.steps`. Main statements: `Path.steps_eq`,
`Path.write_injective`.
-/

namespace TimetableFeed

/-! ## Whole numbers -/

theorem decimalChars_injective : Function.Injective decimalChars := by
  intro m n h
  calc
    m = Nat.ofDigitChars 10 (decimalChars m) 0 := Nat.ofDigitChars_ten_toDigits.symm
    _ = Nat.ofDigitChars 10 (decimalChars n) 0 := by rw [h]
    _ = n := Nat.ofDigitChars_ten_toDigits

theorem mem_integerText {i : Int} {c : Char} (h : c ∈ (integerText i).toList) :
    c = '-' ∨ c.isDigit := by
  rw [integerText, String.toList_ofList] at h
  split at h
  · exact (List.mem_cons.mp h).imp_right isDigit_of_mem_decimalChars
  · exact .inr (isDigit_of_mem_decimalChars h)

theorem integerText_injective : Function.Injective integerText := by
  intro i j h
  have hsign : ∀ m n : Nat, '-' :: decimalChars m ≠ decimalChars n := by
    intro m n heq
    have hmem : '-' ∈ decimalChars n := by
      rw [← heq]
      exact List.mem_cons_self
    exact absurd (isDigit_of_mem_decimalChars hmem) (by decide)
  have hchars := String.ofList_injective h
  split at hchars <;> split at hchars
  · have hdigits := decimalChars_injective (List.cons.inj hchars).2
    omega
  · exact absurd hchars (hsign _ _)
  · exact absurd hchars.symm (hsign _ _)
  · have hdigits := decimalChars_injective hchars
    omega

/-! ## Steps -/

/-- A text that stops where the property does, and a rest that begins where it does not, are told
from the whole. -/
theorem append_inj_of_stop {α : Type} {p : α → Bool} {xs xs' ys ys' : List α}
    (hxs : ∀ x ∈ xs, p x) (hxs' : ∀ x ∈ xs', p x) (hys : ∀ y ∈ ys.head?, p y = false)
    (hys' : ∀ y ∈ ys'.head?, p y = false) (h : xs ++ ys = xs' ++ ys') : xs = xs' ∧ ys = ys' := by
  have hstop : ∀ zs : List α, (∀ z ∈ zs.head?, p z = false) → zs.takeWhile p = [] := by
    intro zs hzs
    cases zs with
    | nil => rfl
    | cons z rest => rw [List.takeWhile_cons_of_neg (by simp [hzs z rfl])]
  have htake := congrArg (List.takeWhile p) h
  rw [List.takeWhile_append_of_pos hxs, List.takeWhile_append_of_pos hxs', hstop ys hys,
    hstop ys' hys', List.append_nil, List.append_nil] at htake
  refine ⟨htake, ?_⟩
  rw [htake] at h
  exact List.append_cancel_left h

namespace PathStep

/-- The characters that a step begins with behind another one. -/
def isMark (c : Char) : Bool := c == '.' || c == '['

def mark : PathStep → Char
  | .key _ => '.'
  | .index _ => '['

def body : PathStep → List Char
  | .key name => name.toList
  | .index i => (integerText i).toList ++ [']']

/-- The step as it is written behind another one. -/
def chars (step : PathStep) : List Char := step.mark :: step.body

/-- A step that can be told from its text: any index, and a name that is not empty and has none of
the marks in it. A closing bracket does no harm. -/
def IsPlain : PathStep → Prop
  | .key name => name ≠ "" ∧ ∀ c ∈ name.toList, isMark c = false
  | .index _ => True

theorem isMark_mark (step : PathStep) : isMark step.mark = true := by
  cases step <;> rfl

theorem isMark_of_mem_integerText {i : Int} {c : Char} (h : c ∈ (integerText i).toList) :
    isMark c = false := by
  cases hmark : isMark c with
  | false => rfl
  | true =>
      rw [isMark, Bool.or_eq_true, beq_iff_eq, beq_iff_eq] at hmark
      rcases hmark with rfl | rfl <;> exact absurd (mem_integerText h) (by decide)

theorem IsPlain.body_unmarked {step : PathStep} (h : step.IsPlain) :
    ∀ c ∈ step.body, isMark c = false := by
  cases step with
  | key name => exact h.2
  | index i =>
      intro c hc
      rcases List.mem_append.mp hc with hc | hc
      · exact isMark_of_mem_integerText hc
      · rw [List.mem_singleton.mp hc]
        rfl

/-- Mark and body make the step. -/
theorem eq_of_parts {s t : PathStep} (hmark : s.mark = t.mark) (hbody : s.body = t.body) :
    s = t := by
  cases s with
  | key name =>
      cases t with
      | key name' => rw [String.toList_injective hbody]
      | index i => cases hmark
  | index i =>
      cases t with
      | key name => cases hmark
      | index j =>
          have htext := String.toList_injective (List.append_cancel_right hbody)
          rw [Int.ofNat_inj.mp (integerText_injective htext)]

/-- A step is told from its text and what follows, if that is nothing or begins with a mark. -/
theorem chars_append_inj {s t : PathStep} {rest rest' : List Char} (hs : s.IsPlain)
    (ht : t.IsPlain) (hrest : ∀ c ∈ rest.head?, isMark c = true)
    (hrest' : ∀ c ∈ rest'.head?, isMark c = true) (h : s.chars ++ rest = t.chars ++ rest') :
    s = t ∧ rest = rest' := by
  obtain ⟨hmark, hbehind⟩ := List.cons.inj h
  obtain ⟨hbody, hrests⟩ := append_inj_of_stop (p := fun c => !isMark c)
    (by simpa using hs.body_unmarked) (by simpa using ht.body_unmarked) (by simpa using hrest)
    (by simpa using hrest') hbehind
  exact ⟨eq_of_parts hmark hbody, hrests⟩

end PathStep

/-! ## Paths -/

namespace Path

/-- Each step can be told from its text. -/
def IsPlain (path : Path) : Prop := ∀ step ∈ path, step.IsPlain

/-- The steps, each with its mark. -/
def steps (path : Path) : List Char := path.flatMap PathStep.chars

theorem steps_cons (step : PathStep) (rest : Path) :
    steps (step :: rest) = step.chars ++ rest.steps := List.flatMap_cons

theorem head_steps (path : Path) : ∀ c ∈ path.steps.head?, PathStep.isMark c = true := by
  cases path with
  | nil => nofun
  | cons step rest =>
      rintro c ⟨⟩
      exact step.isMark_mark

/-- The steps are told from their text, one after the other. -/
theorem steps_injective {p q : Path} (hp : p.IsPlain) (hq : q.IsPlain) (h : p.steps = q.steps) :
    p = q := by
  induction p generalizing q with
  | nil =>
      cases q with
      | nil => rfl
      | cons t q => cases h
  | cons s p ih =>
      cases q with
      | nil => cases h
      | cons t q =>
          obtain ⟨hs, hsteps⟩ := List.forall_mem_cons.mp hp
          obtain ⟨ht, hsteps'⟩ := List.forall_mem_cons.mp hq
          rw [steps_cons, steps_cons] at h
          obtain ⟨rfl, hrest⟩ := PathStep.chars_append_inj hs ht (head_steps p) (head_steps q) h
          rw [ih hsteps hsteps' hrest]

/-- Behind a text that is not empty each step has its mark. -/
theorem toList_writeStep {written : String} (h : written ≠ "") (step : PathStep) :
    (writeStep written step).toList = written.toList ++ step.chars := by
  cases step with
  | key name =>
      rw [writeStep, if_neg h]
      simp [PathStep.chars, PathStep.mark, PathStep.body]
  | index i =>
      rw [writeStep]
      simp [PathStep.chars, PathStep.mark, PathStep.body]

theorem writeStep_ne_empty {written : String} (h : written ≠ "") (step : PathStep) :
    writeStep written step ≠ "" := by
  intro hempty
  have hlist := toList_writeStep h step
  rw [hempty] at hlist
  exact h (String.toList_eq_nil_iff.mp (List.append_eq_nil_iff.mp hlist.symm).1)

theorem toList_foldl_writeStep {written : String} (h : written ≠ "") (path : Path) :
    (path.foldl writeStep written).toList = written.toList ++ path.steps := by
  induction path generalizing written with
  | nil => simp [steps]
  | cons step rest ih =>
      rw [List.foldl_cons, ih (writeStep_ne_empty h step), toList_writeStep h, steps_cons,
        List.append_assoc]

/-- A point in front, unless the text is empty or begins with an index. -/
def pointed (cs : List Char) : List Char := if cs.head?.any (· ≠ '[') then '.' :: cs else cs

/-- The written form is that of the steps, less the point of a name that comes first. -/
theorem steps_eq {path : Path} (h : path.IsPlain) : path.steps = pointed path.write.toList := by
  cases path with
  | nil => rfl
  | cons first rest =>
      rw [steps_cons]
      cases first with
      | key name =>
          obtain ⟨⟨hne, hunmarked⟩, -⟩ := List.forall_mem_cons.mp h
          have hwrite : (write (.key name :: rest)).toList = name.toList ++ steps rest :=
            toList_foldl_writeStep hne rest
          have hpoint : pointed (name.toList ++ steps rest) = '.' :: (name.toList ++ steps rest) := by
            obtain ⟨c, cs, hname⟩ := List.exists_cons_of_ne_nil (mt String.toList_eq_nil_iff.mp hne)
            have hc : c ≠ '[' := by
              rintro rfl
              exact absurd (hunmarked '[' (by simp [hname])) (by decide)
            rw [pointed, hname, if_pos (by simpa using hc)]
          rw [hwrite, hpoint]
          rfl
      | index i =>
          have hwrite : (write (.index i :: rest)).toList =
              (writeStep "" (.index i)).toList ++ steps rest :=
            toList_foldl_writeStep (by simp [writeStep]) rest
          have hfirst : (writeStep "" (.index i)).toList = PathStep.chars (.index i) := by
            simp [writeStep, PathStep.chars, PathStep.mark, PathStep.body]
          rw [hwrite, hfirst, pointed, if_neg (by simp [PathStep.chars, PathStep.mark])]

/-- **Paths are told apart** by their written forms. -/
theorem write_injective {p q : Path} (hp : p.IsPlain) (hq : q.IsPlain) (h : p.write = q.write) :
    p = q := by
  apply steps_injective hp hq
  rw [steps_eq hp, steps_eq hq, h]

end Path

end TimetableFeed
