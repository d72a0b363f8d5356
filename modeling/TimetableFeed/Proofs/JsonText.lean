import Mathlib.Algebra.Group.Nat.Defs
import TimetableFeed.Json.Printer
import TimetableFeed.Json.Reader
import TimetableFeed.Proofs.Utf8Text

/-!
# Reading back JSON

A document that has been printed is read as what it was, in any layout, with its characters escaped
or not. It must hold no numbers, whose written form is a matter of its own, and its containers must
not be nested deeper than the reader allows.

The reader is followed from one place in the document to another: over a character of a text, over a
text, over a value. The induction is on the value, with the items and members of a container as a
list inside it.

Main definitions: `PlainTo`, `Reader.Reaches`. Main statements: `reaches_value`, `read_print`.
-/

namespace TimetableFeed.Json

open TimetableFeed.Text (asciiByte)
open TimetableFeed.Utf8 (encodeChars encodeChars_append encodeChars_cons encodeChar_of_ascii
  encodeChars_of_ascii toNat_asciiByte)

variable {limits : Limits}

/-- The value holds no numbers, and its containers are nested no deeper than the given depth. -/
inductive PlainTo : Nat → Json → Prop where
  | null (depth : Nat) : PlainTo depth .null
  | boolean (depth : Nat) (value : Bool) : PlainTo depth (.boolean value)
  | text (depth : Nat) (s : String) : PlainTo depth (.text s)
  | array {depth : Nat} {items : List Json} (h : ∀ item ∈ items, PlainTo depth item) :
      PlainTo (depth + 1) (.array items)
  | object {depth : Nat} {members : List (String × Json)}
      (h : ∀ member ∈ members, PlainTo depth member.2) : PlainTo (depth + 1) (.object members)

namespace Reader

/-- Over these characters the reader comes from one state to the other, wherever they stand. -/
def Reaches (limits : Limits) (r : Reader) (cs : List Char) (r' : Reader) : Prop :=
  ∀ index, r.run limits index (encodeChars cs) = .ok r'

variable {r r' r'' : Reader} {xs ys : List Char}

theorem Reaches.refl (r : Reader) : r.Reaches limits [] r := fun _ => rfl

theorem Reaches.append (h : r.Reaches limits xs r') (h' : r'.Reaches limits ys r'') :
    r.Reaches limits (xs ++ ys) r'' := by
  intro index
  rw [encodeChars_append, run_append, h index]
  exact h' _

theorem Reaches.cons {c : Char} {b : UInt8} (hb : String.utf8EncodeChar c = [b])
    (hstep : ∀ index, r.step limits index b = .ok r') (h : r'.Reaches limits xs r'') :
    r.Reaches limits (c :: xs) r'' := by
  intro index
  rw [encodeChars_cons, hb, List.singleton_append, run, hstep index]
  exact h _

end Reader

open Reader (Reaches)

/-! ## White space -/

/-- Space may stand here. -/
def Mode.AllowsSpace : Mode → Prop
  | .word _ _ _ | .number _ | .text _ => False
  | _ => True

theorem step_space {stack : List Frame} {mode : Mode} (h : mode.AllowsSpace) {b : UInt8}
    (hb : isSpace b = true) (index : Nat) :
    Reader.step limits ⟨stack, mode⟩ index b = .ok ⟨stack, mode⟩ := by
  cases mode with
  | word next rest v => cases h
  | number d => cases h
  | text d => cases h
  | _ => simp [Reader.step, stepAfterValue, hb]

theorem reaches_space {stack : List Frame} {mode : Mode} (h : mode.AllowsSpace) {cs : List Char}
    (hcs : ∀ c ∈ cs, c = ' ' ∨ c = '\n') : Reaches limits ⟨stack, mode⟩ cs ⟨stack, mode⟩ := by
  induction cs with
  | nil => exact .refl _
  | cons c rest ih =>
      obtain ⟨hc, hrest⟩ := List.forall_mem_cons.mp hcs
      rcases hc with rfl | rfl
      · exact .cons rfl (step_space h rfl) (ih hrest)
      · exact .cons rfl (step_space h rfl) (ih hrest)

theorem lineBreak_space (layout : Layout) (level : Nat) :
    ∀ c ∈ layout.lineBreak level, c = ' ' ∨ c = '\n' := by
  intro c hc
  unfold Layout.lineBreak at hc
  cases hindent : layout.indent? with
  | none => simp [hindent] at hc
  | some width =>
      rw [hindent] at hc
      rcases List.mem_cons.mp hc with rfl | hc
      · exact .inr rfl
      · exact .inl (List.eq_of_mem_replicate hc)

theorem separator_eq (layout : Layout) (level : Nat) :
    ∃ gap, layout.separator level = ',' :: gap ∧ ∀ c ∈ gap, c = ' ' ∨ c = '\n' := by
  unfold Layout.separator
  cases layout.indent? with
  | none => exact ⟨[' '], rfl, by simp⟩
  | some width => exact ⟨_, rfl, lineBreak_space layout level⟩

/-! ## Texts -/

section Texts

variable {stack : List Frame} {d : TextDraft}

theorem TextDraft.push_escape (d : TextDraft) (bytes : List UInt8) : (d.push bytes).escape = .off :=
  rfl

theorem TextDraft.push_push (d : TextDraft) (xs ys : List UInt8) :
    (d.push xs).push ys = d.push (xs ++ ys) := by
  simp [TextDraft.push]

theorem TextDraft.push_nil (h : d.escape = .off) : d.push [] = d := by
  obtain ⟨purpose, start, bytes, escape⟩ := d
  obtain rfl : escape = .off := h
  rfl

/-! ### Escapes -/

theorem hexDigit_lt {n : Nat} (h : n < 16) : (Text.hexDigit n).toNat < 128 := by
  revert h n
  decide

theorem hexChars_ascii (width n : Nat) : ∀ c ∈ Text.hexChars width n, c.toNat < 128 := by
  induction width generalizing n with
  | zero => simp [Text.hexChars]
  | succ width ih =>
      intro c hc
      rcases List.mem_append.mp hc with hc | hc
      · exact ih _ c hc
      · rw [List.mem_singleton.mp hc]
        exact hexDigit_lt (Nat.mod_lt _ (by decide))

theorem hexNumber_append (xs : List Nat) (x : Nat) :
    Text.hexNumber? (xs ++ [x]) =
      (Text.hexNumber? xs).bind fun total => (Text.hexValue? x).map (total * 16 + ·) := by
  simp [Text.hexNumber?, List.foldlM_append]

theorem hexNumber_hexChars (width n : Nat) (h : n < 16 ^ width) :
    Text.hexNumber? ((Text.hexChars width n).map Char.toNat) = some n := by
  induction width generalizing n with
  | zero =>
      obtain rfl : n = 0 := by omega
      rfl
  | succ width ih =>
      rw [Nat.pow_succ] at h
      rw [Text.hexChars, List.map_append, List.map_singleton, hexNumber_append,
        ih (n / 16) (by omega), Text.hexValue?_hexDigit (Nat.mod_lt n (by decide))]
      simp only [Option.map_some, Option.bind_some, Option.some.injEq]
      omega

theorem unit_bytes {n : Nat} (h : n < 0x10000) : ∃ b₁ b₂ b₃ b₄ : UInt8,
    encodeChars (Text.hexChars 4 n) = [b₁, b₂, b₃, b₄] ∧
      Text.hexNumber? ([b₁, b₂, b₃, b₄].map UInt8.toNat) = some n := by
  have hascii := hexChars_ascii 4 n
  have hbytes := encodeChars_of_ascii hascii
  have hcodes : (encodeChars (Text.hexChars 4 n)).map UInt8.toNat =
      (Text.hexChars 4 n).map Char.toNat := by
    rw [hbytes, List.map_map]
    exact List.map_congr_left fun c hc => toNat_asciiByte (hascii c hc)
  have hlength : (encodeChars (Text.hexChars 4 n)).length = 4 := by
    rw [hbytes, List.length_map, Text.hexChars_length]
  obtain ⟨b₁, b₂, b₃, b₄, heq⟩ :
      ∃ b₁ b₂ b₃ b₄, encodeChars (Text.hexChars 4 n) = [b₁, b₂, b₃, b₄] := by
    match encodeChars (Text.hexChars 4 n), hlength with
    | [b₁, b₂, b₃, b₄], _ => exact ⟨b₁, b₂, b₃, b₄, rfl⟩
  refine ⟨b₁, b₂, b₃, b₄, heq, ?_⟩
  rw [← heq, hcodes, hexNumber_hexChars 4 n h]

/-- Behind a backslash, the escape of a unit ends in judging the unit. -/
theorem reaches_unit {purpose : Purpose} {start : Nat} {bytes : List UInt8} (high : Option Nat)
    {n : Nat} {d : TextDraft} (hn : n < 0x10000)
    (hunit : ∀ escape codes index, Text.hexNumber? (codes.map UInt8.toNat) = some n →
      TextDraft.unit ⟨purpose, start, bytes, escape⟩ high codes index = .ok d) :
    Reaches limits ⟨stack, .text ⟨purpose, start, bytes, high.elim .off .pair⟩⟩ (unitChars n)
      ⟨stack, .text d⟩ := by
  have hdigits : Reaches limits ⟨stack, .text ⟨purpose, start, bytes, .hex high []⟩⟩
      (Text.hexChars 4 n) ⟨stack, .text d⟩ := by
    intro index
    obtain ⟨b₁, b₂, b₃, b₄, heq, hvalue⟩ := unit_bytes hn
    -- three digits are only kept, the fourth one decides
    have hlast : Reader.step limits ⟨stack, .text ⟨purpose, start, bytes, .hex high [b₃, b₂, b₁]⟩⟩
        (index + 3) b₄ = .ok ⟨stack, .text d⟩ := by
      show (TextDraft.unit _ high [b₁, b₂, b₃, b₄] (index + 3)).map _ = _
      rw [hunit _ _ _ hvalue]
      rfl
    rw [heq]
    show Reader.run limits ⟨stack, .text ⟨purpose, start, bytes, .hex high [b₃, b₂, b₁]⟩⟩
      (index + 3) [b₄] = _
    rw [Reader.run, hlast]
    rfl
  cases high with
  | none => exact .cons rfl (fun _ => rfl) (.cons rfl (fun _ => rfl) hdigits)
  | some high => exact .cons rfl (fun _ => rfl) (.cons rfl (fun _ => rfl) hdigits)

/-- A unit that is no surrogate is a character. -/
theorem unit_of_character {n : Nat} (hn : n < 0xD800 ∨ 0xDFFF < n) (codes : List UInt8)
    (index : Nat) (hvalue : Text.hexNumber? (codes.map UInt8.toNat) = some n) :
    d.unit none codes index = .ok (d.pushChar n) := by
  rw [TextDraft.unit, hvalue]
  dsimp only
  rw [if_neg (by omega), if_neg (by omega)]

theorem unit_of_high {n : Nat} (hn : 0xD800 ≤ n ∧ n ≤ 0xDBFF) (codes : List UInt8) (index : Nat)
    (hvalue : Text.hexNumber? (codes.map UInt8.toNat) = some n) :
    d.unit none codes index = .ok { d with escape := .pair n } := by
  rw [TextDraft.unit, hvalue]
  dsimp only
  rw [if_neg (by omega), if_pos hn]

theorem unit_of_low {high n : Nat} (hn : 0xDC00 ≤ n ∧ n ≤ 0xDFFF) (codes : List UInt8) (index : Nat)
    (hvalue : Text.hexNumber? (codes.map UInt8.toNat) = some n) :
    d.unit (some high) codes index =
      .ok (d.pushChar (0x10000 + (high - 0xD800) * 0x400 + (n - 0xDC00))) := by
  rw [TextDraft.unit, hvalue]
  dsimp only
  rw [if_pos hn]

/-- The draft with one more character is reached over what is printed of it. -/
def Shows (limits : Limits) (stack : List Frame) (d : TextDraft) (cs : List Char) (c : Char) :
    Prop :=
  Reaches limits ⟨stack, .text d⟩ cs ⟨stack, .text (d.push (String.utf8EncodeChar c))⟩

theorem shows_escape (h : d.escape = .off) (c : Char) : Shows limits stack d (escapeChars c) c := by
  obtain ⟨purpose, start, bytes, escape⟩ := d
  obtain rfl : escape = .off := h
  have hvalid : c.toNat < 0xD800 ∨ 0xDFFF < c.toNat ∧ c.toNat < 0x110000 := c.valid
  have hpush : ∀ (d : TextDraft) n, n = c.toNat →
      d.pushChar n = d.push (String.utf8EncodeChar c) := by
    rintro d n rfl
    rw [TextDraft.pushChar, Char.ofNat_toNat]
  unfold escapeChars Shows
  by_cases hbasic : c.toNat < 0x10000
  · rw [if_pos hbasic]
    refine reaches_unit none hbasic fun escape codes index hvalue => ?_
    rw [unit_of_character (by omega) codes index hvalue, hpush _ _ rfl]
    rfl
  · rw [if_neg hbasic]
    let high := 0xD800 + (c.toNat - 0x10000) / 0x400
    have hhigh : Reaches limits ⟨stack, .text ⟨purpose, start, bytes, .off⟩⟩ (unitChars high)
        ⟨stack, .text ⟨purpose, start, bytes, .pair high⟩⟩ :=
      reaches_unit none (by omega) fun escape codes index hvalue =>
        unit_of_high (by omega) codes index hvalue
    refine hhigh.append (reaches_unit (some high) (by omega) fun escape codes index hvalue => ?_)
    rw [unit_of_low (by omega) codes index hvalue, hpush _ _ (by omega)]
    rfl

/-! ### Characters and texts -/

/-- The byte stands for itself inside a text. -/
def IsBare (b : UInt8) : Prop := 0x20 ≤ b.toNat ∧ b.toNat ≠ 0x22 ∧ b.toNat ≠ 0x5C

theorem step_bare {b : UInt8} (hb : IsBare b) (h : d.escape = .off) (index : Nat) :
    Reader.step limits ⟨stack, .text d⟩ index b = .ok ⟨stack, .text (d.push [b])⟩ := by
  obtain ⟨hspace, hquote, hslash⟩ := hb
  have hcontrol : ¬ b < 0x20 := by
    rw [UInt8.lt_iff_toNat_lt]
    exact Nat.not_lt_of_le hspace
  have hopen : b ≠ asciiByte '"' := by
    rintro rfl
    exact hquote rfl
  have hplain : b ≠ asciiByte '\\' := by
    rintro rfl
    exact hslash rfl
  simp [Reader.step, TextDraft.isClosedBy, TextDraft.step, h, hcontrol, hopen, hplain, Except.map]

theorem run_bare {bs : List UInt8} (hbs : ∀ b ∈ bs, IsBare b) (h : d.escape = .off) (index : Nat) :
    Reader.run limits ⟨stack, .text d⟩ index bs = .ok ⟨stack, .text (d.push bs)⟩ := by
  induction bs generalizing d index with
  | nil => rw [TextDraft.push_nil h, Reader.run]
  | cons b rest ih =>
      obtain ⟨hb, hrest⟩ := List.forall_mem_cons.mp hbs
      rw [Reader.run, step_bare hb h]
      dsimp only
      rw [ih hrest (d.push_escape [b]), TextDraft.push_push, List.singleton_append]

/-- The bytes of a character beyond ASCII are none of ASCII. -/
theorem bare_of_wide {c : Char} (h : 128 ≤ c.toNat) : ∀ b ∈ String.utf8EncodeChar c, IsBare b := by
  have hbare : ∀ n, 128 ≤ n → n < 256 → IsBare (UInt8.ofNat n) := by
    intro n hlow hhigh
    unfold IsBare
    rw [UInt8.toNat_ofNat']
    omega
  intro b hb
  unfold String.utf8EncodeChar at hb
  rw [show c.val.toNat = c.toNat from rfl] at hb
  generalize c.toNat = v at h hb
  dsimp only at hb
  rw [if_neg (by omega)] at hb
  split at hb
  · simp only [List.mem_cons, List.not_mem_nil, or_false] at hb
    rcases hb with rfl | rfl <;> exact hbare _ (by omega) (by omega)
  · split at hb
    · simp only [List.mem_cons, List.not_mem_nil, or_false] at hb
      rcases hb with rfl | rfl | rfl <;> exact hbare _ (by omega) (by omega)
    · simp only [List.mem_cons, List.not_mem_nil, or_false] at hb
      rcases hb with rfl | rfl | rfl | rfl <;> exact hbare _ (by omega) (by omega)

theorem shows_bare (h : d.escape = .off) {c : Char} (hcontrol : ¬ c.toNat < 0x20) (hquote : c ≠ '"')
    (hslash : c ≠ '\\') : Shows limits stack d [c] c := by
  have hbare : ∀ b ∈ String.utf8EncodeChar c, IsBare b := by
    by_cases hascii : c.toNat < 128
    · intro b hb
      rw [encodeChar_of_ascii hascii] at hb
      rw [List.mem_singleton.mp hb]
      unfold IsBare
      rw [toNat_asciiByte hascii]
      have hquote' : c.toNat ≠ '"'.toNat := fun heq => hquote (Char.toNat_inj.mp heq)
      have hslash' : c.toNat ≠ '\\'.toNat := fun heq => hslash (Char.toNat_inj.mp heq)
      exact ⟨Nat.le_of_not_lt hcontrol, hquote', hslash'⟩
    · exact bare_of_wide (Nat.le_of_not_lt hascii)
  intro index
  rw [encodeChars_cons, show encodeChars [] = [] from rfl, List.append_nil]
  exact run_bare hbare h index

theorem shows_char (h : d.escape = .off) (ascii : Bool) (c : Char) :
    Shows limits stack d (charChars ascii c) c := by
  unfold charChars
  repeat' split
  case isFalse.isFalse.isFalse.isFalse.isFalse.isFalse.isFalse.isTrue => exact shows_escape h c
  case isFalse.isFalse.isFalse.isFalse.isFalse.isFalse.isFalse.isFalse =>
    rename_i hquote hslash _ _ _ _ _ hplain
    exact shows_bare h (fun hcontrol => hplain (.inl hcontrol)) hquote hslash
  -- a backslash and a letter
  all_goals
    subst c
    obtain ⟨purpose, start, bytes, escape⟩ := d
    obtain rfl : escape = .off := h
    exact .cons rfl (fun _ => rfl) (.cons rfl (fun _ => rfl) (.refl _))

theorem reaches_chars (h : d.escape = .off) (ascii : Bool) (cs : List Char) :
    Reaches limits ⟨stack, .text d⟩ (cs.flatMap (charChars ascii))
      ⟨stack, .text (d.push (encodeChars cs))⟩ := by
  induction cs generalizing d with
  | nil =>
      rw [show encodeChars [] = [] from rfl, TextDraft.push_nil h]
      exact .refl _
  | cons c rest ih =>
      rw [List.flatMap_cons, encodeChars_cons, ← TextDraft.push_push]
      exact (shows_char h ascii c).append (ih (d.push_escape _))

def closed (stack : List Frame) (s : String) : Purpose → Reader
  | .value => complete stack (.text s)
  | .key done => ⟨stack, .afterKey done s⟩

/-- **A text is read back**: from the opening quote on, up to behind the closing one. -/
theorem reaches_text (ascii : Bool) (s : String) (purpose : Purpose) {r : Reader}
    (hopen : ∀ index, r.step limits index 0x22 =
      .ok ⟨stack, .text ⟨purpose, index + 1, [], .off⟩⟩) :
    r.Reaches limits (textChars ascii s) (closed stack s purpose) := by
  intro index
  have hbody : Reaches limits ⟨stack, .text ⟨purpose, index + 1, [], .off⟩⟩
      (s.toList.flatMap (charChars ascii))
      ⟨stack, .text ⟨purpose, index + 1, (encodeChars s.toList).reverse, .off⟩⟩ := by
    have hchars : Reaches limits ⟨stack, .text ⟨purpose, index + 1, [], .off⟩⟩ _ _ :=
      reaches_chars rfl ascii s.toList
    simpa [TextDraft.push] using hchars
  have hclose : ∀ at', Reader.step limits
      ⟨stack, .text ⟨purpose, index + 1, (encodeChars s.toList).reverse, .off⟩⟩ at' 0x22 =
      .ok (closed stack s purpose) := by
    intro at'
    show closeText stack _ = _
    rw [closeText]
    dsimp only
    rw [List.reverse_reverse, Utf8.decode_encodeChars, String.ofList_toList]
    cases purpose <;> rfl
  have hquote : Reaches limits
      ⟨stack, .text ⟨purpose, index + 1, (encodeChars s.toList).reverse, .off⟩⟩ ['"']
      (closed stack s purpose) := .cons rfl hclose (.refl _)
  show Reader.run limits r index
    (0x22 :: encodeChars (s.toList.flatMap (charChars ascii) ++ ['"'])) = _
  rw [Reader.run, hopen index]
  exact hbody.append hquote (index + 1)

end Texts

/-! ## Values -/

/-- The next value goes into the innermost of these containers. -/
inductive Awaits : Reader → List Frame → Prop where
  | value (stack : List Frame) : Awaits ⟨stack, .value⟩ stack
  | firstItem (stack : List Frame) : Awaits ⟨stack, .firstItem⟩ (.item [] :: stack)
  | nextItem (stack : List Frame) (done : List Json) :
      Awaits ⟨stack, .nextItem done⟩ (.item done :: stack)

theorem Awaits.step {r : Reader} {stack : List Frame} (h : Awaits r stack) {b : UInt8}
    (hspace : isSpace b = false) (hbracket : b ≠ asciiByte ']') (index : Nat) :
    r.step limits index b = beginValue limits stack index b := by
  cases h <;> simp [Reader.step, hspace, hbracket]

/-- The next key is that of the member after these. -/
inductive AwaitsKey : Reader → List Frame → List (String × Json) → Prop where
  | firstKey (stack : List Frame) : AwaitsKey ⟨stack, .firstKey⟩ stack []
  | nextKey (stack : List Frame) (done : List (String × Json)) :
      AwaitsKey ⟨stack, .nextKey done⟩ stack done

section Values

variable {layout : Layout} {level depth : Nat} {stack : List Frame}

/-- Over elements with separators between them. `next` is the state in which the element behind the
given ones is awaited, `after` the one in which the last of them, the first in the list, has been
read. -/
theorem reaches_separated {α : Type} (Ready : List α → Reader → Prop) (next after : List α → Reader)
    {element : α → List Char} {separator : List Char}
    (hnext : ∀ done, Ready done (next done))
    (hseparator : ∀ done, (after done).Reaches limits separator (next done)) {xs : List α}
    (helement : ∀ x ∈ xs, ∀ done r, Ready done r → r.Reaches limits (element x) (after (x :: done)))
    (hne : xs ≠ []) {done : List α} {r : Reader} (hr : Ready done r) :
    r.Reaches limits (separator.intercalate (xs.map element)) (after (xs.reverse ++ done)) := by
  induction xs generalizing r done with
  | nil => exact absurd rfl hne
  | cons x rest ih =>
      obtain ⟨hx, hrest⟩ := List.forall_mem_cons.mp helement
      have hfirst : r.Reaches limits (element x) (after (x :: done)) := hx done r hr
      cases rest with
      | nil =>
          rw [List.map_singleton, List.intercalate_singleton]
          exact hfirst
      | cons y rest =>
          -- behind the separator the others follow as if the first were done before
          have hlast := ih hrest (List.cons_ne_nil y rest) (hnext (x :: done))
          rw [List.map_cons, List.map_cons, List.intercalate_cons_cons, List.reverse_cons,
            List.append_assoc _ [x] done, List.singleton_append]
          exact (hfirst.append (hseparator (x :: done))).append hlast

/-- What is read back as a value, wherever it stands. -/
def ReadsBack (limits : Limits) (depth : Nat) (v : Json) : Prop :=
  ∀ (layout : Layout) (level : Nat) (r : Reader) (stack : List Frame), Awaits r stack →
    stack.length + depth ≤ limits.depth → r.Reaches limits (v.chars layout level) (complete stack v)

theorem itemChars_eq (items : List Json) :
    itemChars layout level items = items.map (chars layout level) := by
  induction items with
  | nil => rfl
  | cons item rest ih => rw [itemChars, ih, List.map_cons]

theorem memberChars_eq (members : List (String × Json)) :
    memberChars layout level members = members.map fun m =>
      textChars layout.ascii m.1 ++ ':' :: ' ' :: m.2.chars layout level := by
  induction members with
  | nil => rfl
  | cons member rest ih => rw [memberChars, ih, List.map_cons]

theorem reaches_separator {before behind : Mode}
    (hcomma : ∀ index, Reader.step limits ⟨stack, before⟩ index 0x2C = .ok ⟨stack, behind⟩)
    (hspace : behind.AllowsSpace) :
    Reaches limits ⟨stack, before⟩ (layout.separator level) ⟨stack, behind⟩ := by
  obtain ⟨gap, hgap, hblank⟩ := separator_eq layout level
  rw [hgap]
  exact .cons rfl hcomma (reaches_space hspace hblank)

theorem reaches_items {items : List Json} (hitems : ∀ item ∈ items, ReadsBack limits depth item)
    (hne : items ≠ []) (hroom : stack.length + (depth + 1) ≤ limits.depth) :
    Reaches limits ⟨stack, .firstItem⟩
      ((layout.separator level).intercalate (itemChars layout level items))
      ⟨stack, .afterItem items.reverse⟩ := by
  rw [itemChars_eq, ← List.append_nil items.reverse]
  refine reaches_separated (fun done r => Awaits r (.item done :: stack))
    (fun done => ⟨stack, .nextItem done⟩) (fun done => ⟨stack, .afterItem done⟩) (.nextItem stack)
    (fun done => ?_) (fun item hitem done r hr => ?_) hne (.firstItem stack)
  · exact reaches_separator (fun _ => rfl) trivial
  · exact hitems item hitem layout level r _ hr (by rw [List.length_cons]; omega)

theorem reaches_members {members : List (String × Json)}
    (hmembers : ∀ member ∈ members, ReadsBack limits depth member.2) (hne : members ≠ [])
    (hroom : stack.length + (depth + 1) ≤ limits.depth) :
    Reaches limits ⟨stack, .firstKey⟩
      ((layout.separator level).intercalate (memberChars layout level members))
      ⟨stack, .afterMember members.reverse⟩ := by
  rw [memberChars_eq, ← List.append_nil members.reverse]
  refine reaches_separated (fun done r => AwaitsKey r stack done)
    (fun done => ⟨stack, .nextKey done⟩) (fun done => ⟨stack, .afterMember done⟩) (.nextKey stack)
    (fun done => ?_) (fun member hmember done r hr => ?_) hne (.firstKey stack)
  · exact reaches_separator (fun _ => rfl) trivial
  · obtain ⟨key, value⟩ := member
    have hkey : r.Reaches limits (textChars layout.ascii key) ⟨stack, .afterKey done key⟩ := by
      refine reaches_text layout.ascii key (.key done) ?_
      cases hr <;> exact fun _ => rfl
    have hcolon : Reaches limits ⟨stack, .afterKey done key⟩ [':', ' ']
        ⟨.member done key :: stack, .value⟩ :=
      .cons rfl (fun _ => rfl) (.cons rfl (fun _ => rfl) (.refl _))
    have hvalue : Reaches limits ⟨.member done key :: stack, .value⟩ (value.chars layout level)
        ⟨stack, .afterMember ((key, value) :: done)⟩ :=
      hmembers _ hmember layout level _ _ (.value _) (by rw [List.length_cons]; omega)
    exact hkey.append (hcolon.append hvalue)

theorem reaches_enclose (start last : Mode) {r : Reader} {v : Json} {opening closing : Char}
    {o c : UInt8} {body : List (List Char)} (ho : String.utf8EncodeChar opening = [o])
    (hc : String.utf8EncodeChar closing = [c])
    (hopen : ∀ index, r.step limits index o = .ok ⟨stack, start⟩)
    (hempty : body = [] →
      ∀ index, Reader.step limits ⟨stack, start⟩ index c = .ok (complete stack v))
    (hbody : body ≠ [] → Reaches limits ⟨stack, start⟩
      ((layout.separator (level + 1)).intercalate body) ⟨stack, last⟩)
    (hstart : start.AllowsSpace) (hlast : last.AllowsSpace)
    (hclose : ∀ index, Reader.step limits ⟨stack, last⟩ index c = .ok (complete stack v)) :
    r.Reaches limits (layout.enclose level opening closing body) (complete stack v) := by
  unfold Layout.enclose
  cases body with
  | nil => exact .cons ho hopen (.cons hc (hempty rfl) (.refl _))
  | cons first rest =>
      rw [List.isEmpty_cons, if_neg Bool.false_ne_true, List.cons_append, List.cons_append,
        List.cons_append]
      refine .cons ho hopen ?_
      have hgap : Reaches limits ⟨stack, start⟩ (layout.lineBreak (level + 1)) ⟨stack, start⟩ :=
        reaches_space hstart (lineBreak_space layout _)
      have hgap' : Reaches limits ⟨stack, last⟩ (layout.lineBreak level) ⟨stack, last⟩ :=
        reaches_space hlast (lineBreak_space layout _)
      exact ((hgap.append (hbody (List.cons_ne_nil _ _))).append hgap').append
        (.cons hc hclose (.refl _))

theorem reaches_word {c : Char} {cs : List Char} (hascii : ∀ x ∈ c :: cs, x.toNat < 128)
    (v : Json) : Reaches limits ⟨stack, word c cs v⟩ (c :: cs) (complete stack v) := by
  induction cs generalizing c with
  | nil =>
      have hc : c.toNat < 128 := hascii c List.mem_cons_self
      exact .cons (encodeChar_of_ascii hc) (fun _ => by simp [Reader.step, word]) (.refl _)
  | cons next rest ih =>
      obtain ⟨hc, hrest⟩ := List.forall_mem_cons.mp hascii
      exact .cons (encodeChar_of_ascii hc) (fun _ => by simp [Reader.step, word]) (ih hrest)

/-- **A value is read back**, by induction on the value. -/
theorem reaches_value {v : Json} (h : v.PlainTo depth) : ReadsBack limits depth v := by
  induction h with
  | null depth =>
      intro layout level r stack hr hroom
      have hbegin : ∀ index, r.step limits index 0x6E = .ok ⟨stack, word 'u' ['l', 'l'] .null⟩ :=
        fun index => (hr.step rfl (by decide) index).trans (if_neg (by omega))
      exact .cons rfl hbegin (reaches_word (by simp) .null)
  | boolean depth value =>
      intro layout level r stack hr hroom
      cases value with
      | true =>
          have hbegin : ∀ index, r.step limits index 0x74 =
              .ok ⟨stack, word 'r' ['u', 'e'] (.boolean true)⟩ :=
            fun index => (hr.step rfl (by decide) index).trans (if_neg (by omega))
          exact .cons rfl hbegin (reaches_word (by simp) (.boolean true))
      | false =>
          have hbegin : ∀ index, r.step limits index 0x66 =
              .ok ⟨stack, word 'a' ['l', 's', 'e'] (.boolean false)⟩ :=
            fun index => (hr.step rfl (by decide) index).trans (if_neg (by omega))
          exact .cons rfl hbegin (reaches_word (by simp) (.boolean false))
  | text depth s =>
      intro layout level r stack hr hroom
      have hbegin : ∀ index, r.step limits index 0x22 =
          .ok ⟨stack, .text ⟨.value, index + 1, [], .off⟩⟩ :=
        fun index => (hr.step rfl (by decide) index).trans (if_neg (by omega))
      exact reaches_text layout.ascii s .value hbegin
  -- the items are read with one more container around them, hence with one less to come
  | @array depth items h ih =>
      intro layout level r stack hr hroom
      have hbegin : ∀ index, r.step limits index 0x5B = .ok ⟨stack, .firstItem⟩ :=
        fun index => (hr.step rfl (by decide) index).trans (if_neg (by omega))
      refine reaches_enclose .firstItem (.afterItem items.reverse) rfl rfl hbegin ?_ ?_ trivial
        trivial ?_
      · intro hempty index
        obtain rfl : items = [] := by simpa [itemChars_eq] using hempty
        rfl
      · intro hne
        exact reaches_items ih (by simpa [itemChars_eq] using hne) hroom
      · intro index
        show Except.ok (complete stack (.array items.reverse.reverse)) = _
        rw [List.reverse_reverse]
  | @object depth members h ih =>
      intro layout level r stack hr hroom
      have hbegin : ∀ index, r.step limits index 0x7B = .ok ⟨stack, .firstKey⟩ :=
        fun index => (hr.step rfl (by decide) index).trans (if_neg (by omega))
      refine reaches_enclose .firstKey (.afterMember members.reverse) rfl rfl hbegin ?_ ?_ trivial
        trivial ?_
      · intro hempty index
        obtain rfl : members = [] := by simpa [memberChars_eq] using hempty
        rfl
      · intro hne
        exact reaches_members ih (by simpa [memberChars_eq] using hne) hroom
      · intro index
        show Except.ok (complete stack (.object members.reverse.reverse)) = _
        rw [List.reverse_reverse]

end Values

/-- **A document is read back** from what is printed of it, in any layout. -/
theorem read_print {depth : Nat} {json : Json} (h : json.PlainTo depth)
    (hroom : depth ≤ limits.depth) (layout : Layout) :
    read? limits (encodeChars (json.chars layout 0)) = .ok json := by
  have hreach : Reader.start.Reaches limits (json.chars layout 0) (complete [] json) :=
    reaches_value h layout 0 Reader.start [] (.value []) (by simpa using hroom)
  rw [read?, hreach 0]
  rfl

end TimetableFeed.Json
