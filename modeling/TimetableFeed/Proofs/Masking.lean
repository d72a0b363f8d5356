import Mathlib.Data.List.Forall2
import TimetableFeed.Url.Mask

/-!
# What masking hides

Two addresses that differ in the values of credentials only look the same when they are shown. An
address falls into what precedes its query, the pieces of the query and a fragment. What precedes
the query is read alike whatever follows it, a colon in a value included, and a piece whose name is
that of a credential is shown without its value.

Main definitions: `Url.Alike`. Main statements: `Url.ofChars_front`, `Url.masked_of_alike`.
-/

namespace TimetableFeed

namespace Text

variable {mark : Char}

/-- A mark and a text behind it, or nothing. -/
def behind (mark : Char) (text? : Option (List Char)) : List Char := text?.elim [] (mark :: ·)

theorem takeWhile_append_stop {p : Char → Bool} {c : Char} (hc : p c = false)
    (cs after : List Char) :
    (cs ++ c :: after).takeWhile p = cs.takeWhile p := by
  induction cs with
  | nil => simp [hc]
  | cons d rest ih =>
      cases hd : p d with
      | false => simp [hd]
      | true => simp [hd, ih]

theorem dropWhile_append_stop {p : Char → Bool} {c : Char} (hc : p c = false)
    (cs after : List Char) :
    (cs ++ c :: after).dropWhile p = cs.dropWhile p ++ c :: after := by
  induction cs with
  | nil => simp [hc]
  | cons d rest ih =>
      cases hd : p d with
      | false => simp [hd]
      | true => simp [hd, ih]

theorem cut_behind {before : List Char} (h : mark ∉ before) (text? : Option (List Char)) :
    cut mark (before ++ behind mark text?) = (before, text?) := by
  have hne : ∀ c ∈ before, decide (c ≠ mark) = true := by
    intro c hc
    exact decide_eq_true fun heq => h (heq ▸ hc)
  rw [cut, List.takeWhile_append_of_pos hne, List.dropWhile_append_of_pos hne]
  cases text? <;> simp [behind]

/-- Nothing is lost by a cut, and it is made at the first mark. -/
theorem cut_spec (mark : Char) (cs : List Char) :
    mark ∉ (cut mark cs).1 ∧ (cut mark cs).1 ++ behind mark (cut mark cs).2 = cs := by
  constructor
  · intro hmem
    have hall : (cs.takeWhile (· ≠ mark)).all (· ≠ mark) = true := List.all_takeWhile
    simpa using List.all_eq_true.mp hall mark hmem
  · have hsplit : cs.takeWhile (· ≠ mark) ++ cs.dropWhile (· ≠ mark) = cs :=
      List.takeWhile_append_dropWhile
    conv_rhs => rw [← hsplit]
    unfold cut
    cases hrest : cs.dropWhile (· ≠ mark) with
    | nil => rfl
    | cons c rest =>
        have hc : c = mark := by
          have hne := List.head?_dropWhile_not (· ≠ mark) cs
          rw [hrest] at hne
          simpa using hne
        rw [hc]
        rfl

theorem splitAt_of_not_mem {piece : List Char} (h : mark ∉ piece) :
    splitAt mark piece = [piece] := by
  induction piece with
  | nil => rfl
  | cons c rest ih =>
      have hc : c ≠ mark := (List.ne_of_not_mem_cons h).symm
      rw [splitAt, if_neg hc, ih (List.not_mem_of_not_mem_cons h)]

theorem splitAt_append {piece : List Char} (h : mark ∉ piece) (rest : List Char) :
    splitAt mark (piece ++ mark :: rest) = piece :: splitAt mark rest := by
  induction piece with
  | nil => simp [splitAt]
  | cons c piece ih =>
      have hc : c ≠ mark := (List.ne_of_not_mem_cons h).symm
      rw [List.cons_append, splitAt, if_neg hc, ih (List.not_mem_of_not_mem_cons h)]

theorem splitAt_intercalate {pieces : List (List Char)} (h : ∀ piece ∈ pieces, mark ∉ piece)
    (hne : pieces ≠ []) : splitAt mark ([mark].intercalate pieces) = pieces := by
  induction pieces with
  | nil => exact absurd rfl hne
  | cons piece rest ih =>
      obtain ⟨hpiece, hrest⟩ := List.forall_mem_cons.mp h
      cases rest with
      | nil => rw [List.intercalate_singleton, splitAt_of_not_mem hpiece]
      | cons next rest =>
          rw [List.intercalate_cons_cons, List.append_assoc, List.singleton_append,
            splitAt_append hpiece, ih hrest (List.cons_ne_nil _ _)]

end Text

namespace Url

/-! ## Names of credentials -/

/-- The text without the characters that an address loses wherever they stand. -/
def unbroken (cs : List Char) : List Char := cs.filter fun c => c ≠ '\t' ∧ c ≠ '\n' ∧ c ≠ '\r'

def IsBreak (c : Char) : Prop := c = '\t' ∨ c = '\n' ∨ c = '\r'

instance (c : Char) : Decidable (IsBreak c) := inferInstanceAs (Decidable (_ ∨ _ ∨ _))

/-- The values with this name are credentials, be the name taken as it stands in the address or
without the characters that the address loses. -/
def IsSecret (name : List Char) : Prop :=
  isSensitive (unescape name) = true ∨ isSensitive (unescape (unbroken name)) = true

theorem unbroken_eq_self {cs : List Char} (h : ∀ c, IsBreak c → c ∉ cs) : unbroken cs = cs := by
  refine List.filter_eq_self.mpr fun c hc => decide_eq_true ?_
  have hbreak : ¬ IsBreak c := fun hbreak => h c hbreak hc
  unfold IsBreak at hbreak
  tauto

theorem mem_unbroken {c : Char} {cs : List Char} (h : c ∈ unbroken cs) : c ∈ cs :=
  List.mem_of_mem_filter h

theorem unbroken_append (xs ys : List Char) : unbroken (xs ++ ys) = unbroken xs ++ unbroken ys :=
  List.filter_append ..

theorem unbroken_behind {mark : Char} (h : ¬ IsBreak mark) (text? : Option (List Char)) :
    unbroken (Text.behind mark text?) = Text.behind mark (text?.map unbroken) := by
  cases text? with
  | none => rfl
  | some text =>
      refine List.filter_cons_of_pos (decide_eq_true ?_)
      unfold IsBreak at h
      tauto

/-- A character of ASCII that escapes do not use stands for itself. -/
theorem mem_units {c : Char} (hascii : c.toNat < 0x80) (hpercent : c ≠ '%')
    (hdigit : Text.hexValue? c.toNat = none) {cs : List Char} (h : c ∈ cs) :
    .inl (UInt8.ofNat c.toNat) ∈ units cs := by
  induction cs using units.induct with
  | case1 a b rest n hn ih =>
      rw [units, hn]
      -- the digits of an escape are other characters
      have ha : c ≠ a := by
        rintro rfl
        simp [Text.hexNumber?, hdigit] at hn
      have hb : c ≠ b := by
        rintro rfl
        cases hvalue : Text.hexValue? a.toNat <;>
          simp [Text.hexNumber?, hdigit, hvalue] at hn
      simp only [List.mem_cons, hpercent, ha, hb, false_or] at h
      exact List.mem_cons_of_mem _ (ih h)
  | case2 a b rest hn ih =>
      rw [units, hn]
      exact List.mem_cons_of_mem _ (ih ((List.mem_cons.mp h).resolve_left hpercent))
  | case3 d rest hd ih =>
      rw [units.eq_2 _ _ hd]
      rcases List.mem_cons.mp h with rfl | h
      · rw [if_pos hascii]
        exact List.mem_cons_self
      · exact List.mem_cons_of_mem _ (ih h)
  | case4 => cases h

/-- An unfinished character takes no byte of ASCII. -/
def TakesNoAscii (state : Option Utf8.Partial) : Prop := ∀ p ∈ state, 0x80 ≤ p.low

theorem low_of_lead {b : UInt8} {p : Utf8.Partial} (h : Utf8.lead b = .opens p) : 0x80 ≤ p.low := by
  unfold Utf8.lead at h
  dsimp only at h
  repeat' split at h
  all_goals cases h <;> exact Nat.le_of_ble_eq_true rfl

theorem takesNoAscii_fresh (b : UInt8) : TakesNoAscii (Utf8.fresh b).2 := by
  intro p hp
  unfold Utf8.fresh at hp
  split at hp
  · cases hp
  · rename_i hlead
    obtain rfl := Option.some.inj hp
    exact low_of_lead hlead
  · cases hp

theorem takesNoAscii_step {state : Option Utf8.Partial} (b : UInt8) :
    TakesNoAscii (Utf8.step state b).2 := by
  cases state with
  | none => exact takesNoAscii_fresh b
  | some p =>
      rw [Utf8.step]
      split
      · intro q hq
        unfold Utf8.Partial.extend at hq
        dsimp only at hq
        by_cases howed : p.owed ≤ 1
        · rw [if_pos howed] at hq
          cases hq
        · rw [if_neg howed] at hq
          obtain rfl := Option.some.inj hq
          exact Nat.le_refl _
      · exact takesNoAscii_fresh b

theorem mem_step {state : Option Utf8.Partial} (hstate : TakesNoAscii state) {c : Char}
    (hascii : c.toNat < 0x80) : some c ∈ (Utf8.step state (UInt8.ofNat c.toNat)).1 := by
  have hbyte : (UInt8.ofNat c.toNat).toNat = c.toNat := by
    rw [UInt8.toNat_ofNat']
    omega
  have hfresh : (Utf8.fresh (UInt8.ofNat c.toNat)).1 = [some c] := by
    rw [Utf8.fresh, Utf8.lead]
    simp [hbyte, hascii, Char.ofNat_toNat]
  cases state with
  | none =>
      rw [Utf8.step, hfresh]
      exact List.mem_singleton_self _
  | some p =>
      have hlow := hstate p rfl
      have hadmits : p.admits (UInt8.ofNat c.toNat) = false := by
        rw [Utf8.Partial.admits, hbyte, Bool.and_eq_false_iff]
        exact .inl (decide_eq_false (by omega))
      simp [Utf8.step, hadmits, hfresh]

theorem mem_unitPieces {c : Char} (hascii : c.toNat < 0x80) :
    ∀ {us : List (UInt8 ⊕ Char)} {state : Option Utf8.Partial}, TakesNoAscii state →
      .inl (UInt8.ofNat c.toNat) ∈ us → some c ∈ unitPieces state us
  | [], _, _, h => nomatch h
  | .inl b :: rest, state, hstate, h => by
      have hsplit : unitPieces state (.inl b :: rest) =
          (Utf8.step state b).1 ++ unitPieces (Utf8.step state b).2 rest := by
        cases state <;> rfl
      rw [hsplit]
      rcases List.mem_cons.mp h with heq | h
      · obtain rfl := Sum.inl.inj heq
        exact List.mem_append_left _ (mem_step hstate hascii)
      · exact List.mem_append_right _ (mem_unitPieces hascii (takesNoAscii_step b) h)
  | .inr d :: rest, state, hstate, h => by
      have hrest : some c ∈ unitPieces none rest :=
        mem_unitPieces hascii (fun p hp => nomatch hp)
          ((List.mem_cons.mp h).resolve_left (fun heq => nomatch heq))
      cases state with
      | none => exact List.mem_cons_of_mem _ hrest
      | some p => exact List.mem_cons_of_mem _ (List.mem_cons_of_mem _ hrest)

/-- The name of a credential holds none of the characters that an address loses. -/
theorem not_mem_of_isSensitive {name : List Char} (h : isSensitive (unescape name) = true)
    {c : Char} (hc : IsBreak c) : c ∉ name := by
  intro hmem
  have hshown : c ∈ unescape name := by
    have hspaced : c ∈ name.map fun c => if c = '+' then ' ' else c :=
      List.mem_map.mpr ⟨c, hmem, by rcases hc with rfl | rfl | rfl <;> rfl⟩
    refine List.mem_map.mpr ⟨some c, mem_unitPieces ?_ (fun p hp => nomatch hp)
      (mem_units ?_ ?_ ?_ hspaced), rfl⟩ <;> rcases hc with rfl | rfl | rfl <;> decide
  have hlower : c ∈ (unescape name).map lowerChar :=
    List.mem_map.mpr ⟨c, hshown, by rcases hc with rfl | rfl | rfl <;> decide⟩
  have hplain : ∀ s ∈ sensitiveNames, '\t' ∉ s.toList ∧ '\n' ∉ s.toList ∧ '\r' ∉ s.toList := by
    decide
  have hname := hplain _ (List.contains_iff_mem.mp h)
  rw [String.toList_ofList] at hname
  rcases hc with rfl | rfl | rfl
  · exact hname.1 hlower
  · exact hname.2.1 hlower
  · exact hname.2.2 hlower

theorem IsSecret.unbroken {name : List Char} (h : IsSecret name) :
    isSensitive (unescape (unbroken name)) = true := by
  rcases h with h | h
  · rwa [unbroken_eq_self fun c hc => not_mem_of_isSensitive h hc]
  · exact h

/-! ## Pieces of a query -/

/-- A piece of a query: a name, and an equals sign and a value unless there is none. -/
def pieceOf (name : List Char) (value? : Option (List Char)) : List Char :=
  name ++ Text.behind '=' value?

/-- The text ends neither a piece of a query nor the query. -/
def StaysInside (cs : List Char) : Prop := '&' ∉ cs ∧ '#' ∉ cs

instance (cs : List Char) : Decidable (StaysInside cs) := inferInstanceAs (Decidable (_ ∧ _))

/-- Two pieces of a query are the same but for the value of a credential; there may be a value in
the one and none in the other. -/
inductive PieceAlike : List Char → List Char → Prop where
  | same {piece : List Char} (h : StaysInside piece) : PieceAlike piece piece
  | secret {name : List Char} {value? value'? : Option (List Char)} (hname : StaysInside name)
      (hcut : '=' ∉ name) (hsecret : IsSecret name) (hvalue : ∀ v ∈ value?, StaysInside v)
      (hvalue' : ∀ v ∈ value'?, StaysInside v) :
      PieceAlike (pieceOf name value?) (pieceOf name value'?)

def shownPair? (piece : List Char) : Option Pair :=
  if piece.isEmpty then none else some (maskPair (readPair piece))

theorem StaysInside.unbroken {cs : List Char} (h : StaysInside cs) : StaysInside (unbroken cs) :=
  ⟨fun hmem => h.1 (mem_unbroken hmem), fun hmem => h.2 (mem_unbroken hmem)⟩

theorem StaysInside.pieceOf {name : List Char} (hname : StaysInside name)
    {value? : Option (List Char)} (hvalue : ∀ v ∈ value?, StaysInside v) :
    StaysInside (pieceOf name value?) := by
  cases value? with
  | none => simpa [Url.pieceOf, Text.behind] using hname
  | some v =>
      obtain ⟨hamp, hhash⟩ := hvalue v rfl
      simp [Url.pieceOf, Text.behind, StaysInside, hname.1, hname.2, hamp, hhash]

theorem PieceAlike.staysInside {piece piece' : List Char} (h : PieceAlike piece piece') :
    StaysInside piece ∧ StaysInside piece' := by
  cases h with
  | same h => exact ⟨h, h⟩
  | secret hname _ _ hvalue hvalue' => exact ⟨hname.pieceOf hvalue, hname.pieceOf hvalue'⟩

theorem shownPair_secret {name : List Char} (hcut : '=' ∉ name) (hsecret : IsSecret name)
    (value? : Option (List Char)) :
    shownPair? (unbroken (pieceOf name value?)) = some (unescape (unbroken name), mask) := by
  have hpiece : unbroken (pieceOf name value?) =
      unbroken name ++ Text.behind '=' (value?.map unbroken) := by
    rw [pieceOf, unbroken_append, unbroken_behind (by decide)]
  have hname : unbroken name ≠ [] := by
    intro hempty
    have hsensitive := hsecret.unbroken
    rw [hempty] at hsensitive
    cases hsensitive
  have hne : (unbroken (pieceOf name value?)).isEmpty = false := by
    simp [hpiece, hname]
  rw [shownPair?, hne, if_neg Bool.false_ne_true, hpiece, readPair,
    Text.cut_behind fun hmem => hcut (mem_unbroken hmem)]
  simp only [maskPair, hsecret.unbroken, if_true]

theorem shownPair_alike {piece piece' : List Char} (h : PieceAlike piece piece') :
    shownPair? (unbroken piece) = shownPair? (unbroken piece') := by
  cases h with
  | same h => rfl
  | secret hname hcut hsecret hvalue hvalue' =>
      rw [shownPair_secret hcut hsecret, shownPair_secret hcut hsecret]

theorem maskQuery_intercalate {pieces : List (List Char)} (h : ∀ piece ∈ pieces, '&' ∉ piece) :
    maskQuery (['&'].intercalate pieces) = writeQuery (pieces.filterMap shownPair?) := by
  have hpairs : ∀ ps : List (List Char),
      ((ps.filter fun piece => !piece.isEmpty).map readPair).map maskPair =
        ps.filterMap shownPair? := by
    intro ps
    rw [List.map_map, ← List.filterMap_eq_map, List.filterMap_filter]
    refine List.filterMap_congr fun piece _ => ?_
    cases piece <;> rfl
  rw [maskQuery, readQuery, hpairs]
  by_cases hne : pieces = []
  · subst hne
    rfl
  · rw [Text.splitAt_intercalate h hne]

theorem unbroken_intercalate (pieces : List (List Char)) :
    unbroken (['&'].intercalate pieces) = ['&'].intercalate (pieces.map unbroken) := by
  induction pieces with
  | nil => rfl
  | cons piece rest ih =>
      cases rest with
      | nil => simp
      | cons next rest =>
          rw [List.intercalate_cons_cons, unbroken_append, unbroken_append, ih, List.map_cons,
            List.map_cons, List.map_cons, List.intercalate_cons_cons]
          rfl

theorem staysInside_alike {pieces pieces' : List (List Char)}
    (h : List.Forall₂ PieceAlike pieces pieces') :
    (∀ piece ∈ pieces, StaysInside piece) ∧ ∀ piece ∈ pieces', StaysInside piece := by
  induction h with
  | nil => simp
  | cons hpiece _ ih =>
      obtain ⟨hleft, hright⟩ := hpiece.staysInside
      exact ⟨List.forall_mem_cons.mpr ⟨hleft, ih.1⟩, List.forall_mem_cons.mpr ⟨hright, ih.2⟩⟩

theorem shownPairs_alike {pieces pieces' : List (List Char)}
    (h : List.Forall₂ PieceAlike pieces pieces') :
    (pieces.map unbroken).filterMap shownPair? = (pieces'.map unbroken).filterMap shownPair? := by
  induction h with
  | nil => rfl
  | cons hpiece _ ih =>
      simp only [List.map_cons, List.filterMap_cons, shownPair_alike hpiece, ih]

theorem maskQuery_alike {pieces pieces' : List (List Char)}
    (h : List.Forall₂ PieceAlike pieces pieces') :
    maskQuery (unbroken (['&'].intercalate pieces)) =
      maskQuery (unbroken (['&'].intercalate pieces')) := by
  obtain ⟨hleft, hright⟩ := staysInside_alike h
  have hamp : ∀ ps : List (List Char), (∀ piece ∈ ps, StaysInside piece) →
      ∀ piece ∈ ps.map unbroken, '&' ∉ piece := by
    intro ps hps piece hpiece
    obtain ⟨piece, hmem, rfl⟩ := List.mem_map.mp hpiece
    exact (hps piece hmem).unbroken.1
  rw [unbroken_intercalate, unbroken_intercalate, maskQuery_intercalate (hamp _ hleft),
    maskQuery_intercalate (hamp _ hright), shownPairs_alike h]

/-! ## What precedes the query -/

theorem clean_front {front : List Char} (after : List Char) :
    clean (front ++ '?' :: after) = clean front ++ '?' :: unbroken after := by
  have hdrop : (front ++ '?' :: after).dropWhile (fun c => c.toNat ≤ 0x20) =
      front.dropWhile (fun c => c.toNat ≤ 0x20) ++ '?' :: after :=
    Text.dropWhile_append_stop (by decide) front after
  rw [clean, hdrop]
  exact unbroken_append _ _

theorem mem_clean {c : Char} {cs : List Char} (h : c ∈ clean cs) : c ∈ cs :=
  List.dropWhile_sublist _ |>.mem (List.mem_of_mem_filter h)

/-- Neither a query nor a fragment begins in the text. -/
def IsFront (cs : List Char) : Prop := '?' ∉ cs ∧ '#' ∉ cs

instance (cs : List Char) : Decidable (IsFront cs) := inferInstanceAs (Decidable (_ ∧ _))

/-- Whatever the query holds, the scheme is the same: a colon in the query ends none. -/
theorem takeScheme_front {front : List Char} (h : IsFront front) :
    ∃ scheme rest, IsFront rest ∧
      ∀ after, takeScheme (front ++ '?' :: after) = (scheme, rest ++ '?' :: after) := by
  by_cases hcolon : ':' ∈ front
  · obtain ⟨scheme, rest, rfl, hscheme⟩ := List.eq_append_cons_of_mem hcolon
    have hrest : IsFront rest :=
      ⟨fun hmem => h.1 (by simp [hmem]), fun hmem => h.2 (by simp [hmem])⟩
    have hcut : ∀ after, Text.cut ':' (scheme ++ ':' :: rest ++ '?' :: after) =
        (scheme, some (rest ++ '?' :: after)) := by
      intro after
      rw [List.append_assoc]
      exact Text.cut_behind hscheme (some (rest ++ '?' :: after))
    -- a scheme or not, all of it stands before the query
    cases hgood : scheme.head?.any isLetter && scheme.all isSchemeChar with
    | true => exact ⟨scheme.map Char.toLower, rest, hrest, fun after => by
        simp only [takeScheme, hcut, hgood, if_true]⟩
    | false => exact ⟨[], scheme ++ ':' :: rest, h, fun after => by
        simp only [takeScheme, hcut, hgood, Bool.false_eq_true, if_false]⟩
  · refine ⟨[], front, h, fun after => ?_⟩
    -- what precedes a colon in the query holds the question mark
    have hbad : ((front ++ '?' :: after).takeWhile (· ≠ ':')).all isSchemeChar = false := by
      have hfront : ∀ c ∈ front, decide (c ≠ ':') = true := by
        intro c hc
        exact decide_eq_true fun heq => hcolon (heq ▸ hc)
      rw [List.takeWhile_append_of_pos hfront, List.takeWhile_cons_of_pos (by decide)]
      have hmark : isSchemeChar '?' = false := by decide
      simp [hmark]
    rw [takeScheme, Text.cut]
    split
    · rename_i heq
      obtain ⟨rfl, -⟩ := Prod.mk.inj heq
      rw [hbad, Bool.and_false, if_neg Bool.false_ne_true]
    · rfl

/-- Whatever the query holds, the authority is the same. -/
theorem takeAuthority_front {front : List Char} (h : IsFront front) :
    ∃ authority path, IsFront path ∧
      ∀ after, takeAuthority (front ++ '?' :: after) = (authority, path ++ '?' :: after) := by
  by_cases hslashes : ∃ rest, front = '/' :: '/' :: rest
  · obtain ⟨rest, rfl⟩ := hslashes
    let inside : Char → Bool := fun c => c != '/' && c != '?' && c != '#'
    have hstop : inside '?' = false := by decide
    have hmem : ∀ c, c ∈ rest.dropWhile inside → c ∈ '/' :: '/' :: rest := by
      intro c hc
      have hrest : c ∈ rest := (List.dropWhile_sublist inside).mem hc
      simp [hrest]
    refine ⟨rest.takeWhile inside, rest.dropWhile inside,
      ⟨fun hc => h.1 (hmem _ hc), fun hc => h.2 (hmem _ hc)⟩, fun after => ?_⟩
    show ((rest ++ '?' :: after).takeWhile inside, (rest ++ '?' :: after).dropWhile inside) = _
    rw [Text.takeWhile_append_stop hstop, Text.dropWhile_append_stop hstop]
  · refine ⟨[], front, h, fun after => ?_⟩
    unfold takeAuthority
    split
    · rename_i rest heq
      cases front with
      | nil => cases heq
      | cons c front =>
          cases front with
          | nil => cases heq
          | cons d front =>
              cases heq
              exact absurd ⟨front, rfl⟩ hslashes
    · rfl

/-- What precedes the query decides all parts but the query and the fragment. -/
theorem ofChars_front {front : List Char} (h : IsFront front) :
    ∃ scheme authority path, ∀ query fragment?, '#' ∉ query →
      Parts.ofChars (front ++ '?' :: query ++ Text.behind '#' fragment?) =
        ⟨scheme, authority, path, unbroken query, (fragment?.map unbroken).getD []⟩ := by
  have hclean : IsFront (clean front) :=
    ⟨fun hc => h.1 (mem_clean hc), fun hc => h.2 (mem_clean hc)⟩
  obtain ⟨scheme, rest, hrest, hscheme⟩ := takeScheme_front hclean
  obtain ⟨authority, path, hpath, hauthority⟩ := takeAuthority_front hrest
  refine ⟨scheme, authority, path, fun query fragment? hquery => ?_⟩
  have hbefore : '#' ∉ path ++ '?' :: unbroken query := by
    simp only [List.mem_append, List.mem_cons, not_or]
    exact ⟨hpath.2, by decide, fun hmem => hquery (mem_unbroken hmem)⟩
  have hfragment := Text.cut_behind hbefore (fragment?.map unbroken)
  have hsplit := Text.cut_behind hpath.1 (some (unbroken query))
  rw [List.append_assoc, List.cons_append] at hfragment
  simp only [Text.behind, Option.elim_some] at hsplit
  rw [Parts.ofChars, List.append_assoc, List.cons_append, clean_front, unbroken_append,
    unbroken_behind (by decide)]
  simp only [hscheme, hauthority, hfragment, hsplit, Option.getD_some]

/-! ## Addresses -/

/-- An address with the given pieces in its query, and perhaps a fragment. -/
def withQuery (front : List Char) (pieces : List (List Char)) (fragment? : Option (List Char)) :
    String :=
  String.ofList (front ++ '?' :: ['&'].intercalate pieces ++ Text.behind '#' fragment?)

/-- Two addresses are the same but for the values of credentials in the query. -/
inductive Alike : String → String → Prop where
  | same (url : String) : Alike url url
  | secrets {front : List Char} {pieces pieces' : List (List Char)} (hfront : IsFront front)
      (hpieces : List.Forall₂ PieceAlike pieces pieces') (fragment? : Option (List Char)) :
      Alike (withQuery front pieces fragment?) (withQuery front pieces' fragment?)

theorem not_mem_intercalate {pieces : List (List Char)} (h : ∀ piece ∈ pieces, StaysInside piece) :
    '#' ∉ ['&'].intercalate pieces := by
  induction pieces with
  | nil => simp
  | cons piece rest ih =>
      obtain ⟨hpiece, hrest⟩ := List.forall_mem_cons.mp h
      cases rest with
      | nil => simpa using hpiece.2
      | cons next rest =>
          rw [List.intercalate_cons_cons]
          simp only [List.mem_append, List.mem_singleton, not_or]
          exact ⟨⟨hpiece.2, by decide⟩, ih hrest⟩

theorem masked_eq (p : Parts) :
    p.masked = { p with authority := maskAuthority p.authority, query := maskQuery p.query } := by
  have hquery : (if p.query.isEmpty then [] else maskQuery p.query) = maskQuery p.query := by
    cases p.query with
    | nil => rfl
    | cons c rest => rfl
  rw [Parts.masked, hquery]

/-- **Masking hides all of a credential**: addresses that differ in nothing else are shown alike, or
are refused with the same error. -/
theorem masked_of_alike {url url' : String} (h : Alike url url') : masked? url = masked? url' := by
  cases h with
  | same => rfl
  | secrets hfront hpieces fragment? =>
      obtain ⟨hleft, hright⟩ := staysInside_alike hpieces
      obtain ⟨scheme, authority, path, hparts⟩ := ofChars_front hfront
      unfold masked? withQuery Parts.read?
      rw [String.toList_ofList, String.toList_ofList, hparts _ _ (not_mem_intercalate hleft),
        hparts _ _ (not_mem_intercalate hright)]
      dsimp only
      cases checkBrackets authority with
      | error e => rfl
      | ok _ =>
          cases checkDelimiters authority with
          | error e => rfl
          | ok _ =>
              refine congrArg (fun p => Except.ok (String.ofList (Parts.write p))) ?_
              rw [masked_eq, masked_eq, maskQuery_alike hpieces]

end Url

end TimetableFeed
