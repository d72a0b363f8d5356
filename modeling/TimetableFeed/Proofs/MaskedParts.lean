import Mathlib.Data.List.TakeWhile
import TimetableFeed.Proofs.QueryText
import TimetableFeed.Proofs.Userinfo

/-!
# What masking keeps

A masked address has the parts of the address, but for its credentials: reading it again gives the
same scheme, path and fragment, the same server, and the same names and values in the same order,
with the mask in the place of each value that is a credential. So masking it again changes nothing.
The parts that are read of an address with an authority are such that their text reads back as
them, and masking keeps them so.

Main definition: `Parts.Legible`. Main statements: `Parts.Legible.ofChars_write`,
`masked_keeps_parts`.
-/

namespace TimetableFeed.Url

/-! ## Parts that read back -/

/-- An address loses nothing of the text. -/
def IsUnbroken (cs : List Char) : Prop := ∀ c, IsBreak c → c ∉ cs

/-- Parts with an authority, each of which ends where the next one begins. -/
structure Parts.Legible (p : Parts) : Prop where
  scheme : p.scheme = [] ∨ IsScheme p.scheme ∧ p.scheme.map Char.toLower = p.scheme
  authority_ne_nil : p.authority ≠ []
  authority : ∀ c ∈ p.authority, isInside c = true
  path_head : ∀ c ∈ p.path.head?, c = '/'
  path : IsFront p.path
  query : '#' ∉ p.query
  unbroken : IsUnbroken (p.authority ++ p.path ++ p.query ++ p.fragment)

/-- A part that may be missing, with its mark in front. -/
def given (cs : List Char) : Option (List Char) := if cs.isEmpty then none else some cs

theorem given_getD (cs : List Char) : (given cs).getD [] = cs := by
  cases cs <;> rfl

theorem behind_given (mark : Char) (cs : List Char) :
    Text.behind mark (given cs) = if cs.isEmpty then [] else mark :: cs := by
  cases cs <;> rfl

/-- The text of parts with an authority. -/
theorem Parts.Legible.write_eq {p : Parts} (h : p.Legible) :
    p.write = (if p.scheme.isEmpty then [] else p.scheme ++ [':']) ++ '/' :: '/' ::
      (p.authority ++ (p.path ++ Text.behind '?' (given p.query) ++
        Text.behind '#' (given p.fragment))) := by
  have hauthority : p.authority.isEmpty = false := by simpa using h.authority_ne_nil
  have hpath : (p.path.isEmpty || p.path.head? == some '/') = true := by
    cases hpath : p.path with
    | nil => rfl
    | cons c rest => simp [h.path_head c (by rw [hpath]; rfl)]
  rw [Parts.write, Parts.hierarchy, hauthority, Bool.not_false, Bool.true_or, if_pos rfl,
    behind_given, behind_given]
  simp only [hpath, if_true, List.append_assoc, List.cons_append]

theorem takeScheme_slash (cs : List Char) : takeScheme ('/' :: cs) = ([], '/' :: cs) := by
  have hslash : isLetter '/' = false := by decide
  unfold takeScheme Text.cut
  rw [List.takeWhile_cons_of_pos (by decide)]
  split
  · rename_i heq
    obtain ⟨rfl, -⟩ := Prod.mk.inj heq
    simp [hslash]
  · rfl

/-- The scheme is read back, and nothing of what follows it is lost. -/
theorem takeScheme_written {scheme rest : List Char}
    (hscheme : scheme = [] ∨ IsScheme scheme ∧ scheme.map Char.toLower = scheme)
    (hrest : IsUnbroken rest) :
    takeScheme (clean ((if scheme.isEmpty then [] else scheme ++ [':']) ++ '/' :: rest)) =
      (scheme, '/' :: rest) := by
  rcases hscheme with rfl | ⟨hscheme, hlower⟩
  · have hclean : clean ('/' :: rest) = '/' :: unbroken rest := rfl
    show takeScheme (clean ('/' :: rest)) = _
    rw [hclean, unbroken_eq_self hrest, takeScheme_slash]
  · have hne : scheme.isEmpty = false := by
      cases scheme with
      | nil => cases hscheme.1
      | cons c scheme => rfl
    have hmarks : unbroken (':' :: '/' :: rest) = ':' :: '/' :: unbroken rest := rfl
    rw [hne, if_neg Bool.false_ne_true, List.append_assoc, clean_scheme hscheme,
      List.singleton_append, hmarks, unbroken_eq_self hrest, takeScheme_of_isScheme hscheme, hlower]

/-- The authority is read back, if what follows it does not belong to one. -/
theorem takeAuthority_written {authority after : List Char}
    (hauthority : ∀ c ∈ authority, isInside c = true)
    (hafter : ∀ c ∈ after.head?, isInside c = false) :
    takeAuthority ('/' :: '/' :: (authority ++ after)) = (authority, after) := by
  show ((authority ++ after).takeWhile isInside, (authority ++ after).dropWhile isInside) = _
  rw [List.takeWhile_append_of_pos hauthority, List.dropWhile_append_of_pos hauthority]
  cases after with
  | nil => simp
  | cons c rest =>
      have hc : isInside c = false := hafter c rfl
      simp [hc]

theorem Parts.Legible.after_authority {p : Parts} (h : p.Legible) :
    ∀ c ∈ (p.path ++ Text.behind '?' (given p.query) ++
      Text.behind '#' (given p.fragment)).head?, isInside c = false := by
  intro c hc
  cases hpath : p.path with
  | cons d rest =>
      have hd : d = '/' := h.path_head d (by rw [hpath]; rfl)
      rw [hpath] at hc
      obtain rfl := Option.some.inj hc
      rw [hd]
      decide
  | nil =>
      rw [hpath, List.nil_append, behind_given, behind_given] at hc
      -- either mark ends an authority
      cases hquery : p.query with
      | cons d rest =>
          rw [hquery] at hc
          obtain rfl := Option.some.inj hc
          decide
      | nil =>
          cases hfragment : p.fragment with
          | cons d rest =>
              rw [hquery, hfragment] at hc
              obtain rfl := Option.some.inj hc
              decide
          | nil =>
              rw [hquery, hfragment] at hc
              cases hc

theorem mem_behind_given {mark c : Char} {cs : List Char}
    (h : c ∈ Text.behind mark (given cs)) : c = mark ∨ c ∈ cs := by
  rw [behind_given] at h
  split at h
  · cases h
  · exact List.mem_cons.mp h

/-- **Legible parts are read back** from their text. -/
theorem Parts.Legible.ofChars_write {p : Parts} (h : p.Legible) : Parts.ofChars p.write = p := by
  have hrest : IsUnbroken ('/' :: (p.authority ++ (p.path ++ Text.behind '?' (given p.query) ++
      Text.behind '#' (given p.fragment)))) := by
    intro c hc hmem
    have hparts := h.unbroken c hc
    have hmarks : c ≠ '/' ∧ c ≠ '?' ∧ c ≠ '#' := by
      rcases hc with rfl | rfl | rfl <;> decide
    simp only [List.mem_append, List.mem_cons, not_or] at hparts hmem
    rcases hmem with hslash | hauthority | (hpath | hquery) | hfragment
    · exact hmarks.1 hslash
    · exact hparts.1.1.1 hauthority
    · exact hparts.1.1.2 hpath
    · exact (mem_behind_given hquery).elim hmarks.2.1 hparts.1.2
    · exact (mem_behind_given hfragment).elim hmarks.2.2 hparts.2
  have hbefore : '#' ∉ p.path ++ Text.behind '?' (given p.query) := by
    intro hmem
    rcases List.mem_append.mp hmem with hpath | hquery
    · exact h.path.2 hpath
    · exact (mem_behind_given hquery).elim (by decide) h.query
  rw [Parts.ofChars, h.write_eq, takeScheme_written h.scheme hrest]
  dsimp only
  rw [takeAuthority_written h.authority h.after_authority]
  dsimp only
  rw [Text.cut_behind hbefore]
  dsimp only
  rw [Text.cut_behind h.path.1]
  simp only [given_getD]

/-! ## What is read is legible -/

theorem toLower_schemeChar : ∀ n < 128, isSchemeChar (Char.ofNat n) = true →
    isSchemeChar (Char.ofNat n).toLower = true ∧
      isLetter (Char.ofNat n).toLower = isLetter (Char.ofNat n) ∧
      (Char.ofNat n).toLower.toLower = (Char.ofNat n).toLower := by
  decide +kernel

theorem toNat_of_isSchemeChar {c : Char} (h : isSchemeChar c = true) : c.toNat < 128 := by
  simp only [isSchemeChar, isLetter, Bool.or_eq_true, Bool.and_eq_true, decide_eq_true_eq,
    beq_iff_eq, Char.le_def, UInt32.le_iff_toNat_le] at h
  show c.val.toNat < 128
  rcases h with ((((⟨-, h⟩ | ⟨-, h⟩) | ⟨-, h⟩) | rfl) | rfl) | rfl
  · exact Nat.lt_of_le_of_lt h (by decide)
  · exact Nat.lt_of_le_of_lt h (by decide)
  · exact Nat.lt_of_le_of_lt h (by decide)
  · decide
  · decide
  · decide

/-- A scheme stays one in lower case, and is in lower case then. -/
theorem IsScheme.lower {scheme : List Char} (h : IsScheme scheme) :
    IsScheme (scheme.map Char.toLower) ∧
      (scheme.map Char.toLower).map Char.toLower = scheme.map Char.toLower := by
  obtain ⟨hletter, hchars⟩ := h
  have hlower : ∀ c ∈ scheme, isSchemeChar c.toLower = true ∧ isLetter c.toLower = isLetter c ∧
      c.toLower.toLower = c.toLower := by
    intro c hc
    have hc : isSchemeChar c = true := List.all_eq_true.mp hchars c hc
    have hsame := toLower_schemeChar c.toNat (toNat_of_isSchemeChar hc)
    rw [Char.ofNat_toNat] at hsame
    exact hsame hc
  refine ⟨⟨?_, ?_⟩, ?_⟩
  · cases scheme with
    | nil => cases hletter
    | cons c rest => exact (hlower c List.mem_cons_self).2.1.trans hletter
  · rw [List.all_map]
    exact List.all_eq_true.mpr fun c hc => (hlower c hc).1
  · rw [List.map_map]
    exact List.map_congr_left fun c hc => (hlower c hc).2.2

theorem takeScheme_spec (cs : List Char) :
    ((takeScheme cs).1 = [] ∨
        IsScheme (takeScheme cs).1 ∧ (takeScheme cs).1.map Char.toLower = (takeScheme cs).1) ∧
      (takeScheme cs).2 <:+ cs := by
  obtain ⟨-, hcut⟩ := Text.cut_spec ':' cs
  unfold takeScheme
  generalize Text.cut ':' cs = c at hcut ⊢
  obtain ⟨scheme, rest?⟩ := c
  cases rest? with
  | none => exact ⟨.inl rfl, List.suffix_refl cs⟩
  | some rest =>
      dsimp only
      split
      · rename_i hgood
        have hscheme : IsScheme scheme := (Bool.and_eq_true _ _).mp hgood
        refine ⟨.inr hscheme.lower, scheme ++ [':'], ?_⟩
        rw [List.append_assoc]
        exact hcut
      · exact ⟨.inl rfl, List.suffix_refl cs⟩

theorem takeAuthority_spec {cs : List Char} (h : (takeAuthority cs).1 ≠ []) :
    (∀ c ∈ (takeAuthority cs).1, isInside c = true) ∧
      (∀ c ∈ (takeAuthority cs).2.head?, isInside c = false) ∧
      (takeAuthority cs).1 ++ (takeAuthority cs).2 <:+ cs := by
  unfold takeAuthority at h ⊢
  split
  · rename_i rest
    show (∀ c ∈ rest.takeWhile isInside, isInside c = true) ∧
      (∀ c ∈ (rest.dropWhile isInside).head?, isInside c = false) ∧
      rest.takeWhile isInside ++ rest.dropWhile isInside <:+ _
    refine ⟨List.all_eq_true.mp List.all_takeWhile, ?_, ?_⟩
    · intro c hc
      have hstop := List.head?_dropWhile_not isInside rest
      rw [Option.mem_def.mp hc] at hstop
      exact hstop
    · rw [List.takeWhile_append_dropWhile]
      exact ⟨['/', '/'], rfl⟩
  · rename_i hslashes
    split at h
    · exact absurd rfl (hslashes _)
    · exact absurd rfl h

theorem not_mem_clean {c : Char} (h : IsBreak c) (cs : List Char) : c ∉ clean cs := by
  intro hmem
  have hkept := of_decide_eq_true (List.mem_filter.mp hmem).2
  rcases h with rfl | rfl | rfl <;> simp at hkept

theorem mem_behind {mark c : Char} {text? : Option (List Char)} (h : c ∈ text?.getD []) :
    c ∈ Text.behind mark text? := by
  cases text? with
  | none => cases h
  | some text => exact List.mem_cons_of_mem mark h

/-- Both sides of a cut are parts of the text. -/
theorem subset_of_cut {mark : Char} {cs front : List Char} {rest? : Option (List Char)}
    (h : front ++ Text.behind mark rest? = cs) : front ⊆ cs ∧ rest?.getD [] ⊆ cs := by
  subst h
  exact ⟨List.subset_append_left _ _, fun c hc => List.mem_append_right _ (mem_behind hc)⟩

theorem Parts.ofChars_eq (cs : List Char) :
    let scheme := takeScheme (clean cs)
    let authority := takeAuthority scheme.2
    let fragment := Text.cut '#' authority.2
    let query := Text.cut '?' fragment.1
    Parts.ofChars cs =
      ⟨scheme.1, authority.1, query.1, query.2.getD [], fragment.2.getD []⟩ :=
  rfl

/-- **What is read of an address with an authority is legible.** -/
theorem Parts.legible_ofChars {cs : List Char} (h : (Parts.ofChars cs).authority ≠ []) :
    (Parts.ofChars cs).Legible := by
  rw [Parts.ofChars_eq] at h ⊢
  dsimp only at h ⊢
  obtain ⟨hscheme, hbehindScheme⟩ := takeScheme_spec (clean cs)
  generalize takeScheme (clean cs) = scheme at h hscheme hbehindScheme ⊢
  obtain ⟨hauthority, hstop, hbehindAuthority⟩ := takeAuthority_spec h
  generalize takeAuthority scheme.2 = authority at h hauthority hstop hbehindAuthority ⊢
  obtain ⟨hhash, hfragment⟩ := Text.cut_spec '#' authority.2
  generalize Text.cut '#' authority.2 = fragment at hhash hfragment ⊢
  obtain ⟨hquestion, hquery⟩ := Text.cut_spec '?' fragment.1
  generalize Text.cut '?' fragment.1 = query at hquestion hquery ⊢
  obtain ⟨hpath, hqueried⟩ := subset_of_cut hquery
  obtain ⟨hbefore, hbehind⟩ := subset_of_cut hfragment
  refine ⟨hscheme, h, hauthority, ?_, ⟨hquestion, fun hc => hhash (hpath hc)⟩,
    fun hc => hhash (hqueried hc), fun c hc hmem => ?_⟩
  · intro c hc
    have hmem : c ∈ query.1 := List.mem_of_mem_head? hc
    have hfirst : c ∈ authority.2.head? := by
      rw [← hfragment, ← hquery, List.append_assoc]
      exact List.mem_head?_append_of_mem_head? hc
    have hnot := hstop c hfirst
    have hne : c ≠ '?' ∧ c ≠ '#' :=
      ⟨fun heq => hquestion (heq ▸ hmem), fun heq => hhash (heq ▸ hpath hmem)⟩
    simpa [isInside, hne] using hnot
  · have hread : c ∈ authority.1 ++ authority.2 := by
      simp only [List.mem_append] at hmem ⊢
      rcases hmem with ((hmem | hmem) | hmem) | hmem
      · exact .inl hmem
      · exact .inr (hbefore (hpath hmem))
      · exact .inr (hbefore (hqueried hmem))
      · exact .inr (hbehind hmem)
    exact not_mem_clean hc cs (hbehindScheme.mem (hbehindAuthority.mem hread))

/-! ## Masked parts -/

theorem maskAuthority_of_not_mem {authority : List Char} (h : '@' ∉ authority) :
    maskAuthority authority = authority := by
  rw [maskAuthority, if_neg]
  simpa using h

theorem afterLast_of_not_mem {mark : Char} {cs : List Char} (h : mark ∉ cs) :
    afterLast mark cs = cs := by
  have hall : ∀ c ∈ cs.reverse, decide (c ≠ mark) = true := by
    intro c hc
    exact decide_eq_true fun heq => h (heq ▸ List.mem_reverse.mp hc)
  rw [afterLast, List.takeWhile_eq_self_iff.mpr hall, List.reverse_reverse]

theorem maskAuthority_of_user (user : List Char) {server : List Char} (h : '@' ∉ server) :
    maskAuthority (user ++ '@' :: server) = mask ++ '@' :: server := by
  rw [maskAuthority_user, afterLast_of_not_mem h]

/-- There is a user in front of the last at sign, if there is one. -/
theorem exists_server {authority : List Char} (h : '@' ∈ authority) :
    ∃ user server, authority = user ++ '@' :: server ∧ '@' ∉ server := by
  obtain ⟨server, user, hsplit, hserver⟩ :=
    List.eq_append_cons_of_mem (List.mem_reverse.mpr h)
  refine ⟨user.reverse, server.reverse, ?_, fun hmem => hserver (List.mem_reverse.mp hmem)⟩
  rw [← List.reverse_reverse authority, hsplit, List.reverse_append, List.reverse_cons,
    List.append_assoc, List.singleton_append]

theorem maskAuthority_masked (authority : List Char) :
    maskAuthority (maskAuthority authority) = maskAuthority authority := by
  by_cases h : '@' ∈ authority
  · obtain ⟨user, server, rfl, hserver⟩ := exists_server h
    rw [maskAuthority_of_user user hserver, maskAuthority_of_user mask hserver]
  · rw [maskAuthority_of_not_mem h, maskAuthority_of_not_mem h]

theorem maskPair_masked (pair : Pair) : maskPair (maskPair pair) = maskPair pair := by
  unfold maskPair
  dsimp only
  split <;> rfl

/-- The names of a masked query are those of the query, and so are the values that are shown. -/
theorem readQuery_masked (query : List Char) :
    readQuery (maskQuery query) = (readQuery query).map maskPair :=
  readQuery_writeQuery _

theorem maskQuery_masked (query : List Char) : maskQuery (maskQuery query) = maskQuery query := by
  have hpairs : ((readQuery query).map maskPair).map maskPair = (readQuery query).map maskPair := by
    rw [List.map_map]
    exact List.map_congr_left fun pair _ => maskPair_masked pair
  show writeQuery ((readQuery (maskQuery query)).map maskPair) = maskQuery query
  rw [readQuery_masked, hpairs]
  rfl

theorem Parts.masked_masked (p : Parts) : p.masked.masked = p.masked := by
  rw [masked_eq p.masked, masked_eq p]
  simp only [maskAuthority_masked, maskQuery_masked]

theorem mem_maskAuthority {authority : List Char} {c : Char} (h : c ∈ maskAuthority authority) :
    c ∈ mask ∨ c ∈ authority := by
  by_cases huser : '@' ∈ authority
  · obtain ⟨user, server, rfl, hserver⟩ := exists_server huser
    rw [maskAuthority_of_user user hserver] at h
    exact (List.mem_append.mp h).imp_right (List.mem_append_right user)
  · rw [maskAuthority_of_not_mem huser] at h
    exact .inr h

theorem maskAuthority_ne_nil {authority : List Char} (h : authority ≠ []) :
    maskAuthority authority ≠ [] := by
  unfold maskAuthority
  split
  · simp
  · exact h

theorem not_mem_maskQuery {c : Char} (h : isUncut c = false) (hequals : c ≠ '=') (hamp : c ≠ '&')
    (query : List Char) : c ∉ maskQuery query :=
  not_mem_writeQuery h hequals hamp _

/-- Masking keeps parts legible. -/
theorem Parts.Legible.masked {p : Parts} (h : p.Legible) : p.masked.Legible := by
  have hmask : ∀ c ∈ mask, (isInside c && !decide (IsBreak c)) = true :=
    List.all_eq_true.mp (by decide)
  simp only [Bool.and_eq_true, Bool.not_eq_true', decide_eq_false_iff_not] at hmask
  have hauthority : ∀ c ∈ maskAuthority p.authority, isInside c = true := by
    intro c hc
    exact (mem_maskAuthority hc).elim (fun hmem => (hmask c hmem).1) (h.authority c)
  have hquery : '#' ∉ maskQuery p.query :=
    not_mem_maskQuery (by decide) (by decide) (by decide) p.query
  have hunbroken : IsUnbroken
      (maskAuthority p.authority ++ p.path ++ maskQuery p.query ++ p.fragment) := by
    intro c hc hmem
    have hparts := h.unbroken c hc
    have hcut : isUncut c = false ∧ c ≠ '=' ∧ c ≠ '&' := by
      rcases hc with rfl | rfl | rfl <;> decide
    simp only [List.mem_append, not_or] at hparts hmem
    rcases hmem with ((hauthority | hpath) | hquery) | hfragment
    · exact (mem_maskAuthority hauthority).elim (fun hmem => (hmask c hmem).2 hc) hparts.1.1.1
    · exact hparts.1.1.2 hpath
    · exact not_mem_maskQuery hcut.1 hcut.2.1 hcut.2.2 p.query hquery
    · exact hparts.2 hfragment
  rw [masked_eq]
  exact ⟨h.scheme, maskAuthority_ne_nil h.authority_ne_nil, hauthority, h.path_head, h.path, hquery,
    hunbroken⟩

/-! ## Checks -/

/-- No bracket stands in front of the last at sign. -/
def HasPlainUser (authority : List Char) : Prop :=
  ∀ user server, authority = user ++ '@' :: server → '@' ∉ server → '[' ∉ user ∧ ']' ∉ user

/-- The last at sign is where the user ends. -/
theorem hasPlainUser_iff {user server : List Char} (h : '@' ∉ server) :
    HasPlainUser (user ++ '@' :: server) ↔ '[' ∉ user ∧ ']' ∉ user := by
  constructor
  · intro huser
    exact huser user server rfl h
  · intro hplain user' server' hsplit hserver'
    have hserver := congrArg (afterLast '@') hsplit
    rw [afterLast_append, afterLast_append, afterLast_of_not_mem h,
      afterLast_of_not_mem hserver'] at hserver
    subst hserver
    rwa [List.append_cancel_right hsplit] at hplain

theorem checkAuthority_ok_iff (authority : List Char) :
    checkAuthority authority = .ok () ↔
      checkBrackets authority = .ok () ∧ authority.any hidesDelimiter = false := by
  unfold checkAuthority checkDelimiters
  cases checkBrackets authority with
  | error e => simp [bind, Except.bind]
  | ok _ => cases authority.any hidesDelimiter <;> simp [bind, Except.bind]

theorem Parts.read_eq (cs : List Char) :
    Parts.read? cs = (checkAuthority (Parts.ofChars cs).authority).map fun _ => Parts.ofChars cs := by
  unfold Parts.read? checkAuthority
  dsimp only
  cases checkBrackets (Parts.ofChars cs).authority with
  | error e => rfl
  | ok _ => cases checkDelimiters (Parts.ofChars cs).authority <;> rfl

/-- What has been read has passed the checks. -/
theorem Parts.of_read {cs : List Char} {p : Parts} (h : Parts.read? cs = .ok p) :
    Parts.ofChars cs = p ∧ checkAuthority p.authority = .ok () := by
  rw [Parts.read_eq] at h
  cases hchecked : checkAuthority (Parts.ofChars cs).authority with
  | error e =>
      rw [hchecked] at h
      cases h
  | ok _ =>
      rw [hchecked] at h
      obtain rfl := Except.ok.inj h
      exact ⟨rfl, hchecked⟩

theorem Parts.Legible.read_write {p : Parts} (h : p.Legible)
    (hchecked : checkAuthority p.authority = .ok ()) : Parts.read? p.write = .ok p := by
  rw [Parts.read_eq, h.ofChars_write, hchecked]
  rfl

/-- A masked authority passes the checks if the authority does. -/
theorem checkAuthority_masked {authority : List Char} (h : checkAuthority authority = .ok ())
    (huser : HasPlainUser authority) : checkAuthority (maskAuthority authority) = .ok () := by
  by_cases hat : '@' ∈ authority
  · obtain ⟨user, server, rfl, hserver⟩ := exists_server hat
    obtain ⟨hbrackets, hhides⟩ := (checkAuthority_ok_iff _).mp h
    obtain ⟨hopen, hclose⟩ := huser user server rfl hserver
    have hharmless : IsHarmless user := by
      intro c hc
      refine ⟨fun heq => hopen (heq ▸ hc), fun heq => hclose (heq ▸ hc), ?_⟩
      simpa using List.any_eq_false.mp hhides c (List.mem_append_left _ hc)
    have hmask : IsHarmless mask := by decide
    rw [maskAuthority_of_user user hserver, checkAuthority_ok_iff, checkBrackets_user hmask,
      any_hides_user hmask, ← checkBrackets_user hharmless, ← any_hides_user hharmless]
    exact ⟨hbrackets, hhides⟩
  · rwa [maskAuthority_of_not_mem hat]

/-! ## Addresses -/

/-- **Masking changes nothing but credentials.** A masked address with an authority is read as the
same scheme, path and fragment, and as the same authority but for what precedes its last at sign;
its query holds the same names and values in the same order, but for the values that are
credentials. Masking it again changes nothing. -/
theorem masked_keeps_parts {url : String} {parts : Parts}
    (hread : Parts.read? url.toList = .ok parts) (hauthority : parts.authority ≠ [])
    (huser : HasPlainUser parts.authority) :
    ∃ shown parts', masked? url = .ok shown ∧ Parts.read? shown.toList = .ok parts' ∧
      parts'.scheme = parts.scheme ∧ parts'.path = parts.path ∧
      parts'.fragment = parts.fragment ∧
      ('@' ∉ parts.authority → parts'.authority = parts.authority) ∧
      (∀ user server, parts.authority = user ++ '@' :: server → '@' ∉ server →
        parts'.authority = "<redacted>@".toList ++ server) ∧
      readQuery parts'.query = (readQuery parts.query).map (fun (name, value) =>
        (name, if isSensitive name then "<redacted>".toList else value)) ∧
      masked? shown = .ok shown := by
  obtain ⟨hparts, hchecked⟩ := Parts.of_read hread
  have hlegible : parts.Legible := by
    subst hparts
    exact Parts.legible_ofChars hauthority
  have hagain : Parts.read? parts.masked.write = .ok parts.masked :=
    hlegible.masked.read_write (checkAuthority_masked hchecked huser)
  refine ⟨String.ofList parts.masked.write, parts.masked, ?_, ?_, rfl, rfl, rfl, ?_, ?_, ?_, ?_⟩
  · rw [masked?, hread]
    rfl
  · rw [String.toList_ofList, hagain]
  · exact maskAuthority_of_not_mem
  · intro user server hsplit hserver
    show maskAuthority parts.authority = _
    rw [hsplit, maskAuthority_of_user user hserver]
    rfl
  · rw [masked_eq]
    exact readQuery_masked parts.query
  · rw [masked?, String.toList_ofList, hagain]
    show Except.ok (String.ofList parts.masked.masked.write) = _
    rw [Parts.masked_masked]

/-- Two at signs in front of an address in brackets; a name in capitals, pairs without a value and
without a name, and a letter beyond ASCII. -/
theorem masked_keeps_parts_brackets :
    let url := "HTTPS://ann:p@ss@[::1]:8443/et?Key=a%3Db&line=\u00e9+1&line&=&key#Top?"
    let shown := "https://<redacted>@[::1]:8443/et?Key=<redacted>&line=%C3%A9+1&line=&=&key=<redacted>#Top?"
    masked? url = .ok shown ∧ masked? shown = .ok shown ∧
      ∃ parts, Parts.read? shown.toList = .ok parts ∧ parts.path = "/et".toList ∧
        parts.authority = "<redacted>@".toList ++ "[::1]:8443".toList ∧
        readQuery parts.query = [("Key".toList, mask), ("line".toList, "\u00e9 1".toList),
          ("line".toList, []), ([], []), ("key".toList, mask)] := by
  intro url shown
  let parts : Parts := ⟨"https".toList, "ann:p@ss@[::1]:8443".toList, "/et".toList,
    "Key=a%3Db&line=\u00e9+1&line&=&key".toList, "Top?".toList⟩
  have hread : Parts.read? url.toList = .ok parts := toOption_eq_some.mp (by decide +kernel)
  have huser : HasPlainUser parts.authority := by
    show HasPlainUser ("ann:p@ss".toList ++ '@' :: "[::1]:8443".toList)
    rw [hasPlainUser_iff (by decide)]
    decide
  obtain ⟨_, parts', hmasked, hagain, -, hpath, -, -, hauthority, hquery, hsame⟩ :=
    masked_keeps_parts hread (by decide) huser
  have hshown : masked? url = .ok shown := toOption_eq_some.mp (by decide +kernel)
  obtain rfl := Except.ok.inj (hmasked.symm.trans hshown)
  have hpairs : (readQuery parts.query).map (fun (name, value) =>
      (name, if isSensitive name then "<redacted>".toList else value)) =
      [("Key".toList, mask), ("line".toList, "\u00e9 1".toList), ("line".toList, []), ([], []),
        ("key".toList, mask)] := by
    decide +kernel
  exact ⟨hshown, hsame, parts', hagain, hpath, hauthority "ann:p@ss".toList _ rfl (by decide),
    hquery.trans hpairs⟩

end TimetableFeed.Url
