import TimetableFeed.Proofs.Secrecy

/-!
# User names and passwords

What stands in front of the at sign of an address is masked, but only after the whole authority has
been checked. So it remains hidden only as far as the checks pass over it: a bracket in a password
makes them fail, and a compatibility character that hides a delimiter makes them quote the authority
in full. The second may also stand behind the at sign.

Main definitions: `Url.withUser`, `Url.IsHarmless`, `Url.KeepsQuiet`. Main statement:
`Url.userinfo_hidden_iff`.
-/

namespace TimetableFeed

namespace Url

/-! ## Addresses with a user -/

/-- The text is the scheme of an address. -/
def IsScheme (cs : List Char) : Prop := cs.head?.any isLetter = true ∧ cs.all isSchemeChar = true

instance (cs : List Char) : Decidable (IsScheme cs) := inferInstanceAs (Decidable (_ ∧ _))

/-- The text may stand in front of an at sign, as user name and password. -/
def IsUserinfo (cs : List Char) : Prop := ∀ c ∈ cs, c ≠ '/' ∧ c ≠ '?' ∧ c ≠ '#' ∧ c ≠ '@'

instance (cs : List Char) : Decidable (IsUserinfo cs) := List.decidableBAll _ cs

/-- An address with the given text in front of an at sign. -/
def withUser (scheme user rest : List Char) : String :=
  String.ofList (scheme ++ ':' :: '/' :: '/' :: (user ++ '@' :: rest))

/-- The character belongs to the authority. -/
def isInside (c : Char) : Bool := c != '/' && c != '?' && c != '#'

def serverOf (rest : List Char) : List Char := (unbroken rest).takeWhile isInside

theorem toNat_of_isLetter {c : Char} (h : isLetter c = true) : 0x41 ≤ c.toNat := by
  simp only [isLetter, Bool.or_eq_true, Bool.and_eq_true, decide_eq_true_eq, Char.le_def,
    UInt32.le_iff_toNat_le] at h
  rcases h with ⟨hlow, -⟩ | ⟨hlow, -⟩
  · exact Nat.le_trans (by decide) hlow
  · exact hlow

/-- Nothing of a scheme is lost, and nothing in front of it. -/
theorem clean_scheme {scheme : List Char} (h : IsScheme scheme) (rest : List Char) :
    clean (scheme ++ rest) = scheme ++ unbroken rest := by
  obtain ⟨hletter, hchars⟩ := h
  have hdrop : (scheme ++ rest).dropWhile (fun c => c.toNat ≤ 0x20) = scheme ++ rest := by
    cases scheme with
    | nil => cases hletter
    | cons c scheme =>
        have hc : 0x41 ≤ c.toNat := toNat_of_isLetter hletter
        exact List.dropWhile_cons_of_neg (by simp only [decide_eq_true_eq]; omega)
  have hscheme : unbroken scheme = scheme := by
    refine unbroken_eq_self fun c hc hmem => ?_
    have hchar : isSchemeChar c = true := List.all_eq_true.mp hchars c hmem
    rcases hc with rfl | rfl | rfl <;> cases hchar
  rw [clean, hdrop]
  show unbroken (scheme ++ rest) = _
  rw [unbroken_append, hscheme]

theorem takeScheme_of_isScheme {scheme : List Char} (h : IsScheme scheme) (rest : List Char) :
    takeScheme (scheme ++ ':' :: rest) = (scheme.map Char.toLower, rest) := by
  have hcolon : ':' ∉ scheme := by
    intro hmem
    have hchar : isSchemeChar ':' = true := List.all_eq_true.mp h.2 ':' hmem
    cases hchar
  have hcut : Text.cut ':' (scheme ++ ':' :: rest) = (scheme, some rest) :=
    Text.cut_behind hcolon (some rest)
  rw [takeScheme, hcut]
  simp only [h.1, h.2, Bool.and_self, if_true]

theorem IsUserinfo.unbroken {user : List Char} (h : IsUserinfo user) :
    IsUserinfo (unbroken user) := by
  intro c hc
  exact h c (mem_unbroken hc)

/-- The authority holds the user, the at sign and what belongs to it behind that. -/
theorem takeAuthority_user {user : List Char} (h : IsUserinfo user) (rest : List Char) :
    takeAuthority ('/' :: '/' :: (user ++ '@' :: rest)) =
      (user ++ '@' :: rest.takeWhile isInside, rest.dropWhile isInside) := by
  have huser : ∀ c ∈ user, isInside c = true := by
    intro c hc
    obtain ⟨hslash, hquestion, hhash, -⟩ := h c hc
    simp [isInside, hslash, hquestion, hhash]
  have hat : isInside '@' = true := by decide
  show ((user ++ '@' :: rest).takeWhile isInside, (user ++ '@' :: rest).dropWhile isInside) = _
  rw [List.takeWhile_append_of_pos huser, List.dropWhile_append_of_pos huser,
    List.takeWhile_cons_of_pos hat, List.dropWhile_cons_of_pos hat]

/-- The user decides on the authority only. -/
theorem ofChars_user {scheme : List Char} (hscheme : IsScheme scheme) (rest : List Char) :
    ∃ scheme' path query fragment, ∀ user, IsUserinfo user →
      Parts.ofChars (scheme ++ ':' :: '/' :: '/' :: (user ++ '@' :: rest)) =
        ⟨scheme', unbroken user ++ '@' :: serverOf rest, path, query, fragment⟩ := by
  let behind := Text.cut '#' ((unbroken rest).dropWhile isInside)
  refine ⟨scheme.map Char.toLower, (Text.cut '?' behind.1).1, (Text.cut '?' behind.1).2.getD [],
    behind.2.getD [], fun user huser => ?_⟩
  have hmarks : unbroken (':' :: '/' :: '/' :: (user ++ '@' :: rest)) =
      ':' :: '/' :: '/' :: unbroken (user ++ '@' :: rest) := rfl
  have hat : unbroken ('@' :: rest) = '@' :: unbroken rest := rfl
  rw [Parts.ofChars, clean_scheme hscheme, hmarks, unbroken_append, hat,
    takeScheme_of_isScheme hscheme]
  simp only [takeAuthority_user huser.unbroken]
  rfl

/-! ## What is checked, and what is shown -/

/-- What stands behind the last at sign does not depend on what stands in front of one. -/
theorem afterLast_append (mark : Char) (before after : List Char) :
    afterLast mark (before ++ mark :: after) = afterLast mark after := by
  have hstop : decide (mark ≠ mark) = false := by simp
  unfold afterLast
  rw [List.reverse_append, List.reverse_cons, List.append_assoc, List.singleton_append,
    Text.takeWhile_append_stop hstop]

theorem maskAuthority_user (user server : List Char) :
    maskAuthority (user ++ '@' :: server) = mask ++ '@' :: afterLast '@' server := by
  have hat : (user ++ '@' :: server).contains '@' = true := by simp
  rw [maskAuthority, if_pos hat, afterLast_append]

/-- The checks of an authority, one after the other. -/
def checkAuthority (authority : List Char) : Except Error Unit := do
  checkBrackets authority
  checkDelimiters authority

/-- Whatever the user, the address is shown as the same text if the authority passes the checks. -/
theorem masked_user {scheme : List Char} (hscheme : IsScheme scheme) (rest : List Char) :
    ∃ shown : String, ∀ user, IsUserinfo user →
      masked? (withUser scheme user rest) =
        (checkAuthority (unbroken user ++ '@' :: serverOf rest)).map fun _ => shown := by
  obtain ⟨scheme', path, query, fragment, hparts⟩ := ofChars_user hscheme rest
  refine ⟨String.ofList (Parts.write ⟨scheme', mask ++ '@' :: afterLast '@' (serverOf rest), path,
    maskQuery query, fragment⟩), fun user huser => ?_⟩
  unfold masked? withUser Parts.read? checkAuthority
  rw [String.toList_ofList, hparts user huser]
  dsimp only
  cases checkBrackets (unbroken user ++ '@' :: serverOf rest) with
  | error e => rfl
  | ok _ =>
      cases checkDelimiters (unbroken user ++ '@' :: serverOf rest) with
      | error e => rfl
      | ok _ =>
          refine congrArg (fun p => Except.ok (String.ofList (Parts.write p))) ?_
          rw [masked_eq, maskAuthority_user]

/-! ## Harmless users -/

/-- No character is a bracket, and none hides a delimiter. -/
def IsHarmless (cs : List Char) : Prop := ∀ c ∈ cs, c ≠ '[' ∧ c ≠ ']' ∧ hidesDelimiter c = false

instance (cs : List Char) : Decidable (IsHarmless cs) := List.decidableBAll _ cs

/-- The checks quote nothing of an authority that ends like this: no character hides a delimiter, or
the brackets are found wrong before that is checked. -/
def KeepsQuiet (rest : List Char) : Prop :=
  (∀ c ∈ serverOf rest, hidesDelimiter c = false) ∨ ∃ e, checkBrackets (serverOf rest) = .error e

theorem keepsQuiet_of_any {rest : List Char} (h : (serverOf rest).any hidesDelimiter = false) :
    KeepsQuiet rest :=
  .inl fun c hc => by simpa using List.any_eq_false.mp h c hc

theorem IsHarmless.unbroken {user : List Char} (h : IsHarmless user) :
    IsHarmless (unbroken user) := by
  intro c hc
  exact h c (mem_unbroken hc)

/-- Brackets are looked for in all of the authority, but they are judged by what stands behind the
last at sign. -/
theorem checkBrackets_user {user : List Char} (h : IsHarmless user) (server : List Char) :
    checkBrackets (user ++ '@' :: server) = checkBrackets server := by
  have hopen : (user ++ '@' :: server).contains '[' = server.contains '[' := by
    have huser : '[' ∉ user := fun hmem => (h _ hmem).1 rfl
    simp [huser]
  have hclose : (user ++ '@' :: server).contains ']' = server.contains ']' := by
    have huser : ']' ∉ user := fun hmem => (h _ hmem).2.1 rfl
    simp [huser]
  unfold checkBrackets
  rw [hopen, hclose, afterLast_append]

theorem any_hides_user {user : List Char} (h : IsHarmless user) (server : List Char) :
    (user ++ '@' :: server).any hidesDelimiter = server.any hidesDelimiter := by
  have huser : user.any hidesDelimiter = false := by
    rw [List.any_eq_false]
    intro c hc
    simp [(h c hc).2.2]
  have hat : hidesDelimiter '@' = false := by decide
  rw [List.any_append, huser, List.any_cons, hat, Bool.false_or, Bool.false_or]

/-- The checks do not tell harmless users apart, if what follows keeps quiet. -/
theorem checkAuthority_harmless {rest user user' : List Char} (hrest : KeepsQuiet rest)
    (h : IsHarmless user) (h' : IsHarmless user') :
    checkAuthority (user ++ '@' :: serverOf rest) =
      checkAuthority (user' ++ '@' :: serverOf rest) := by
  unfold checkAuthority
  rw [checkBrackets_user h, checkBrackets_user h']
  rcases hrest with hquiet | ⟨e, he⟩
  · have hnone : (serverOf rest).any hidesDelimiter = false := by
      rw [List.any_eq_false]
      intro c hc
      simp [hquiet c hc]
    unfold checkDelimiters
    rw [any_hides_user h, any_hides_user h', hnone]
    rfl
  · rw [he]
    rfl

/-- If it does not keep quiet, a harmless user is quoted. -/
theorem checkAuthority_quotes {rest user : List Char} (hrest : ¬ KeepsQuiet rest)
    (h : IsHarmless user) : checkAuthority (user ++ '@' :: serverOf rest) =
      .error (.hiddenDelimiter (String.ofList (user ++ '@' :: serverOf rest))) := by
  obtain ⟨hhides, hbrackets⟩ := not_or.mp hrest
  have hsome : (serverOf rest).any hidesDelimiter = true := by
    by_contra hnone
    refine hhides fun c hc => ?_
    by_contra hc'
    exact hnone (List.any_eq_true.mpr ⟨c, hc, by simpa using hc'⟩)
  unfold checkAuthority checkDelimiters
  rw [checkBrackets_user h, any_hides_user h, hsome]
  cases hchecked : checkBrackets (serverOf rest) with
  | error e => exact absurd ⟨e, hchecked⟩ hbrackets
  | ok _ => rfl

/-- In front of a plain name of a host, only harmless users pass the checks. -/
theorem harmless_of_checked {user : List Char}
    (h : checkAuthority (user ++ ['@', 'h']) = .ok ()) : IsHarmless user := by
  unfold checkAuthority at h
  cases hbrackets : checkBrackets (user ++ ['@', 'h']) with
  | error e =>
      rw [hbrackets] at h
      cases h
  | ok _ =>
      have hserver : afterLast '@' (user ++ ['@', 'h']) = ['h'] := afterLast_append '@' user ['h']
      have hnone : (user ++ ['@', 'h']).contains '[' = false ∧
          (user ++ ['@', 'h']).contains ']' = false := by
        unfold checkBrackets at hbrackets
        rw [hserver] at hbrackets
        cases hopen : (user ++ ['@', 'h']).contains '[' <;>
          cases hclose : (user ++ ['@', 'h']).contains ']' <;>
          rw [hopen, hclose] at hbrackets
        · exact ⟨rfl, rfl⟩
        -- where there are both kinds, the host would have to be an address
        all_goals cases hbrackets
      have hdelimiters : (user ++ ['@', 'h']).any hidesDelimiter = false := by
        rw [hbrackets] at h
        unfold checkDelimiters at h
        by_contra hsome
        rw [Bool.not_eq_false] at hsome
        rw [hsome] at h
        cases h
      intro c hc
      have hmem : c ∈ user ++ ['@', 'h'] := List.mem_append_left _ hc
      refine ⟨?_, ?_, ?_⟩
      · rintro rfl
        simp [hc] at hnone
      · rintro rfl
        simp [hc] at hnone
      · simpa using List.any_eq_false.mp hdelimiters c hmem

/-! ## Addresses that look the same -/

/-- Nobody who watches a poller can tell the addresses apart: they are shown alike or refused alike,
and pollers that start with them go through the same steps. -/
structure LookAlike (url url' : String) : Prop where
  shown : masked? url = masked? url'
  steps : ∀ (settings : Settings) (link : Link) (now : Moment) (timing : Timing)
    (actions : List Action),
    (Poller.start? { settings with url } link now).map (fun p =>
        (p.steps timing actions).map Step.blind) =
      (Poller.start? { settings with url := url' } link now).map (fun p =>
        (p.steps timing actions).map Step.blind)

theorem LookAlike.of_shown {url url' : String} (h : masked? url = masked? url') :
    LookAlike url url' :=
  ⟨h, Poller.steps_of_shown h⟩

theorem lookAlike_of_harmless {scheme rest user user' : List Char} (hscheme : IsScheme scheme)
    (hrest : KeepsQuiet rest) (huser : IsUserinfo user) (hharmless : IsHarmless user)
    (huser' : IsUserinfo user') (hharmless' : IsHarmless user') :
    LookAlike (withUser scheme user rest) (withUser scheme user' rest) := by
  obtain ⟨shown, hshown⟩ := masked_user hscheme rest
  refine .of_shown ?_
  rw [hshown user huser, hshown user' huser',
    checkAuthority_harmless hrest hharmless.unbroken hharmless'.unbroken]

/-- If the rest does not keep quiet, a user with a name and one without are told apart. -/
theorem keepsQuiet_of_lookAlike {scheme rest : List Char} (hscheme : IsScheme scheme)
    (h : LookAlike (withUser scheme [] rest) (withUser scheme ['u'] rest)) : KeepsQuiet rest := by
  by_contra hrest
  obtain ⟨shown, hshown⟩ := masked_user hscheme rest
  have hsame := h.shown
  rw [hshown [] (by decide), hshown ['u'] (by decide)] at hsame
  have hquoted : ∀ user, IsHarmless user → unbroken user = user →
      checkAuthority (unbroken user ++ '@' :: serverOf rest) =
        .error (.hiddenDelimiter (String.ofList (user ++ '@' :: serverOf rest))) := by
    intro user hharmless hunbroken
    rw [hunbroken]
    exact checkAuthority_quotes hrest hharmless
  rw [hquoted [] (by decide) rfl, hquoted ['u'] (by decide) rfl] at hsame
  have hquoted := congrArg String.toList (Error.hiddenDelimiter.inj (Except.error.inj hsame))
  rw [String.toList_ofList, String.toList_ofList] at hquoted
  cases hquoted

/-- In front of a plain name of a host, a user that looks like none is harmless. -/
theorem harmless_of_lookAlike {scheme user : List Char} (hscheme : IsScheme scheme)
    (huser : IsUserinfo user)
    (h : LookAlike (withUser scheme user ['h']) (withUser scheme [] ['h'])) : IsHarmless user := by
  obtain ⟨shown, hshown⟩ := masked_user hscheme ['h']
  have hserver : serverOf ['h'] = ['h'] := by decide
  have hnone : checkAuthority (unbroken [] ++ ['@', 'h']) = .ok () := rfl
  have hsame := h.shown
  rw [hshown user huser, hshown [] (by decide), hserver, hnone] at hsame
  have hchecked : checkAuthority (unbroken user ++ ['@', 'h']) = .ok () := by
    cases hcheck : checkAuthority (unbroken user ++ ['@', 'h']) with
    | error e =>
        rw [hcheck] at hsame
        cases hsame
    | ok _ => rfl
  have hharmless : IsHarmless (unbroken user) := harmless_of_checked hchecked
  intro c hc
  -- the characters that an address loses are harmless
  by_cases hbreak : IsBreak c
  · rcases hbreak with rfl | rfl | rfl <;> decide
  · refine hharmless c (List.mem_filter.mpr ⟨hc, decide_eq_true ?_⟩)
    unfold IsBreak at hbreak
    tauto

/-- **Which user names and passwords stay hidden.** Harmless ones do in every address that keeps
quiet otherwise: whatever the others are, all that is shown is the same. Any other one makes a
difference in some such address; and in an address that does not keep quiet, harmless ones do. -/
theorem userinfo_hidden_iff {scheme : List Char} (hscheme : IsScheme scheme) :
    (∀ user, IsUserinfo user → (IsHarmless user ↔
      ∀ user' rest, IsUserinfo user' → IsHarmless user' → KeepsQuiet rest →
        LookAlike (withUser scheme user rest) (withUser scheme user' rest))) ∧
    ∀ rest, KeepsQuiet rest ↔
      ∀ user user', IsUserinfo user → IsHarmless user → IsUserinfo user' → IsHarmless user' →
        LookAlike (withUser scheme user rest) (withUser scheme user' rest) := by
  constructor
  · intro user huser
    constructor
    · intro hharmless user' rest huser' hharmless' hrest
      exact lookAlike_of_harmless hscheme hrest huser hharmless huser' hharmless'
    · intro hhidden
      have hquiet : KeepsQuiet ['h'] := keepsQuiet_of_any (by decide)
      exact harmless_of_lookAlike hscheme huser (hhidden [] ['h'] (by decide) (by decide) hquiet)
  · intro rest
    constructor
    · intro hrest user user' huser hharmless huser' hharmless'
      exact lookAlike_of_harmless hscheme hrest huser hharmless huser' hharmless'
    · intro hhidden
      exact keepsQuiet_of_lookAlike hscheme
        (hhidden [] ['u'] (by decide) (by decide) (by decide) (by decide))

theorem userinfo_hidden_iff_https :
    IsScheme "https".toList ∧
      LookAlike (withUser "https".toList "user:s3cret:\u00e9%5B".toList "[::1]:8443/et?key=k".toList)
        (withUser "https".toList [] "[::1]:8443/et?key=k".toList) ∧
      ¬ LookAlike (withUser "https".toList "user:[".toList "h".toList)
        (withUser "https".toList [] "h".toList) := by
  have hscheme : IsScheme "https".toList := by decide
  have hquiet : KeepsQuiet "[::1]:8443/et?key=k".toList := keepsQuiet_of_any (by decide)
  obtain ⟨husers, hrests⟩ := userinfo_hidden_iff hscheme
  refine ⟨hscheme, (hrests _).mp hquiet _ [] (by decide) (by decide) (by decide) (by decide), ?_⟩
  intro hsame
  have hbrackets : masked? (withUser "https".toList "user:[".toList "h".toList) =
      .error .brackets := by rfl
  have hnone : masked? (withUser "https".toList [] "h".toList) = .ok "https://<redacted>@h" :=
    toOption_eq_some.mp (by decide +kernel)
  rw [hsame.shown, hnone] at hbrackets
  cases hbrackets

/-- A bracket in a password: the address is refused, where the same one with another password is
shown; and a character that hides a delimiter: the error quotes the password. -/
theorem userinfo_not_hidden :
    IsScheme "http".toList ∧ IsUserinfo "user:p[w".toList ∧ IsUserinfo "user:p\u2100w".toList ∧
      IsUserinfo "user:pw".toList ∧
      masked? (withUser "http".toList "user:p[w".toList "example.org/et".toList) =
        .error .brackets ∧
      masked? (withUser "http".toList "user:p\u2100w".toList "example.org/et".toList) =
        .error (.hiddenDelimiter "user:p\u2100w@example.org") ∧
      masked? (withUser "http".toList "user:pw".toList "example.org/et".toList) =
        .ok "http://<redacted>@example.org/et" := by
  refine ⟨by decide, by decide, by decide, by decide, by rfl, by rfl, ?_⟩
  exact toOption_eq_some.mp (by decide +kernel)

end Url

end TimetableFeed
