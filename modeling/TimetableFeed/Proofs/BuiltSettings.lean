import TimetableFeed.Proofs.Results
import TimetableFeed.Proofs.SettingsErrors

/-!
# Settings that have been built

Settings are built from values, from an environment or from a node; each way ends in the same
checks, and what passes them can be built. The checks let no blank address and no negative lookback
through. Of the timeout they refuse what is nought or less, which is not the same as what is not
above nought: not-a-number is neither, and so it is the one timeout that passes without being
positive.

Main definitions: `Settings.Built`, `Settings.Passes`. Main statement:
`Settings.positive_iff_number`.
-/

namespace TimetableFeed

/-- The quantity exceeds zero; not-a-number does not. -/
def Quantity.isPositive : Quantity → Bool
  | .whole i => decide (0 < i)
  | .real x => x.isPositive
  | .flag b => b

/-- What is not refused as nought or less is positive, or it is not-a-number. -/
theorem Quantity.isPositive_iff {x : Quantity} (h : x.isNonPositive = false) :
    x.isPositive = true ↔ x ≠ .real .nan := by
  cases x with
  | whole i =>
      have hpos : 0 < i := by
        rw [isNonPositive, decide_eq_false_iff_not] at h
        omega
      exact iff_of_true (decide_eq_true hpos) nofun
  | flag b =>
      cases b with
      | true => exact iff_of_true rfl nofun
      | false => cases h
  | real x =>
      rw [isNonPositive] at h
      constructor
      · rintro hpos ⟨⟩
        cases hpos
      · intro hnumber
        have hne : x ≠ .nan := fun hx => hnumber (by rw [hx])
        rw [isPositive, Binary64.isPositive_eq_not hne, h]
        rfl

/-! ## Numerals for not-a-number -/

theorem Binary64.ofRatio_ne_nan (negative : Bool) (num : Nat) {den : Nat} (hden : 0 < den) :
    ofRatio negative num den ≠ .nan := by
  obtain ⟨mantissa, exponent, -, hratio⟩ := ofUnits_capped negative (num * one) hden
  rw [ofRatio_eq, hratio, capped]
  split <;> simp

theorem Binary64.ofDecimal_ne_nan (negative : Bool) (digits : Nat) (scale : Int) :
    ofDecimal negative digits scale ≠ .nan := by
  have hpow : ∀ n, 0 < tenPow n := fun n => Nat.pow_pos (by decide)
  unfold ofDecimal
  split
  · nofun
  · split
    · nofun
    · split
      · exact ofRatio_ne_nan _ _ Nat.one_pos
      · exact ofRatio_ne_nan _ _ (hpow _)

namespace Numeral

/-- The text is the word for not-a-number, in letters of either case, perhaps with a sign and white
space around it. -/
def IsNan (text : String) : Prop :=
  (sign (Text.trimChars isMargin text.toList)).2.map Char.toLower = ['n', 'a', 'n']

instance (text : String) : Decidable (IsNan text) := inferInstanceAs (Decidable (_ = _))

theorem real_eq_nan_iff {text : String} : real? text = some .nan ↔ IsNan text := by
  unfold real? IsNan
  generalize sign (Text.trimChars isMargin text.toList) = signed
  obtain ⟨negative, cs⟩ := signed
  dsimp only
  split
  · rename_i hword
    refine iff_of_false nofun ?_
    rintro hnan
    rw [hnan] at hword
    revert hword
    decide
  · split
    · rename_i hnan
      exact iff_of_true rfl hnan
    · rename_i hnan
      refine iff_of_false ?_ hnan
      split
      · nofun
      · intro hread
        obtain ⟨power, -, hvalue⟩ := Option.map_eq_some_iff.mp hread
        exact Binary64.ofDecimal_ne_nan _ _ _ hvalue

end Numeral

namespace Settings

/-- There is a text, and it writes not-a-number. -/
def WritesNan (text : Option String) : Prop := ∃ s, text = some s ∧ Numeral.IsNan s

/-! ## The checks -/

structure Passes (s : Settings) : Prop where
  url : Text.isBlank s.url = false
  timeout : s.timeout.isNonPositive = false
  lookback : 0 ≤ s.lookback.micros

theorem of_ok_iff {url feedId : Option String} {timeout : Quantity} {lookback : Duration}
    {s : Settings} : of? url feedId timeout lookback = .ok s ↔
      url = some s.url ∧ feedId = s.feedId ∧ timeout = s.timeout ∧ lookback = s.lookback ∧
        s.Passes := by
  constructor
  · intro h
    unfold of? at h
    split at h
    · cases h
    · rename_i text htext
      obtain ⟨hurl, hblank⟩ := Option.filter_eq_some_iff.mp htext
      split at h
      · cases h
      · rename_i htimeout
        split at h
        · cases h
        · rename_i hlookback
          cases h
          refine ⟨hurl, rfl, rfl, rfl, ?_, ?_, ?_⟩
          · simpa using hblank
          · simpa using htimeout
          · exact Int.not_lt.mp hlookback
  · rintro ⟨rfl, rfl, rfl, rfl, hpasses⟩
    have hurl : (some s.url).filter (fun url => !Text.isBlank url) = some s.url := by
      simp [Option.filter, hpasses.url]
    unfold of?
    rw [hurl]
    dsimp only
    rw [if_neg (by simp [hpasses.timeout]), if_neg (Int.not_lt.mpr hpasses.lookback)]

/-! ## Ways of building settings -/

/-- The settings come from values, from an environment or from a node. -/
inductive Built (s : Settings) : Prop where
  | values {url feedId : Option String} {timeout : Quantity} {lookback : Duration}
      (h : of? url feedId timeout lookback = .ok s)
  | environment {env : Environment} {given : Overrides} (h : ofEnvironment? env given = .ok s)
  | node {node : Json} (h : ofNode? node = .ok s)

/-- A timeout that is read is not-a-number exactly if the text says so; the default is a number. -/
theorem readTimeout_nan_iff {setting : String} {text : Option String} {timeout : Quantity}
    (h : readTimeout setting text = .ok timeout) : timeout = .real .nan ↔ WritesNan text := by
  unfold WritesNan
  cases text with
  | none =>
      cases h
      exact iff_of_false (by decide +kernel) (by simp)
  | some text =>
      obtain ⟨x, hx, rfl⟩ : ∃ x, Numeral.real? text = some x ∧ .real x = timeout := by
        unfold readTimeout readNumber at h
        cases hreal : Numeral.real? text with
        | none => simp [hreal, Except.map] at h
        | some x => exact ⟨x, rfl, by simpa [hreal, Except.map] using h⟩
      simp [← Numeral.real_eq_nan_iff, hx]

/-- What is given counts, and what is not given is read. -/
theorem ofEnvironment_eq (env : Environment) (given : Overrides) :
    ofEnvironment? env given = (do
      let timeout ← given.timeout?.elim
        (readTimeout "SIRI_REQUEST_TIMEOUT" (env "SIRI_REQUEST_TIMEOUT")) .ok
      let lookback ← given.lookback?.elim
        (readLookback "SIRI_INITIAL_LOOKBACK_DAYS" (env "SIRI_INITIAL_LOOKBACK_DAYS")) .ok
      of? (given.url?.getD (env "SIRI_URL")) (given.feedId?.getD (env "SIRI_FEED_ID")) timeout
        lookback) := by
  unfold ofEnvironment?
  cases given.timeout? <;> cases given.lookback? <;> rfl

theorem of_environment {env : Environment} {given : Overrides} {s : Settings}
    (h : ofEnvironment? env given = .ok s) :
    s.Passes ∧ (s.timeout = .real .nan ↔ given.timeout? = some (.real .nan) ∨
      given.timeout? = none ∧ WritesNan (env "SIRI_REQUEST_TIMEOUT")) := by
  rw [ofEnvironment_eq] at h
  obtain ⟨timeout, htimeout, h⟩ := exists_of_bind_ok h
  obtain ⟨lookback, -, h⟩ := exists_of_bind_ok h
  obtain ⟨-, -, rfl, -, hpasses⟩ := of_ok_iff.mp h
  refine ⟨hpasses, ?_⟩
  cases hgiven : given.timeout? with
  | none =>
      rw [hgiven] at htimeout
      simp [readTimeout_nan_iff htimeout]
  | some timeout =>
      rw [hgiven] at htimeout
      cases htimeout
      simp

theorem of_node {node : Json} {s : Settings} (h : ofNode? node = .ok s) :
    s.Passes ∧ (s.timeout = .real .nan ↔ WritesNan (memberText node "timeout")) := by
  unfold ofNode? at h
  split at h
  · obtain ⟨timeout, htimeout, h⟩ := exists_of_bind_ok h
    obtain ⟨lookback, -, h⟩ := exists_of_bind_ok h
    obtain ⟨-, -, rfl, -, hpasses⟩ := of_ok_iff.mp h
    exact ⟨hpasses, readTimeout_nan_iff htimeout⟩
  · cases h

/-- However settings are built, they pass the checks; and what passes them can be built. -/
theorem built_iff_passes {s : Settings} : s.Built ↔ s.Passes := by
  constructor
  · rintro (h | h | h)
    · exact (of_ok_iff.mp h).2.2.2.2
    · exact (of_environment h).1
    · exact (of_node h).1
  · intro hpasses
    exact .values (of_ok_iff.mpr ⟨rfl, rfl, rfl, rfl, hpasses⟩)

/-- **What settings guarantee.** However they are built, their address is not blank and their
lookback is not negative, and their timeout is positive if and only if it is a number. It is not
one exactly if it was given as not-a-number, or read from a text that says so. -/
theorem positive_iff_number {s : Settings} (hbuilt : s.Built) :
    (∃ c ∈ s.url.toList, Text.isBlankChar c = false) ∧ 0 ≤ s.lookback.micros ∧
      (s.timeout.isPositive = true ↔ s.timeout ≠ .real .nan) ∧
      (∀ url feedId timeout lookback, of? url feedId timeout lookback = .ok s →
        (s.timeout = .real .nan ↔ timeout = .real .nan)) ∧
      (∀ env given, ofEnvironment? env given = .ok s →
        (s.timeout = .real .nan ↔ given.timeout? = some (.real .nan) ∨
          given.timeout? = none ∧ WritesNan (env "SIRI_REQUEST_TIMEOUT"))) ∧
      ∀ node, ofNode? node = .ok s →
        (s.timeout = .real .nan ↔ WritesNan (memberText node "timeout")) := by
  obtain ⟨hurl, htimeout, hlookback⟩ := built_iff_passes.mp hbuilt
  refine ⟨?_, hlookback, Quantity.isPositive_iff htimeout, ?_, ?_, ?_⟩
  · simpa [Text.isBlank] using hurl
  · intro url feedId timeout lookback h
    rw [(of_ok_iff.mp h).2.2.1]
  · intro env given h
    exact (of_environment h).2
  · intro node h
    exact (of_node h).2

/-- An address behind a blank, and a truth value that overrides the word for not-a-number. -/
theorem positive_iff_number_overridden :
    let env : Environment := fun name =>
      if name = "SIRI_URL" then some "\u00a0x"
      else if name = "SIRI_REQUEST_TIMEOUT" then some " -NaN" else none
    let given : Overrides := ⟨none, none, some (.flag true), none⟩
    let s : Settings := ⟨"\u00a0x", none, .flag true, defaultLookback⟩
    ofEnvironment? env given = .ok s ∧ WritesNan (env "SIRI_REQUEST_TIMEOUT") ∧ s.Built ∧
      (∃ c ∈ s.url.toList, Text.isBlankChar c = false) ∧ s.timeout.isPositive = true := by
  intro env given s
  have hs : ofEnvironment? env given = .ok s := toOption_eq_some.mp (by decide +kernel)
  have hwrites : WritesNan (env "SIRI_REQUEST_TIMEOUT") := ⟨" -NaN", rfl, by decide⟩
  have hbuilt : s.Built := .environment hs
  obtain ⟨hurl, -, hpositive, -⟩ := positive_iff_number hbuilt
  exact ⟨hs, hwrites, hbuilt, hurl, hpositive.mpr nofun⟩

/-- All three ways let a timeout through that is not positive. -/
theorem built_not_positive :
    let s : Settings := ⟨"http://x", none, .real .nan, defaultLookback⟩
    of? (some "http://x") none (.real .nan) defaultLookback = .ok s ∧
      ofEnvironment? (fun name =>
        if name = "SIRI_URL" then some "http://x"
        else if name = "SIRI_REQUEST_TIMEOUT" then some "nan" else none) .none = .ok s ∧
      ofNode? (.object [("url", .text "http://x"), ("timeout", .real .nan)]) = .ok s ∧
      s.timeout.isPositive = false := by
  intro s
  refine ⟨toOption_eq_some.mp ?_, toOption_eq_some.mp ?_, toOption_eq_some.mp ?_, rfl⟩
  · decide +kernel
  · decide +kernel
  · decide +kernel

end Settings

end TimetableFeed
