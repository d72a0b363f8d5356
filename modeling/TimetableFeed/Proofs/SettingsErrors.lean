import TimetableFeed.Feed.Settings
import TimetableFeed.Proofs.Rounding

/-!
# Errors of settings

A setting that cannot be used is reported with the setting's name, with one exception: a lookback
that is a number, but not the length of a duration, gives the error of the duration. Not-a-number,
the infinities and the numbers that are out of range are written by numerals like any other, so the
check of the numeral lets them through, and the conversion behind it has no check.

Main definition: `Settings.Settled`. Main statement: `Settings.settled_iff`.
-/

namespace TimetableFeed

/-- The error says what is wrong with the settings. That of a duration knows of no setting. -/
def SettingsError.IsConfiguration : SettingsError → Prop
  | .duration _ => False
  | _ => True

theorem Numeral.hasMantissa_of_real {text : String} {x : Binary64} (h : real? text = some x) :
    x.HasMantissa := by
  unfold real? at h
  dsimp only at h
  split at h
  · cases h
    trivial
  · split at h
    · cases h
      trivial
    · split at h
      · cases h
      · obtain ⟨power, -, rfl⟩ := Option.map_eq_some_iff.mp h
        exact Binary64.hasMantissa_ofDecimal _ _ _

namespace Settings

variable {α β : Type}

/-- The result is a value, or an error that says what is wrong with the settings. -/
def Settled (r : Except SettingsError α) : Prop := ∀ e, r = .error e → e.IsConfiguration

@[simp] theorem settled_ok (a : α) : Settled (.ok a) := by
  intro e he
  cases he

@[simp] theorem settled_error_iff (e : SettingsError) :
    Settled (.error e : Except SettingsError α) ↔ e.IsConfiguration := by
  constructor
  · intro h
    exact h e rfl
  · intro h e' he
    cases he
    exact h

/-- What comes second counts if what comes first gives a value. -/
theorem settled_bind_iff {r : Except SettingsError α} {f : α → Except SettingsError β} :
    Settled (r >>= f) ↔ Settled r ∧ ∀ a, r = .ok a → Settled (f a) := by
  cases r with
  | error e => simp [bind, Except.bind]
  | ok a => simp [bind, Except.bind]

theorem settled_map_iff {r : Except SettingsError α} {f : α → β} :
    Settled (r.map f) ↔ Settled r := by
  cases r with
  | error e => simp [Except.map]
  | ok a => simp [Except.map]

/-! ## The values of settings -/

/-- The text, if there is one, writes a number. -/
def Numeric (text : Option String) : Prop := ∀ s, text = some s → (Numeral.real? s).isSome

/-- The number that the text writes, if it writes one, can be counted in days. -/
def Countable (text : Option String) : Prop :=
  ∀ s x, text = some s → Numeral.real? s = some x → x.IsCountable

theorem settled_readNumber (setting text : String) : Settled (readNumber setting text) := by
  unfold readNumber
  split
  · exact settled_ok _
  · exact (settled_error_iff _).mpr trivial

theorem readNumber_ok_iff {setting text : String} {x : Binary64} :
    readNumber setting text = .ok x ↔ Numeral.real? text = some x := by
  unfold readNumber
  split
  · rename_i h
    simp [h]
  · rename_i h
    simp [h]

theorem settled_readTimeout (setting : String) (text : Option String) :
    Settled (readTimeout setting text) := by
  cases text with
  | none => exact settled_ok _
  | some text => exact settled_map_iff.mpr (settled_readNumber setting text)

theorem readTimeout_ok_iff (setting : String) (text : Option String) :
    (∃ timeout, readTimeout setting text = .ok timeout) ↔ Numeric text := by
  unfold Numeric
  cases text with
  | none => simp [readTimeout]
  | some text =>
      unfold readTimeout readNumber
      cases hreal : Numeral.real? text with
      | none => simp [hreal, Except.map]
      | some x => simp [hreal, Except.map]

theorem settled_ofDays_iff {x : Binary64} (hx : x.HasMantissa) :
    Settled ((Duration.ofDays? x).mapError SettingsError.duration) ↔ x.IsCountable := by
  rw [← Duration.ofDays_ok_iff hx]
  cases Duration.ofDays? x with
  | error e => simp [Except.mapError, SettingsError.IsConfiguration]
  | ok d => simp [Except.mapError]

theorem settled_readLookback_iff (setting : String) (text : Option String) :
    Settled (readLookback setting text) ↔ Countable text := by
  unfold Countable
  cases text with
  | none => simp [readLookback]
  | some text =>
      have hbind : Settled (readLookback setting (some text)) ↔
          ∀ x, readNumber setting text = .ok x →
            Settled ((Duration.ofDays? x).mapError SettingsError.duration) :=
        settled_bind_iff.trans (and_iff_right (settled_readNumber setting text))
      rw [hbind]
      constructor
      · intro h s x hs hx
        cases hs
        exact (settled_ofDays_iff (Numeral.hasMantissa_of_real hx)).mp
          (h x (readNumber_ok_iff.mpr hx))
      · intro h x hread
        have hx := readNumber_ok_iff.mp hread
        exact (settled_ofDays_iff (Numeral.hasMantissa_of_real hx)).mpr (h text x rfl hx)

theorem settled_of (url feedId : Option String) (timeout : Quantity) (lookback : Duration) :
    Settled (of? url feedId timeout lookback) := by
  unfold of?
  split
  · exact (settled_error_iff _).mpr trivial
  · split
    · exact (settled_error_iff _).mpr trivial
    · split
      · exact (settled_error_iff _).mpr trivial
      · exact settled_ok _

/-! ## The two sources of settings -/

/-- The settings that texts give, whatever the texts come from. A timeout that is no number hides
what is wrong with the lookback. -/
theorem settled_texts_iff (timeoutName lookbackName : String) (timeout? lookback? : Option String)
    (url feedId : Option String) :
    Settled (do
      let timeout ← readTimeout timeoutName timeout?
      let lookback ← readLookback lookbackName lookback?
      of? url feedId timeout lookback) ↔ (Numeric timeout? → Countable lookback?) := by
  rw [settled_bind_iff, and_iff_right (settled_readTimeout timeoutName timeout?),
    ← readTimeout_ok_iff timeoutName, ← settled_readLookback_iff lookbackName]
  constructor
  · rintro h ⟨timeout, htimeout⟩
    exact (settled_bind_iff.mp (h timeout htimeout)).1
  · intro h timeout htimeout
    exact settled_bind_iff.mpr ⟨h ⟨timeout, htimeout⟩, fun lookback _ => settled_of _ _ _ _⟩

/-- **Which settings are taken or rejected as such.** For an environment and for a node, the result
is settings or an error of the configuration exactly if the lookback is not a number, or one that
can be counted in days; or if an error comes before it. -/
theorem settled_iff (env : Environment) (node : Json) :
    (Settled (ofEnvironment? env .none) ↔
      (Numeric (env "SIRI_REQUEST_TIMEOUT") → Countable (env "SIRI_INITIAL_LOOKBACK_DAYS"))) ∧
    (Settled (ofNode? node) ↔
      ((∃ url, node.get? "url" = some (.text url)) → Numeric (memberText node "timeout") →
        Countable (memberText node "initialLookbackDays"))) := by
  constructor
  · exact settled_texts_iff _ _ _ _ _ _
  · unfold ofNode?
    split
    · rename_i url hurl
      rw [settled_texts_iff, hurl]
      exact ⟨fun h _ => h, fun h => h ⟨url, rfl⟩⟩
    · rename_i hurl
      refine iff_of_true ((settled_error_iff _).mpr trivial) ?_
      rintro ⟨url, hnode⟩
      exact absurd hnode (hurl url)

/-- Not-a-number in the environment, and in nodes an infinity and a number that is out of range,
are not reported as errors of the configuration. -/
theorem lookback_not_settled :
    ¬ Settled (ofEnvironment? (fun name =>
      if name = "SIRI_URL" then some "http://x"
      else if name = "SIRI_INITIAL_LOOKBACK_DAYS" then some "nan" else none) .none) ∧
    ¬ Settled (ofNode? (.object
      [("url", .text "http://x"), ("initialLookbackDays", .text "inf")])) ∧
    ¬ Settled (ofNode? (.object
      [("url", .text "http://x"), ("initialLookbackDays", .integer 1000000000)])) := by
  refine ⟨fun h => h (.duration .notANumber) ?_, fun h => h (.duration .infinite) ?_,
    fun h => h (.duration (.tooLong 1000000000)) ?_⟩
  · decide +kernel
  · decide +kernel
  · decide +kernel

end Settings

end TimetableFeed
