import TimetableFeed.Proofs.BuiltSettings

/-!
# Sources of settings

A setting may be given explicitly, by an environment variable or by an entry of a node. What is
given explicitly counts, and it hides the variable: whatever that holds, or if it is not set, the
result is the same. A node and an environment that hold the same texts give settings with the same
values, or errors that differ in nothing but the name of the setting. Settings with the same values
are equal, but for a timeout that is not a number.

Main definitions: `Settings.Overrides.Covers`, `Settings.Overrides.Yields`, `Settings.SameTexts`,
`Settings.Counterpart`. Main statements: `Settings.overrides_win`, `Settings.sources_agree`.
-/

namespace TimetableFeed

namespace Settings

/-! ## What texts write -/

/-- The text writes the timeout; without a text it is the default. -/
inductive WritesTimeout : Option String → Quantity → Prop where
  | default : WritesTimeout none defaultTimeout
  | seconds {text : String} {x : Binary64} (h : Numeral.real? text = some x) :
      WritesTimeout (some text) (.real x)

/-- The text writes the lookback; without a text it is the default. -/
inductive WritesLookback : Option String → Duration → Prop where
  | default : WritesLookback none defaultLookback
  | days {text : String} {x : Binary64} {d : Duration} (h : Numeral.real? text = some x)
      (hdays : Duration.ofDays? x = .ok d) : WritesLookback (some text) d

theorem readTimeout_eq_ok_iff {setting : String} {text : Option String} {timeout : Quantity} :
    readTimeout setting text = .ok timeout ↔ WritesTimeout text timeout := by
  cases text with
  | none =>
      constructor
      · rintro ⟨⟩
        exact .default
      · rintro ⟨⟩
        rfl
  | some text =>
      constructor
      · intro h
        cases hread : readNumber setting text with
        | error e =>
            rw [readTimeout, hread] at h
            cases h
        | ok x =>
            rw [readTimeout, hread] at h
            cases h
            exact .seconds (readNumber_ok_iff.mp hread)
      · intro h
        cases h with
        | seconds h =>
            rw [readTimeout, readNumber_ok_iff.mpr h]
            rfl

theorem readLookback_eq_ok_iff {setting : String} {text : Option String} {lookback : Duration} :
    readLookback setting text = .ok lookback ↔ WritesLookback text lookback := by
  cases text with
  | none =>
      constructor
      · rintro ⟨⟩
        exact .default
      · rintro ⟨⟩
        rfl
  | some text =>
      constructor
      · intro h
        obtain ⟨x, hread, hdays⟩ := exists_of_bind_ok h
        exact .days (readNumber_ok_iff.mp hread) (eq_ok_of_mapError hdays)
      · intro h
        cases h with
        | days h hdays =>
            rw [readLookback, readNumber_ok_iff.mpr h]
            show (Duration.ofDays? _).mapError _ = _
            rw [hdays]
            rfl

/-! ## Explicit values -/

/-- The variable is that of a setting that is given explicitly. -/
def Overrides.Covers (given : Overrides) (name : String) : Prop :=
  (name = "SIRI_URL" ∧ given.url?.isSome) ∨ (name = "SIRI_FEED_ID" ∧ given.feedId?.isSome) ∨
    (name = "SIRI_REQUEST_TIMEOUT" ∧ given.timeout?.isSome) ∨
    (name = "SIRI_INITIAL_LOOKBACK_DAYS" ∧ given.lookback?.isSome)

/-- The value is what is given; if nothing is given, it is one that its source allows. -/
def Prevails {α : Type} (given : Option α) (Source : α → Prop) (value : α) : Prop :=
  (∀ x, given = some x → value = x) ∧ (given = none → Source value)

/-- Each setting is what is given, or else what its variable writes, or its default. The address has
no default. -/
structure Overrides.Yields (given : Overrides) (env : Environment) (s : Settings) : Prop where
  url : Prevails given.url? (env "SIRI_URL" = ·) (some s.url)
  feedId : Prevails given.feedId? (env "SIRI_FEED_ID" = ·) s.feedId
  timeout : Prevails given.timeout? (WritesTimeout (env "SIRI_REQUEST_TIMEOUT")) s.timeout
  lookback : Prevails given.lookback? (WritesLookback (env "SIRI_INITIAL_LOOKBACK_DAYS")) s.lookback

section

variable {α β ε : Type} {given : Option α} {value : α}

theorem getD_eq_iff {other : α} : given.getD other = value ↔ Prevails given (other = ·) value := by
  cases given <;> simp [Prevails, eq_comm]

theorem elim_eq_ok_iff {r : Except ε α} {Source : α → Prop}
    (h : ∀ value, r = .ok value ↔ Source value) :
    given.elim r .ok = .ok value ↔ Prevails given Source value := by
  cases given <;> simp [Prevails, h, eq_comm]

theorem getD_congr {other other' : α} (h : given = none → other = other') :
    given.getD other = given.getD other' := by
  cases given with
  | none => exact h rfl
  | some x => rfl

theorem elim_congr {r r' : β} {use : α → β} (h : given = none → r = r') :
    given.elim r use = given.elim r' use := by
  cases given with
  | none => exact h rfl
  | some x => rfl

end

/-- Which settings an environment and explicit values give. -/
theorem ofEnvironment_ok_iff {env : Environment} {given : Overrides} {s : Settings} :
    ofEnvironment? env given = .ok s ↔ given.Yields env s ∧ s.Passes := by
  rw [ofEnvironment_eq]
  constructor
  · intro h
    obtain ⟨timeout, htimeout, h⟩ := exists_of_bind_ok h
    obtain ⟨lookback, hlookback, h⟩ := exists_of_bind_ok h
    obtain ⟨hurl, hfeedId, rfl, rfl, hpasses⟩ := of_ok_iff.mp h
    exact ⟨⟨getD_eq_iff.mp hurl, getD_eq_iff.mp hfeedId,
      (elim_eq_ok_iff fun _ => readTimeout_eq_ok_iff).mp htimeout,
      (elim_eq_ok_iff fun _ => readLookback_eq_ok_iff).mp hlookback⟩, hpasses⟩
  · rintro ⟨⟨hurl, hfeedId, htimeout, hlookback⟩, hpasses⟩
    rw [(elim_eq_ok_iff fun _ => readTimeout_eq_ok_iff).mpr htimeout,
      (elim_eq_ok_iff fun _ => readLookback_eq_ok_iff).mpr hlookback]
    exact of_ok_iff.mpr ⟨getD_eq_iff.mpr hurl, getD_eq_iff.mpr hfeedId, rfl, rfl, hpasses⟩

/-- A variable is read only if its setting is not given. -/
theorem ofEnvironment_congr {env env' : Environment} {given : Overrides}
    (hurl : given.url? = none → env "SIRI_URL" = env' "SIRI_URL")
    (hfeedId : given.feedId? = none → env "SIRI_FEED_ID" = env' "SIRI_FEED_ID")
    (htimeout : given.timeout? = none →
      env "SIRI_REQUEST_TIMEOUT" = env' "SIRI_REQUEST_TIMEOUT")
    (hlookback : given.lookback? = none →
      env "SIRI_INITIAL_LOOKBACK_DAYS" = env' "SIRI_INITIAL_LOOKBACK_DAYS") :
    ofEnvironment? env given = ofEnvironment? env' given := by
  rw [ofEnvironment_eq, ofEnvironment_eq, getD_congr hurl, getD_congr hfeedId,
    elim_congr fun hnone => congrArg (readTimeout _) (htimeout hnone),
    elim_congr fun hnone => congrArg (readLookback _) (hlookback hnone)]

/-- **Explicit values hide their variables.** Two environments that differ in nothing but variables
of settings that are given explicitly lead to the same settings or the same error. They lead to
settings exactly if these pass the checks, with each value that is given, and each other one as its
variable writes it or by default. -/
theorem overrides_win {env env' : Environment} {given : Overrides}
    (h : ∀ name, ¬ given.Covers name → env name = env' name) :
    ofEnvironment? env given = ofEnvironment? env' given ∧
      ∀ s, ofEnvironment? env given = .ok s ↔ given.Yields env s ∧ s.Passes := by
  refine ⟨?_, fun s => ofEnvironment_ok_iff⟩
  apply ofEnvironment_congr
  · exact fun hnone => h _ (by simp [Overrides.Covers, hnone])
  · exact fun hnone => h _ (by simp [Overrides.Covers, hnone])
  · exact fun hnone => h _ (by simp [Overrides.Covers, hnone])
  · exact fun hnone => h _ (by simp [Overrides.Covers, hnone])

/-- A blank address and a timeout that is no number do no harm where both are overridden; the
lookback is read. -/
theorem overrides_win_malformed :
    let env : Environment := fun name =>
      if name = "SIRI_URL" then some " "
      else if name = "SIRI_REQUEST_TIMEOUT" then some "soon"
      else if name = "SIRI_INITIAL_LOOKBACK_DAYS" then some " 0.5 " else none
    let env' : Environment := fun name =>
      if name = "SIRI_INITIAL_LOOKBACK_DAYS" then some " 0.5 " else none
    let given : Overrides := ⟨some (some "http://y"), none, some (.whole 5), none⟩
    let s : Settings := ⟨"http://y", none, .whole 5, ⟨43200000000, by decide, by decide⟩⟩
    (∀ name, ¬ given.Covers name → env name = env' name) ∧
      ofEnvironment? env given = ofEnvironment? env' given ∧ ofEnvironment? env given = .ok s ∧
      given.Yields env s := by
  intro env env' given s
  have hcovers : ∀ name, ¬ given.Covers name → env name = env' name := by
    intro name hname
    have hurl : name ≠ "SIRI_URL" := fun h => hname (.inl ⟨h, rfl⟩)
    have htimeout : name ≠ "SIRI_REQUEST_TIMEOUT" := fun h => hname (.inr (.inr (.inl ⟨h, rfl⟩)))
    simp only [env, env', if_neg hurl, if_neg htimeout]
  have hs : ofEnvironment? env given = .ok s := toOption_eq_some.mp (by decide +kernel)
  obtain ⟨hsame, hiff⟩ := overrides_win hcovers
  exact ⟨hcovers, hsame, hs, ((hiff s).mp hs).1⟩

/-! ## Nodes and environments -/

/-- The entry of the node is the text; without a text there is no entry, or a null. -/
def HasEntry (node : Json) (key : String) : Option String → Prop
  | some text => node.get? key = some (.text text)
  | none => node.get? key = none ∨ node.get? key = some .null

/-- A node and an environment hold the same texts for the settings. -/
structure SameTexts (node : Json) (env : Environment) : Prop where
  url : ∃ url, HasEntry node "url" (some url) ∧ env "SIRI_URL" = some url
  feedId : HasEntry node "feedId" (env "SIRI_FEED_ID")
  timeout : HasEntry node "timeout" (env "SIRI_REQUEST_TIMEOUT")
  lookback : HasEntry node "initialLookbackDays" (env "SIRI_INITIAL_LOOKBACK_DAYS")

theorem HasEntry.memberText_eq {node : Json} {key : String} {text : Option String}
    (h : HasEntry node key text) : memberText node key = text := by
  cases text with
  | none =>
      rcases h with h | h
      · rw [memberText, h]
      · rw [memberText, h]
  | some text =>
      have hentry : node.get? key = some (.text text) := h
      rw [memberText, hentry]
      rfl

/-- The numeric settings: their keys in nodes and the names of their variables. -/
def numericNames : List (String × String) :=
  [("timeout", "SIRI_REQUEST_TIMEOUT"), ("initialLookbackDays", "SIRI_INITIAL_LOOKBACK_DAYS")]

/-- The messages are the same, but for the name of the setting with which they begin. -/
def SameButName (message message' : String) : Prop :=
  message = message' ∨ ∃ key name rest,
    (key, name) ∈ numericNames ∧ message = key ++ rest ∧ message' = name ++ rest

/-- One error, as it is told of a node and of an environment. -/
inductive Counterpart : SettingsError → SettingsError → Prop where
  | same (e : SettingsError) : Counterpart e e
  | renamed {key name : String} (h : (key, name) ∈ numericNames) (text : String) :
      Counterpart (.notNumeric key text) (.notNumeric name text)

theorem Counterpart.told {e e' : SettingsError} (h : Counterpart e e') :
    e.kind = e'.kind ∧ SameButName e.message e'.message := by
  cases h with
  | same => exact ⟨rfl, .inl rfl⟩
  | @renamed key name h text =>
      have hmessage : ∀ setting, (SettingsError.notNumeric setting text).message =
          setting ++ (" must be numeric, got " ++ Text.quoted text) :=
        fun setting => String.append_assoc
      exact ⟨rfl, .inr ⟨key, name, _, h, hmessage key, hmessage name⟩⟩

/-- The same value, or counterparts of one error. -/
inductive Agree {α : Type} : Except SettingsError α → Except SettingsError α → Prop where
  | ok (a : α) : Agree (.ok a) (.ok a)
  | error {e e' : SettingsError} (h : Counterpart e e') : Agree (.error e) (.error e')

namespace Agree

variable {α β : Type} {key name : String}

theorem refl (r : Except SettingsError α) : Agree r r := by
  cases r with
  | ok a => exact .ok a
  | error e => exact .error (.same e)

theorem bind {r r' : Except SettingsError α} {f f' : α → Except SettingsError β}
    (h : Agree r r') (hf : ∀ a, Agree (f a) (f' a)) : Agree (r >>= f) (r' >>= f') := by
  cases h with
  | ok a => exact hf a
  | error h => exact .error h

theorem map {r r' : Except SettingsError α} (h : Agree r r') (f : α → β) :
    Agree (r.map f) (r'.map f) := by
  cases h with
  | ok a => exact .ok (f a)
  | error h => exact .error h

theorem readNumber (h : (key, name) ∈ numericNames) (text : String) :
    Agree (readNumber key text) (readNumber name text) := by
  unfold Settings.readNumber
  cases Numeral.real? text with
  | some x => exact .ok x
  | none => exact .error (.renamed h text)

theorem readTimeout (h : (key, name) ∈ numericNames) (text : Option String) :
    Agree (readTimeout key text) (readTimeout name text) := by
  cases text with
  | none => exact .refl _
  | some text => exact (readNumber h text).map Quantity.real

theorem readLookback (h : (key, name) ∈ numericNames) (text : Option String) :
    Agree (readLookback key text) (readLookback name text) := by
  cases text with
  | none => exact .refl _
  | some text => exact (readNumber h text).bind fun x => .refl _

end Agree

/-- Settings with the same values are equal unless the timeout is not a number. -/
theorem equals_self_iff {s : Settings} : s.equals s = true ↔ s.timeout ≠ .real .nan := by
  simp only [equals, beq_self_eq_true, Bool.true_and, Bool.and_true, Quantity.equals_self_iff]

/-- **Nodes and environments are read alike.** If they hold the same texts, be they blank,
malformed, out of range or missing, they give settings with the same values, or both fail with an
error of one kind, the messages of which differ only in the name of the setting. The settings are
equal unless the texts say that the timeout is not a number. -/
theorem sources_agree {node : Json} {env : Environment} (h : SameTexts node env) :
    (∃ s s', ofNode? node = .ok s ∧ ofEnvironment? env .none = .ok s' ∧ s = s' ∧
      (s.equals s' = true ↔ ¬ WritesNan (env "SIRI_REQUEST_TIMEOUT"))) ∨
      ∃ e e', ofNode? node = .error e ∧ ofEnvironment? env .none = .error e' ∧
        e.kind = e'.kind ∧ SameButName e.message e'.message := by
  obtain ⟨url, hurl, henv⟩ := h.url
  have hnode : node.get? "url" = some (.text url) := hurl
  have hagree : Agree (ofNode? node) (ofEnvironment? env .none) := by
    unfold ofNode?
    rw [hnode, ofEnvironment_eq, h.feedId.memberText_eq, h.timeout.memberText_eq,
      h.lookback.memberText_eq]
    refine (Agree.readTimeout (by decide) _).bind fun timeout => ?_
    refine (Agree.readLookback (by decide) _).bind fun lookback => ?_
    rw [← henv]
    exact .refl _
  generalize hr : ofNode? node = r at hagree
  generalize ofEnvironment? env .none = r' at hagree
  cases hagree with
  | ok s =>
      refine .inl ⟨s, s, rfl, rfl, rfl, ?_⟩
      have hnan := (of_node hr).2
      rw [h.timeout.memberText_eq] at hnan
      rw [equals_self_iff, Ne, hnan]
  | error h => exact .inr ⟨_, _, rfl, rfl, h.told⟩

/-- A null for the id, a timeout in Devanagari digits, and a lookback that is no number. -/
theorem sources_agree_malformed :
    let node : Json := .object [("timeout", .text "१२"), ("url", .text "http://x"),
      ("feedId", .null), ("initialLookbackDays", .text "two")]
    let env : Environment := fun name =>
      if name = "SIRI_URL" then some "http://x"
      else if name = "SIRI_REQUEST_TIMEOUT" then some "१२"
      else if name = "SIRI_INITIAL_LOOKBACK_DAYS" then some "two" else none
    SameTexts node env ∧ ofNode? node = .error (.notNumeric "initialLookbackDays" "two") ∧
      ∃ e, ofEnvironment? env .none = .error e ∧ e.kind = .configuration ∧
        SameButName "initialLookbackDays must be numeric, got 'two'" e.message := by
  intro node env
  have hsame : SameTexts node env := ⟨⟨_, rfl, rfl⟩, .inr rfl, rfl, rfl⟩
  have hnode : ofNode? node = .error (.notNumeric "initialLookbackDays" "two") := by
    decide +kernel
  have hmessage : (SettingsError.notNumeric "initialLookbackDays" "two").message =
      "initialLookbackDays must be numeric, got 'two'" := by decide +kernel
  refine ⟨hsame, hnode, ?_⟩
  rcases sources_agree hsame with ⟨s, -, hs, -⟩ | ⟨e, e', he, he', hkind, htold⟩
  · rw [hnode] at hs
    cases hs
  · rw [hnode] at he
    cases he
    rw [hmessage] at htold
    exact ⟨e', he', hkind.symm, htold⟩

/-- The word for not-a-number is a timeout like others to both readers, but no settings are equal
with it. -/
theorem sources_not_equal :
    let node : Json := .object [("url", .text "https://x"), ("timeout", .text "NaN")]
    let env : Environment := fun name =>
      if name = "SIRI_URL" then some "https://x"
      else if name = "SIRI_REQUEST_TIMEOUT" then some "NaN" else none
    SameTexts node env ∧ ∃ s s', ofNode? node = .ok s ∧ ofEnvironment? env .none = .ok s' ∧
      s.equals s' = false := by
  intro node env
  let s : Settings := ⟨"https://x", none, .real .nan, defaultLookback⟩
  have hnode : ofNode? node = .ok s := toOption_eq_some.mp (by decide +kernel)
  have henv : ofEnvironment? env .none = .ok s := toOption_eq_some.mp (by decide +kernel)
  exact ⟨⟨⟨_, rfl, rfl⟩, .inl rfl, rfl, .inl rfl⟩, s, s, hnode, henv, by decide +kernel⟩

end Settings

end TimetableFeed
