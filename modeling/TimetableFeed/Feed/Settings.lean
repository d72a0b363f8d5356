import TimetableFeed.Json.Literal
import TimetableFeed.Number.Numeral
import TimetableFeed.Number.Quantity
import TimetableFeed.Time.Duration

/-!
# Settings

What a poller has to know about its feed: the address, an id for the consumers, how long a request
may take, and how far back the first snapshot may lie. Settings are given one by one, by a node of a
configuration file, or by environment variables, which explicit values override.

Main definitions: `Settings.of?`, `Settings.ofNode?`, `Settings.ofEnvironment?`.
-/

namespace TimetableFeed

/-- What a poller knows about its feed. -/
structure Settings where
  url : String
  feedId : Option String
  timeout : Quantity
  lookback : Duration
  deriving DecidableEq, Repr

/-- Whether settings that have been read apart from each other are equal. -/
def Settings.equals (s s' : Settings) : Bool :=
  s.url == s'.url && s.feedId == s'.feedId && s.timeout.equals s'.timeout &&
    s.lookback == s'.lookback

inductive SettingsError where
  | noUrl
  | timeout (given : Quantity)
  | lookback
  | notNumeric (setting text : String)
  | duration (error : DurationError)
  deriving DecidableEq, Repr

def SettingsError.message : SettingsError → String
  | .noUrl => "Missing mandatory 'url' parameter"
  | .timeout given => "request_timeout must be positive, got " ++ given.write
  | .lookback => "initial_lookback must not be negative"
  | .notNumeric setting text => setting ++ " must be numeric, got " ++ Text.quoted text
  | .duration error => error.message

/-- What callers tell errors of settings apart by. -/
inductive SettingsErrorKind where
  | configuration
  | value
  | overflow
  deriving DecidableEq, Repr

/-- The kind of the error: a lookback that is a number, but no length of a duration, is none of the
configuration. -/
def SettingsError.kind : SettingsError → SettingsErrorKind
  | .duration .notANumber => .value
  | .duration _ => .overflow
  | _ => .configuration

namespace Settings

/-- Thirty seconds. -/
def defaultTimeout : Quantity := .real (.ofInt 30)

/-- Thirty days. -/
def defaultLookback : Duration := ⟨30 * dayMicros, by decide, by decide⟩

/-- The settings with the given values. The address must be a text, and not a blank one; it is none
if something else was given. -/
def of? (url : Option String) (feedId : Option String) (timeout : Quantity) (lookback : Duration) :
    Except SettingsError Settings :=
  match url.filter fun url => !Text.isBlank url with
  | none => .error .noUrl
  | some url =>
    if timeout.isNonPositive then .error (.timeout timeout)
    else if lookback.micros < 0 then .error .lookback
    else .ok ⟨url, feedId, timeout, lookback⟩

def readNumber (setting text : String) : Except SettingsError Binary64 :=
  match Numeral.real? text with
  | some x => .ok x
  | none => .error (.notNumeric setting text)

/-- The timeout that the text of a setting writes, or the default. -/
def readTimeout (setting : String) : Option String → Except SettingsError Quantity
  | none => .ok defaultTimeout
  | some text => (readNumber setting text).map .real

/-- The lookback in days that the text of a setting writes, or the default. -/
def readLookback (setting : String) : Option String → Except SettingsError Duration
  | none => .ok defaultLookback
  | some text => do
    let days ← readNumber setting text
    (Duration.ofDays? days).mapError .duration

/-! ## Configuration nodes -/

/-- The text of a member that is there and not null. -/
def memberText (node : Json) (key : String) : Option String :=
  match node.get? key with
  | none | some .null => none
  | some value => some value.plainText

def ofNode? (node : Json) : Except SettingsError Settings :=
  match node.get? "url" with
  | some (.text url) => do
    let timeout ← readTimeout "timeout" (memberText node "timeout")
    let lookback ← readLookback "initialLookbackDays" (memberText node "initialLookbackDays")
    of? (some url) (memberText node "feedId") timeout lookback
  | _ => .error .noUrl

/-! ## Environment variables -/

abbrev Environment := String → Option String

/-- Values that are given explicitly. The address is none if what was given is not a text. -/
structure Overrides where
  url? : Option (Option String)
  feedId? : Option (Option String)
  timeout? : Option Quantity
  lookback? : Option Duration
  deriving DecidableEq, Repr

def Overrides.none : Overrides := ⟨.none, .none, .none, .none⟩

/-- The settings that an environment gives, as far as they are not given explicitly. A variable
whose value is overridden is not read. -/
def ofEnvironment? (env : Environment) (given : Overrides) : Except SettingsError Settings := do
  let timeout ←
    match given.timeout? with
    | some timeout => pure timeout
    | none => readTimeout "SIRI_REQUEST_TIMEOUT" (env "SIRI_REQUEST_TIMEOUT")
  let lookback ←
    match given.lookback? with
    | some lookback => pure lookback
    | none => readLookback "SIRI_INITIAL_LOOKBACK_DAYS" (env "SIRI_INITIAL_LOOKBACK_DAYS")
  of? (given.url?.getD (env "SIRI_URL")) (given.feedId?.getD (env "SIRI_FEED_ID")) timeout lookback

end Settings

end TimetableFeed
