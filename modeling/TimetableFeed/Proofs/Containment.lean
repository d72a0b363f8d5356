import TimetableFeed.Proofs.PollerRuns

/-!
# What a poll contains

A poll that has something to fetch through turns all that the exchange comes to into a result: an
answer with any status and any body, nothing at all, a timeout, a fault of the connection, and an
error that a fetcher reports. One thing remains that it cannot turn into a result: an address that
cannot be shown. The settings accept it, and every poll and every description of the poller fails
on it.

Main definition: `Link.Expects`. Main statement: `poll_returns_iff_shown`.
-/

namespace TimetableFeed

/-! ## What may come of an exchange -/

/-- The failure belongs to the exchange: a fault of HTTP, or an error that is reported as one. -/
def Failure.OfExchange : Failure → Prop
  | .fetch _ => True
  | .http _ _ => True
  | .foreign _ _ => False

/-- What a link may be asked to bear: a fetcher hands over a body or nothing, or it reports an
error; over a connection anything may happen to the exchange, before or while the body is read. -/
def Link.Expects (link : Link) (r : Reply) : Prop :=
  match link with
  | .fetcher _ => ∀ f, r.failure? = some f → ∃ e, f = .fetch e
  | _ => (∀ f, r.failure? = some f → f.OfExchange) ∧ ∀ f, r.readFailure? = some f → f.OfExchange

theorem Failure.fetched_of_exchange {f : Failure} (h : f.OfExchange) (url : String)
    (timeout : Quantity) : ∃ e, f.fetched url timeout = .failed e := by
  rcases f.fetched_cases url timeout with herror | ⟨fault, message, rfl, -⟩
  · exact herror
  · exact absurd h id

theorem Reply.fetched_ne_escaped {r : Reply} (hfailure : ∀ f, r.failure? = some f → f.OfExchange)
    (hread : ∀ f, r.readFailure? = some f → f.OfExchange) (url : String) (timeout : Quantity)
    (escape : Escape) : r.fetched url timeout ≠ .escaped escape := by
  intro h
  rcases r.course_cases with ⟨f, hfails⟩ | hnothing | ⟨body, hreads⟩
  · have hexchange : f.OfExchange := by
      cases hfails with
      | asking hasked => exact hfailure f hasked
      | reading _ _ hfailed => exact hread f hfailed
    obtain ⟨e, he⟩ := Failure.fetched_of_exchange hexchange url timeout
    rw [fetched_of_fails hfails, he] at h
    cases h
  · rw [fetched_of_hasNothing hnothing] at h
    cases h
  · rw [fetched_of_reads hreads] at h
    split at h
    · cases h
    · split at h <;> cases h

theorem Reply.delivered_ne_escaped {r : Reply}
    (hfailure : ∀ f, r.failure? = some f → ∃ e, f = .fetch e) (escape : Escape) :
    r.delivered ≠ .escaped escape := by
  intro h
  unfold Reply.delivered at h
  cases hf : r.failure? with
  | some f =>
      obtain ⟨e, rfl⟩ := hfailure f hf
      rw [hf] at h
      cases h
  | none =>
      rw [hf] at h
      cases hb : r.body? <;> simp [hb] at h

/-! ## Addresses -/

/-- The address can be shown without its credentials. -/
def Url.CanBeShown (url : String) : Prop := ∃ shown, Url.masked? url = .ok shown

/-- There are no brackets in the authority, and no compatibility characters. -/
def Url.HasPlainAuthority (url : String) : Prop :=
  ∀ c ∈ (Url.Parts.ofChars url.toList).authority,
    c ≠ '[' ∧ c ≠ ']' ∧ Url.hidesDelimiter c = false

theorem Url.canBeShown_of_plain {url : String} (hplain : Url.HasPlainAuthority url) :
    Url.CanBeShown url := by
  have hopen : (Url.Parts.ofChars url.toList).authority.contains '[' = false := by
    rw [List.contains_eq_mem, decide_eq_false_iff_not]
    exact fun hc => (hplain _ hc).1 rfl
  have hclose : (Url.Parts.ofChars url.toList).authority.contains ']' = false := by
    rw [List.contains_eq_mem, decide_eq_false_iff_not]
    exact fun hc => (hplain _ hc).2.1 rfl
  have hbrackets : Url.checkBrackets (Url.Parts.ofChars url.toList).authority = .ok () := by
    unfold Url.checkBrackets
    rw [hopen, hclose]
  have hdelimiters : Url.checkDelimiters (Url.Parts.ofChars url.toList).authority = .ok () := by
    unfold Url.checkDelimiters
    rw [if_neg]
    rw [List.any_eq_true]
    rintro ⟨c, hc, hhides⟩
    rw [(hplain c hc).2.2] at hhides
    cases hhides
  refine ⟨String.ofList (Url.Parts.ofChars url.toList).masked.write, ?_⟩
  have hread : Url.Parts.read? url.toList = .ok (Url.Parts.ofChars url.toList) := by
    show (do
      Url.checkBrackets (Url.Parts.ofChars url.toList).authority
      Url.checkDelimiters (Url.Parts.ofChars url.toList).authority
      return Url.Parts.ofChars url.toList) = _
    rw [hbrackets, hdelimiters]
    rfl
  unfold Url.masked?
  rw [hread]
  rfl

/-- Nothing escapes that the link may not be asked to bear. -/
theorem Link.fetched_ne_escaped {link : Link} {r : Reply} (hr : link.Expects r) (url : String)
    (timeout : Quantity) (escape : Escape) : link.fetched url timeout r ≠ .escaped escape := by
  cases link with
  | fetcher fetches => exact Reply.delivered_ne_escaped hr escape
  | given entered c => exact Reply.fetched_ne_escaped hr.1 hr.2 url timeout escape
  | own past current => exact Reply.fetched_ne_escaped hr.1 hr.2 url timeout escape

namespace Poller

theorem poll_returns {p : Poller} {shown : String}
    (hurl : Url.masked? p.settings.url = .ok shown) (hready : p.link.isReady = true) {r : Reply}
    (hr : p.link.Expects r) (timing : Timing) : ∃ o, (p.poll timing r).outcome = .ok o := by
  rw [poll_eq hurl hready]
  cases hfetched : p.link.fetched shown p.settings.timeout r with
  | escaped escape => exact absurd hfetched (Link.fetched_ne_escaped hr _ _ escape)
  | failed e => exact ⟨.noUpdate (.fetchFailed (some e)), rfl⟩
  | nothing => exact ⟨.noUpdate (.fetchFailed none), rfl⟩
  | body body => exact ⟨(p.session.consider shown timing body).outcome, rfl⟩

theorem describe_returns_iff (p : Poller) :
    (∃ text, p.describe? = .ok text) ↔ Url.CanBeShown p.settings.url := by
  unfold describe? Url.CanBeShown
  cases Url.masked? p.settings.url with
  | ok shown => exact ⟨fun _ => ⟨shown, rfl⟩, fun _ => ⟨"SiriLiteEtSource(" ++ shown ++ ")", rfl⟩⟩
  | error e =>
      constructor
      · rintro ⟨text, h⟩
        cases h
      · rintro ⟨shown, h⟩
        cases h

/-- **What escapes from a poll.** Of a poller that has been started and has something to fetch
through, whatever has been done with it before and whatever comes of the exchange, a poll gives a
result if and only if the address can be shown, and so does describing it. A plain authority is
enough for that. If the address cannot be shown, the poll raises the error of the address, asks for
nothing and leaves the poller as it was. -/
theorem poll_returns_iff_shown {settings : Settings} {link : Link} {now : Moment} {p : Poller}
    (hstart : start? settings link now = .ok p) (timing : Timing) (actions : List Action)
    (hready : (p.after timing actions).link.isReady = true) (r : Reply)
    (hr : (p.after timing actions).link.Expects r) :
    let q := p.after timing actions
    ((∃ o, (q.poll timing r).outcome = .ok o) ↔ Url.CanBeShown settings.url) ∧
      ((∃ text, q.describe? = .ok text) ↔ Url.CanBeShown settings.url) ∧
      (Url.HasPlainAuthority settings.url → Url.CanBeShown settings.url) ∧
      ∀ e, Url.masked? settings.url = .error e → q.poll timing r = ⟨.error (.url e), q, []⟩ := by
  obtain ⟨hsettings, -⟩ := start_eq hstart
  have hsame : (p.after timing actions).settings = settings := by
    rw [after_settings, hsettings]
  intro q
  have hunshown : ∀ e, Url.masked? settings.url = .error e →
      q.poll timing r = ⟨.error (.url e), q, []⟩ := by
    intro e he
    apply poll_unshown
    · rw [hsame]
      exact he
    · exact hready
  refine ⟨?_, ?_, Url.canBeShown_of_plain, hunshown⟩
  · constructor
    · rintro ⟨o, ho⟩
      cases hurl : Url.masked? settings.url with
      | ok shown => exact ⟨shown, hurl⟩
      | error e =>
          rw [hunshown e hurl] at ho
          cases ho
    · rintro ⟨shown, hurl⟩
      rw [← hsame] at hurl
      exact poll_returns hurl hready hr timing
  · rw [describe_returns_iff, hsame]

/-- A reading that times out, in the second entry of a poller with connections of its own. -/
theorem poll_returns_iff_shown_timeout :
    let p : Poller := ⟨plainSettings, idesSession, .own [] none⟩
    let r : Reply := ⟨none, 503, none, some (.http .serverTimeout "slow")⟩
    start? plainSettings (.own [] none) ides = .ok p ∧
      (p.after ⟨0, 0⟩ [.enter, .leave, .enter]).link.isReady = true ∧
      (p.after ⟨0, 0⟩ [.enter, .leave, .enter]).link.Expects r ∧
      ∃ o, ((p.after ⟨0, 0⟩ [.enter, .leave, .enter]).poll ⟨0, 0⟩ r).outcome = .ok o := by
  intro p r
  have hstart : start? plainSettings (.own [] none) ides = .ok p :=
    toOption_eq_some.mp (by decide +kernel)
  have hready : (p.after ⟨0, 0⟩ [.enter, .leave, .enter]).link.isReady = true := rfl
  have hr : (p.after ⟨0, 0⟩ [.enter, .leave, .enter]).link.Expects r := by
    constructor
    · intro f hf
      cases hf
    · intro f hf
      cases hf
      trivial
  have hshown : Url.CanBeShown plainSettings.url := ⟨"x", rfl⟩
  have hiff := (poll_returns_iff_shown hstart ⟨0, 0⟩ [.enter, .leave, .enter] hready r hr).1
  exact ⟨hstart, hready, hr, hiff.mpr hshown⟩

/-- Settings whose address opens a bracket that it does not close. -/
def bracketSettings : Settings :=
  ⟨"http://[::1/et.json", none, Settings.defaultTimeout, Settings.defaultLookback⟩

/-- The settings are accepted and the poller starts, but neither a fetcher that has nothing to
deliver nor an answer over a connection leads to a result, and the poller has no description. -/
theorem poll_escapes_unshown :
    let given : Poller := ⟨bracketSettings, idesSession, .fetcher 0⟩
    let own : Poller := ⟨bracketSettings, idesSession, .own [] none⟩
    Settings.of? (some "http://[::1/et.json") none Settings.defaultTimeout
        Settings.defaultLookback = .ok bracketSettings ∧
      start? bracketSettings (.fetcher 0) ides = .ok given ∧ given.link.isReady = true ∧
      given.link.Expects ⟨none, 0, none, none⟩ ∧
      (given.poll ⟨0, 0⟩ ⟨none, 0, none, none⟩).outcome = .error (.url .brackets) ∧
      given.describe? = .error .brackets ∧
      start? bracketSettings (.own [] none) ides = .ok own ∧ own.enter.link.isReady = true ∧
      own.enter.link.Expects (answer (emptyFeed "2023-03-15T10:00Z")) ∧
      (own.enter.poll ⟨0, 0⟩ (answer (emptyFeed "2023-03-15T10:00Z"))).outcome =
        .error (.url .brackets) := by
  intro given own
  have hmasked : Url.masked? bracketSettings.url = .error .brackets := rfl
  have hsettings : Settings.of? (some "http://[::1/et.json") none Settings.defaultTimeout
      Settings.defaultLookback = .ok bracketSettings := toOption_eq_some.mp (by decide +kernel)
  have hgiven : start? bracketSettings (.fetcher 0) ides = .ok given :=
    toOption_eq_some.mp (by decide +kernel)
  have hown : start? bracketSettings (.own [] none) ides = .ok own :=
    toOption_eq_some.mp (by decide +kernel)
  have hexpects : given.link.Expects ⟨none, 0, none, none⟩ := by
    intro f hf
    cases hf
  have hexpects' : own.enter.link.Expects (answer (emptyFeed "2023-03-15T10:00Z")) := by
    constructor
    · intro f hf
      cases hf
    · intro f hf
      cases hf
  have hready : given.link.isReady = true := rfl
  have hready' : own.enter.link.isReady = true := rfl
  have hpoll := poll_unshown (p := given) hmasked hready ⟨0, 0⟩ ⟨none, 0, none, none⟩
  have hpoll' := poll_unshown (p := own.enter) hmasked hready' ⟨0, 0⟩
    (answer (emptyFeed "2023-03-15T10:00Z"))
  have hdescribe : given.describe? = .error .brackets := by
    show (Url.masked? bracketSettings.url).map _ = _
    rw [hmasked]
    rfl
  exact ⟨hsettings, hgiven, hready, hexpects, congrArg Poll.outcome hpoll, hdescribe, hown, hready',
    hexpects', congrArg Poll.outcome hpoll'⟩

end Poller

end TimetableFeed
