import TimetableFeed.Command.Run
import TimetableFeed.Proofs.Masking
import TimetableFeed.Proofs.PollerRuns

/-!
# Secrecy of credentials

Nobody who watches a poller learns the credentials in the query of its address: two pollers whose
addresses differ in nothing else go through the same steps, whatever is done with them and whatever
the other side answers. Only the address itself and the requests tell them apart. The same holds of
two runs of the command that take their address from the environment.

Main definitions: `Poller.Twin`. Main statements: `Poller.Twin.act`, `Poller.Twin.steps`,
`Command.rounds_twin`, `credentials_stay_hidden`.
-/

namespace TimetableFeed

/-! ## What is left when addresses are taken out

The address stands in the settings and, once it has been asked for, in the requests of connections.
All else is kept. -/

def Settings.blind (s : Settings) : Settings := { s with url := "" }

def Request.blind (r : Request) : Request := { r with url := "" }

def Connection.blind (c : Connection) : Connection :=
  { c with requests := c.requests.map Request.blind }

def Link.blind : Link → Link
  | .fetcher fetches => .fetcher fetches
  | .given entered connection => .given entered connection.blind
  | .own past current => .own (past.map Connection.blind) (current.map Connection.blind)

def Poller.blind (p : Poller) : Poller := ⟨p.settings.blind, p.session, p.link.blind⟩

def Step.blind (s : Step) : Step := { s with poller := s.poller.blind }

def Command.Run.blind (r : Command.Run) : Command.Run :=
  { r with connections := r.connections.map Connection.blind }

namespace Link

theorem blind_isReady (link : Link) : link.blind.isReady = link.isReady := by
  cases link with
  | fetcher fetches => rfl
  | given entered c => rfl
  | own past current => cases current <;> rfl

theorem blind_connections (link : Link) :
    link.blind.connections = link.connections.map Connection.blind := by
  cases link with
  | fetcher fetches => rfl
  | given entered c => rfl
  | own past current => cases current <;> simp [blind, connections]

theorem blind_enter (link : Link) : link.enter.blind = link.blind.enter := by
  cases link with
  | fetcher fetches => rfl
  | given entered c => rfl
  | own past current => cases current <;> rfl

theorem blind_leave (link : Link) : link.leave.blind = link.blind.leave := by
  cases link with
  | fetcher fetches => rfl
  | given entered c => rfl
  | own past current => cases current <;> simp [blind, leave, Connection.blind]

theorem blind_note (link : Link) (request : Request) :
    (link.note request).blind = link.blind.note request.blind := by
  cases link with
  | fetcher fetches => rfl
  | given entered c => simp [blind, note, Connection.blind]
  | own past current => cases current <;> simp [blind, note, Connection.blind]

/-- What a link gives depends on its kind only. -/
theorem blind_fetched (link : Link) (url : String) (timeout : Quantity) (r : Reply) :
    link.blind.fetched url timeout r = link.fetched url timeout r := by
  cases link <;> rfl

theorem blind_requested (link : Link) (url : String) :
    link.blind.requested url = link.requested url := by
  cases link <;> rfl

end Link

/-! ## Pollers that cannot be told apart -/

/-- Two settings that look the same. -/
structure Settings.Twin (s t : Settings) : Prop where
  blind : s.blind = t.blind
  shown : Url.masked? s.url = Url.masked? t.url

namespace Settings.Twin

variable {s t : Settings}

theorem refl (s : Settings) : s.Twin s := ⟨rfl, rfl⟩

theorem feedId (h : s.Twin t) : s.feedId = t.feedId := (Settings.mk.inj h.blind).2.1

theorem timeout (h : s.Twin t) : s.timeout = t.timeout := (Settings.mk.inj h.blind).2.2.1

theorem lookback (h : s.Twin t) : s.lookback = t.lookback := (Settings.mk.inj h.blind).2.2.2

theorem request (h : s.Twin t) : s.request.blind = t.request.blind := by
  rw [Settings.request, Settings.request, h.timeout]
  rfl

end Settings.Twin

namespace Poller

/-- Two pollers that look the same. -/
structure Twin (p q : Poller) : Prop where
  settings : p.settings.Twin q.settings
  session : p.session = q.session
  link : p.link.blind = q.link.blind

namespace Twin

variable {p q : Poller}

theorem blind (h : p.Twin q) : p.blind = q.blind := by
  rw [Poller.blind, Poller.blind, h.settings.blind, h.session, h.link]

theorem isReady (h : p.Twin q) : p.link.isReady = q.link.isReady := by
  rw [← p.link.blind_isReady, h.link, q.link.blind_isReady]

theorem describe (h : p.Twin q) : p.describe? = q.describe? := by
  rw [describe?, describe?, h.settings.shown]

theorem enter (h : p.Twin q) : p.enter.Twin q.enter := by
  refine ⟨h.settings, h.session, ?_⟩
  rw [Poller.enter, Poller.enter, Link.blind_enter, h.link, Link.blind_enter]

theorem leave (h : p.Twin q) : p.leave.Twin q.leave := by
  refine ⟨h.settings, h.session, ?_⟩
  rw [Poller.leave, Poller.leave, Link.blind_leave, h.link, Link.blind_leave]

theorem asking (h : p.Twin q) : p.asking.Twin q.asking := by
  refine ⟨h.settings, h.session, ?_⟩
  rw [Poller.asking, Poller.asking, Link.blind_note, h.link, h.settings.request, Link.blind_note]

theorem fetched (h : p.Twin q) (url : String) (r : Reply) :
    p.link.fetched url p.settings.timeout r = q.link.fetched url q.settings.timeout r := by
  rw [← p.link.blind_fetched, h.link, h.settings.timeout, q.link.blind_fetched]

theorem requested (h : p.Twin q) (url : String) : p.link.requested url = q.link.requested url := by
  rw [← p.link.blind_requested, h.link, q.link.blind_requested]

theorem conclude (h : p.Twin q) (url : String) (timing : Timing) (f : Fetched) :
    (p.conclude url timing f).outcome = (q.conclude url timing f).outcome ∧
      (p.conclude url timing f).log = (q.conclude url timing f).log ∧
      (p.conclude url timing f).poller.Twin (q.conclude url timing f).poller := by
  cases f with
  | escaped escape => exact ⟨rfl, rfl, h⟩
  | failed e => exact ⟨rfl, rfl, h⟩
  | nothing => exact ⟨rfl, rfl, h⟩
  | body body =>
      unfold Poller.conclude
      rw [h.session]
      exact ⟨rfl, rfl, h.settings, rfl, h.link⟩

/-- **A poll tells no twins apart.** -/
theorem poll (h : p.Twin q) (timing : Timing) (r : Reply) :
    (p.poll timing r).outcome = (q.poll timing r).outcome ∧
      (p.poll timing r).log = (q.poll timing r).log ∧
      (p.poll timing r).poller.Twin (q.poll timing r).poller := by
  cases hready : q.link.isReady with
  | false =>
      rw [poll_notReady (h.isReady.trans hready), poll_notReady hready]
      exact ⟨rfl, rfl, h⟩
  | true =>
      have hready' := h.isReady.trans hready
      cases hurl : Url.masked? q.settings.url with
      | error e =>
          rw [poll_unshown (h.settings.shown.trans hurl) hready', poll_unshown hurl hready]
          exact ⟨rfl, rfl, h⟩
      | ok url =>
          rw [poll_eq (h.settings.shown.trans hurl) hready', poll_eq hurl hready, h.fetched,
            h.requested]
          obtain ⟨houtcome, hlog, hafter⟩ := h.asking.conclude url timing
            (q.link.fetched url q.settings.timeout r)
          exact ⟨houtcome, congrArg (q.link.requested url ++ ·) hlog, hafter⟩

/-- **Step lemma**: an action tells no twins apart. -/
theorem act (h : p.Twin q) (timing : Timing) (action : Action) :
    (p.act timing action).blind = (q.act timing action).blind ∧
      (p.act timing action).poller.Twin (q.act timing action).poller := by
  cases action with
  | enter => exact ⟨congrArg (Step.mk .entered []) h.enter.blind, h.enter⟩
  | leave => exact ⟨congrArg (Step.mk .left []) h.leave.blind, h.leave⟩
  | describe =>
      refine ⟨?_, h⟩
      show Step.mk (.described p.describe?) [] p.blind = Step.mk (.described q.describe?) [] q.blind
      rw [h.describe, h.blind]
  | poll r =>
      obtain ⟨houtcome, hlog, hpoller⟩ := h.poll timing r
      refine ⟨?_, hpoller⟩
      show Step.mk (.polled (p.poll timing r).outcome) (p.poll timing r).log
        (p.poll timing r).poller.blind = _
      rw [houtcome, hlog, hpoller.blind]
      rfl

/-- **Run lemma**: twins go through the same steps. -/
theorem steps (h : p.Twin q) (timing : Timing) (actions : List Action) :
    (p.steps timing actions).map Step.blind = (q.steps timing actions).map Step.blind := by
  induction actions generalizing p q with
  | nil => rfl
  | cons action rest ih =>
      obtain ⟨hstep, hafter⟩ := h.act timing action
      rw [Poller.steps, Poller.steps, List.map_cons, List.map_cons, hstep, ih hafter]

end Twin

/-- Pollers whose addresses are shown alike go through the same steps from their start on. -/
theorem steps_of_shown {url url' : String} (h : Url.masked? url = Url.masked? url')
    (settings : Settings) (link : Link) (now : Moment) (timing : Timing) (actions : List Action) :
    (start? { settings with url } link now).map (fun p =>
        (p.steps timing actions).map Step.blind) =
      (start? { settings with url := url' } link now).map (fun p =>
        (p.steps timing actions).map Step.blind) := by
  unfold start?
  dsimp only
  cases Session.start? now settings.lookback with
  | error e => rfl
  | ok session =>
      have htwin : Twin ⟨{ settings with url }, session, link⟩
          ⟨{ settings with url := url' }, session, link⟩ := ⟨⟨rfl, h⟩, rfl, rfl⟩
      exact congrArg Except.ok (htwin.steps timing actions)

end Poller

/-! ## The command -/

namespace Url

theorem not_isBlank_withQuery (front : List Char) (pieces : List (List Char))
    (fragment? : Option (List Char)) : Text.isBlank (withQuery front pieces fragment?) = false := by
  have hmark : Text.isBlankChar '?' = false := by decide
  simp [Text.isBlank, withQuery, hmark]

end Url

namespace Settings

variable {url url' : String}

/-- Results that look the same: one error, or settings that cannot be told apart. -/
inductive SameResult : Except SettingsError Settings → Except SettingsError Settings → Prop where
  | error (e : SettingsError) : SameResult (.error e) (.error e)
  | ok {s t : Settings} (h : s.Twin t) : SameResult (.ok s) (.ok t)

theorem SameResult.refl (r : Except SettingsError Settings) : SameResult r r := by
  cases r with
  | error e => exact .error e
  | ok s => exact .ok (.refl s)

theorem SameResult.bind {α : Type} (r : Except SettingsError α)
    {f g : α → Except SettingsError Settings} (h : ∀ a, SameResult (f a) (g a)) :
    SameResult (r >>= f) (r >>= g) := by
  cases r with
  | error e => exact .error e
  | ok a => exact h a

theorem of_alike (h : Url.Alike url url') (feedId : Option String) (timeout : Quantity)
    (lookback : Duration) :
    SameResult (of? (some url) feedId timeout lookback)
      (of? (some url') feedId timeout lookback) := by
  have hshown := Url.masked_of_alike h
  cases h with
  | same => exact .refl _
  | secrets hfront hpieces fragment? =>
      -- an address with a query is not blank, so neither is taken for missing
      unfold of?
      simp only [Option.filter, Url.not_isBlank_withQuery, Bool.not_false, if_true]
      split
      · exact .error _
      · split
        · exact .error _
        · exact .ok ⟨rfl, hshown⟩

def Environment.at (env : Environment) (url : String) : Environment :=
  fun name => if name = "SIRI_URL" then some url else env name

theorem ofEnvironment_alike (h : Url.Alike url url') (env : Environment) (given : Overrides) :
    SameResult (ofEnvironment? (env.at url) given) (ofEnvironment? (env.at url') given) := by
  have hother : ∀ name, name ≠ "SIRI_URL" → env.at url name = env.at url' name := by
    intro name hname
    rw [Environment.at, Environment.at, if_neg hname, if_neg hname]
  have hof : ∀ timeout lookback,
      SameResult (of? (given.url?.getD (env.at url "SIRI_URL"))
          (given.feedId?.getD (env.at url' "SIRI_FEED_ID")) timeout lookback)
        (of? (given.url?.getD (env.at url' "SIRI_URL"))
          (given.feedId?.getD (env.at url' "SIRI_FEED_ID")) timeout lookback) := by
    intro timeout lookback
    cases given.url? with
    | none => exact of_alike h _ timeout lookback
    | some given => exact .refl _
  unfold ofEnvironment?
  rw [hother "SIRI_REQUEST_TIMEOUT" (by decide), hother "SIRI_INITIAL_LOOKBACK_DAYS" (by decide),
    hother "SIRI_FEED_ID" (by decide)]
  -- whatever is read from the environment besides is read alike
  cases given.timeout? <;> cases given.lookback? <;>
    exact .bind _ fun timeout => .bind _ fun lookback => hof timeout lookback

end Settings

namespace Command

def Surroundings.at (w : Surroundings) (url : String) : Surroundings :=
  { w with environment := w.environment.at url }

@[simp] theorem Surroundings.at_environment (w : Surroundings) (url : String) :
    (w.at url).environment = w.environment.at url := rfl

@[simp] theorem Surroundings.at_now (w : Surroundings) (url : String) :
    (w.at url).now = w.now := rfl

@[simp] theorem Surroundings.at_timing (w : Surroundings) (url : String) :
    (w.at url).timing = w.timing := rfl

@[simp] theorem Surroundings.at_reply (w : Surroundings) (url : String) :
    (w.at url).reply = w.reply := rfl

variable (w : Surroundings) (o : Options) (url url' : String)

/-- **Run lemma** for the polls of the command. -/
theorem rounds_twin {p q : Poller} (h : p.Twin q) (attempt left : Nat) :
    (rounds (w.at url) o p attempt left).effects = (rounds (w.at url') o q attempt left).effects ∧
      (rounds (w.at url) o p attempt left).poller.Twin
        (rounds (w.at url') o q attempt left).poller ∧
      (rounds (w.at url) o p attempt left).ending =
        (rounds (w.at url') o q attempt left).ending := by
  induction left generalizing p q attempt with
  | zero => exact ⟨rfl, h, rfl⟩
  | succ left ih =>
      obtain ⟨houtcome, hlog, hpoller⟩ := h.poll w.timing (w.reply attempt)
      rw [rounds, rounds]
      cases pause? o attempt with
      | error crash => exact ⟨rfl, h, rfl⟩
      | ok pause =>
          simp only [Surroundings.at_timing, Surroundings.at_reply]
          rw [houtcome, hlog]
          cases (q.poll w.timing (w.reply attempt)).outcome with
          | error escape => exact ⟨rfl, hpoller, rfl⟩
          | ok outcome =>
              obtain ⟨heffects, hlater, hending⟩ := ih hpoller (attempt + 1)
              refine ⟨?_, hlater, hending⟩
              dsimp only
              rw [heffects]

theorem visit_twin {p q : Poller} (h : p.Twin q) :
    (visit (w.at url) o p).effects = (visit (w.at url') o q).effects ∧
      (visit (w.at url) o p).poller.Twin (visit (w.at url') o q).poller ∧
      (visit (w.at url) o p).ending = (visit (w.at url') o q).ending := by
  unfold visit
  rw [h.describe, h.settings.feedId]
  cases q.describe? with
  | error e => exact ⟨rfl, h, rfl⟩
  | ok description =>
      cases o.count with
      | none => exact ⟨rfl, h, rfl⟩
      | some count =>
          obtain ⟨heffects, hpoller, hending⟩ := rounds_twin w o url url' h 1 count.toNat
          refine ⟨?_, hpoller, hending⟩
          dsimp only
          rw [heffects]

variable {url url'}

theorem pollFeed_alike (h : Url.Alike url url') :
    (pollFeed (w.at url) o).blind = (pollFeed (w.at url') o).blind := by
  have hsettings := Settings.ofEnvironment_alike h w.environment o.overrides
  unfold pollFeed
  rw [Surroundings.at_environment, Surroundings.at_environment]
  generalize Settings.ofEnvironment? (w.environment.at url) o.overrides = r at hsettings ⊢
  generalize Settings.ofEnvironment? (w.environment.at url') o.overrides = r' at hsettings ⊢
  cases hsettings with
  | error e => rfl
  | @ok s t htwin =>
      unfold Poller.start?
      dsimp only
      rw [htwin.lookback, Surroundings.at_now, Surroundings.at_now]
      cases Session.start? w.now t.lookback with
      | error e => rfl
      | ok session =>
          have hstart : Poller.Twin ⟨s, session, .own [] none⟩ ⟨t, session, .own [] none⟩ :=
            ⟨htwin, rfl, rfl⟩
          obtain ⟨heffects, hpoller, hending⟩ := visit_twin w o url url' hstart.enter
          have hconnections := congrArg Link.connections hpoller.leave.link
          rw [Link.blind_connections, Link.blind_connections] at hconnections
          dsimp only [Except.map, Run.blind]
          rw [heffects, hending, hconnections]

end Command

/-- **Credentials stay hidden.** Two pollers whose addresses differ in the values of credentials in
the query only go through the same steps, whatever they fetch through, whatever is done with them
and whatever the other side does: the same descriptions, results and errors, the same log and the
same states, but for the addresses themselves. Two runs of the command that find such addresses in the
environment do the same and end alike. -/
theorem credentials_stay_hidden {url url' : String} (h : Url.Alike url url') :
    (∀ (settings : Settings) (link : Link) (now : Moment) (timing : Timing) (actions : List Action),
      (Poller.start? { settings with url } link now).map (fun p =>
          (p.steps timing actions).map Step.blind) =
        (Poller.start? { settings with url := url' } link now).map (fun p =>
          (p.steps timing actions).map Step.blind)) ∧
    ∀ (w : Command.Surroundings) (arguments : List String),
      (Command.run (w.at url) arguments).blind = (Command.run (w.at url') arguments).blind := by
  refine ⟨Poller.steps_of_shown (Url.masked_of_alike h), fun w arguments => ?_⟩
  unfold Command.run
  cases Command.Options.read? arguments with
  | error halt => cases halt <;> rfl
  | ok o =>
      by_cases hfile : o.file ≠ ""
      · simp only [if_pos hfile]
        rfl
      · simp only [if_neg hfile]
        exact Command.pollFeed_alike w o h

/-- A key whose name is partly escaped: it has a value in the one address and none in the other. -/
theorem credentials_stay_hidden_escaped :
    let url := "https://feed.example/et?line=1&%61piKey=s3cret%26#top"
    let url' := "https://feed.example/et?line=1&%61piKey#top"
    Url.Alike url url' ∧ Url.masked? url =
        .ok "https://feed.example/et?line=1&apiKey=<redacted>#top" ∧
      ∀ w : Command.Surroundings,
        (Command.run (w.at url) ["--json"]).blind = (Command.run (w.at url') ["--json"]).blind := by
  intro url url'
  have hurl : url = Url.withQuery "https://feed.example/et".toList
      ["line=1".toList, Url.pieceOf "%61piKey".toList (some "s3cret%26".toList)]
      (some "top".toList) := by decide
  have hurl' : url' = Url.withQuery "https://feed.example/et".toList
      ["line=1".toList, Url.pieceOf "%61piKey".toList none] (some "top".toList) := by decide
  have halike : Url.Alike url url' := by
    rw [hurl, hurl']
    refine .secrets (by decide) (.cons (.same (by decide)) (.cons (.secret (by decide) (by decide)
      (.inl (by decide)) ?_ ?_) .nil)) _
    · rintro _ ⟨⟩
      decide
    · rintro _ ⟨⟩
  exact ⟨halike, toOption_eq_some.mp (by decide +kernel),
    fun w => (credentials_stay_hidden halike).2 w ["--json"]⟩

end TimetableFeed
