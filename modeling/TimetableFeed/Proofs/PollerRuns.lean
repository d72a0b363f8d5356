import TimetableFeed.Feed.Action
import TimetableFeed.Proofs.GateRuns
import TimetableFeed.Proofs.Polls
import TimetableFeed.Proofs.Results

/-!
# Runs of a poller

A poller against the bare gate. Of all that may be done with a poller, only a poll that brings a
readable delivery concerns the gate; entering, leaving, describing and every other poll, whatever
becomes of it, leave the session alone. So the sessions of a run are those of the gate over the
response timestamps of the deliveries, in their order.

Main statement: `steps_follow_gate`.
-/

namespace TimetableFeed

/-- The body that a poll over the link gets out of a reply: what a fetcher hands over, or the body
of an answer with the status 200, if it can be read and is not empty. -/
def Link.body? (link : Link) (r : Reply) : Option (List UInt8) :=
  match link with
  | .fetcher _ => if r.failure? = none then r.body? else none
  | link =>
    if link.isReady ∧ r.failure? = none ∧ r.status = 200 ∧ r.readFailure? = none then
      r.body?.filter (· ≠ [])
    else none

/-- The delivery that an action brings: that of a poll whose body can be decoded. -/
def Link.delivery? (link : Link) : Action → Option ServiceDelivery
  | .poll r => (link.body? r).bind fun body => (decode? body).toOption
  | _ => none

namespace Poller

/-- The deliveries that some actions bring, in their order. -/
def deliveries (timing : Timing) (p : Poller) : List Action → List ServiceDelivery
  | [] => []
  | action :: rest =>
    (p.link.delivery? action).toList ++ (p.act timing action).poller.deliveries timing rest

/-- What a poll makes of a delivery once the gate has judged it. -/
def outcomeOf (mode : DatasetMode) (d : ServiceDelivery) (accepted : Bool) : Outcome :=
  if accepted then
    .accepted ⟨d.estimatedTimetableDeliveries, mode, d.responseTimestamp, d.producerRef⟩
  else .noUpdate .stale

end Poller

/-! ## What a poll fetches -/

theorem Reply.delivered_eq_body {r : Reply} {body : List UInt8} :
    r.delivered = .body body ↔ r.failure? = none ∧ r.body? = some body := by
  unfold Reply.delivered
  cases hf : r.failure? with
  | none =>
      cases hb : r.body? with
      | none => simp
      | some bytes => simp
  | some failure => cases failure <;> simp

theorem Reply.fetched_eq_body {url : String} {timeout : Quantity} {r : Reply}
    {body : List UInt8} :
    r.fetched url timeout = .body body ↔
      r.failure? = none ∧ r.status = 200 ∧ r.readFailure? = none ∧ r.body? = some body ∧
        body ≠ [] := by
  rw [fetched_eq_body_iff]
  constructor
  · rintro ⟨hstatus, ⟨hanswered, -, hcomplete, hread⟩, hne⟩
    cases hbody : r.body? with
    | none =>
        rw [hbody] at hread
        exact absurd hread.symm hne
    | some bytes =>
        rw [hbody] at hread
        exact ⟨hanswered, hstatus, hcomplete, congrArg some hread, hne⟩
  · rintro ⟨hanswered, hstatus, hcomplete, hbody, hne⟩
    have hcontent : r.status ≠ 204 := by
      rw [hstatus]
      decide
    exact ⟨hstatus, ⟨hanswered, hcontent, hcomplete, by rw [hbody]; rfl⟩, hne⟩

theorem Link.isReady_of_body {link : Link} {r : Reply} {body : List UInt8}
    (h : link.body? r = some body) : link.isReady = true := by
  cases link with
  | fetcher fetches => rfl
  | _ =>
      unfold Link.body? at h
      split at h
      · rename_i hlink
        cases hlink
      · split at h
        · rename_i hcond
          exact hcond.1
        · cases h

theorem Link.fetched_eq_body {link : Link} (hready : link.isReady = true) (url : String)
    (timeout : Quantity) (r : Reply) (body : List UInt8) :
    link.fetched url timeout r = .body body ↔ link.body? r = some body := by
  cases link with
  | fetcher fetches =>
      show r.delivered = _ ↔ _
      rw [Reply.delivered_eq_body, Link.body?]
      by_cases hf : r.failure? = none <;> simp [hf]
  | _ =>
      show r.fetched url _ = _ ↔ _
      rw [Reply.fetched_eq_body]
      simp [Link.body?, hready, Option.filter_eq_some_iff, and_assoc]

namespace Poller

/-! ## One step -/

/-- A poll that gets a body considers it. -/
theorem poll_body {p : Poller} {url : String} (hurl : Url.masked? p.settings.url = .ok url)
    {r : Reply} {body : List UInt8} (hbody : p.link.body? r = some body) (timing : Timing) :
    (p.poll timing r).outcome = .ok (p.session.consider url timing body).outcome ∧
      (p.poll timing r).poller.session = (p.session.consider url timing body).session := by
  have hready := Link.isReady_of_body hbody
  have hfetched := (Link.fetched_eq_body hready url p.settings.timeout r body).mpr hbody
  rw [poll_eq hurl hready, hfetched]
  exact ⟨rfl, rfl⟩

/-- A poll without a body leaves the session alone; what it gives, if anything, is a failure to
fetch. -/
theorem poll_noBody {p : Poller} {url : String} (hurl : Url.masked? p.settings.url = .ok url)
    {r : Reply} (hbody : p.link.body? r = none) (timing : Timing) :
    (p.poll timing r).poller.session = p.session ∧
      ∀ o, (p.poll timing r).outcome = .ok o → ∃ e, o = .noUpdate (.fetchFailed e) := by
  cases hready : p.link.isReady with
  | false =>
      rw [poll_notReady hready]
      exact ⟨rfl, fun o h => nomatch h⟩
  | true =>
      rw [poll_eq hurl hready]
      -- of the four things that a fetch may come to, only a body could reach the gate
      cases hfetched : p.link.fetched url p.settings.timeout r with
      | body body =>
          rw [Link.fetched_eq_body hready, hbody] at hfetched
          cases hfetched
      | escaped escape => exact ⟨rfl, fun o h => nomatch h⟩
      | nothing => exact ⟨rfl, fun o h => ⟨none, (Except.ok.inj h).symm⟩⟩
      | failed e => exact ⟨rfl, fun o h => ⟨some e, (Except.ok.inj h).symm⟩⟩

theorem consider_delivery (s : Session) (url : String) (timing : Timing) {body : List UInt8}
    {d : ServiceDelivery} (h : decode? body = .ok d) :
    (s.consider url timing body).outcome =
        outcomeOf s.mode d (Gate.judge s d.responseTimestamp).accepted ∧
      (s.consider url timing body).session = (Gate.judge s d.responseTimestamp).session := by
  unfold Session.consider outcomeOf
  rw [h]
  cases hj : (Gate.judge s d.responseTimestamp).accepted with
  | true => simp [hj]
  | false => simp [hj]

theorem consider_error (s : Session) (url : String) (timing : Timing) {body : List UInt8}
    {e : DecodeError} (h : decode? body = .error e) :
    (s.consider url timing body).outcome = .noUpdate (.decodeFailed e) ∧
      (s.consider url timing body).session = s := by
  unfold Session.consider
  rw [h]
  exact ⟨rfl, rfl⟩

/-- **Step lemma**: an action that brings a delivery is judged by the gate. -/
theorem act_delivery {p : Poller} {url : String} (hurl : Url.masked? p.settings.url = .ok url)
    {action : Action} {d : ServiceDelivery} (hd : p.link.delivery? action = some d)
    (timing : Timing) :
    (p.act timing action).result =
        .polled (.ok (outcomeOf p.session.mode d
          (Gate.judge p.session d.responseTimestamp).accepted)) ∧
      (p.act timing action).poller.session =
        (Gate.judge p.session d.responseTimestamp).session := by
  cases action with
  | poll r =>
      obtain ⟨body, hbody, hdecode⟩ := Option.bind_eq_some_iff.mp hd
      have hok : decode? body = .ok d := toOption_eq_some.mp hdecode
      obtain ⟨houtcome, hsession⟩ := poll_body hurl hbody timing
      obtain ⟨hjudged, hnext⟩ := consider_delivery p.session url timing hok
      refine ⟨?_, ?_⟩
      · show Result.polled (p.poll timing r).outcome = _
        rw [houtcome, hjudged]
      · show (p.poll timing r).poller.session = _
        rw [hsession, hnext]
  | enter => cases hd
  | leave => cases hd
  | describe => cases hd

/-- The outcome tells of a failure to fetch or to decode. -/
def Fails (o : Outcome) : Prop :=
  (∃ e, o = .noUpdate (.fetchFailed e)) ∨ ∃ e, o = .noUpdate (.decodeFailed e)

/-- **Step lemma**: an action that brings no delivery leaves the session alone. -/
theorem act_idle {p : Poller} {url : String} (hurl : Url.masked? p.settings.url = .ok url)
    {action : Action} (hd : p.link.delivery? action = none) (timing : Timing) :
    (p.act timing action).poller.session = p.session ∧
      ∀ o, (p.act timing action).result = .polled (.ok o) → Fails o := by
  cases action with
  | enter => exact ⟨rfl, fun o h => nomatch h⟩
  | leave => exact ⟨rfl, fun o h => nomatch h⟩
  | describe => exact ⟨rfl, fun o h => nomatch h⟩
  | poll r =>
      cases hbody : p.link.body? r with
      | none =>
          obtain ⟨hsession, hfails⟩ := poll_noBody hurl hbody timing
          exact ⟨hsession, fun o h => Or.inl (hfails o (Result.polled.inj h))⟩
      | some body =>
          obtain ⟨houtcome, hsession⟩ := poll_body hurl hbody timing
          cases hdecode : decode? body with
          | ok d => simp [Link.delivery?, hbody, hdecode, Except.toOption] at hd
          | error e =>
              obtain ⟨hfailed, hsame⟩ := consider_error p.session url timing hdecode
              refine ⟨?_, ?_⟩
              · show (p.poll timing r).poller.session = _
                rw [hsession, hsame]
              · intro o h
                have ho : (p.poll timing r).outcome = .ok o := Result.polled.inj h
                rw [houtcome, hfailed] at ho
                exact Or.inr ⟨e, (Except.ok.inj ho).symm⟩

theorem act_settings (timing : Timing) (p : Poller) (action : Action) :
    (p.act timing action).poller.settings = p.settings := by
  cases action with
  | poll r =>
      show (p.poll timing r).poller.settings = _
      cases hready : p.link.isReady with
      | false => rw [poll_notReady hready]
      | true =>
          cases hurl : Url.masked? p.settings.url with
          | error e => rw [poll_unshown hurl hready]
          | ok url =>
              rw [poll_eq hurl hready]
              exact conclude_settings p.asking url timing _
  | _ => rfl

/-- What an action does to the session, in one equation. -/
theorem act_session {p : Poller} {url : String} (hurl : Url.masked? p.settings.url = .ok url)
    (action : Action) (timing : Timing) :
    (p.act timing action).poller.session =
      Gate.final p.session
        ((p.link.delivery? action).toList.map ServiceDelivery.responseTimestamp) := by
  cases hd : p.link.delivery? action with
  | none => exact (act_idle hurl hd timing).1
  | some d => exact (act_delivery hurl hd timing).2

/-! ## Runs -/

theorem after_settings (timing : Timing) (p : Poller) (actions : List Action) :
    (p.after timing actions).settings = p.settings := by
  induction actions generalizing p with
  | nil => rfl
  | cons action rest ih =>
      show ((p.act timing action).poller.after timing rest).settings = _
      rw [ih, act_settings]

theorem steps_length (timing : Timing) (p : Poller) (actions : List Action) :
    (p.steps timing actions).length = actions.length := by
  induction actions generalizing p with
  | nil => rfl
  | cons action rest ih => simp only [steps, List.length_cons, ih]

/-- A step is what its action does to the poller that the actions before it have left. -/
theorem steps_getElem (timing : Timing) (p : Poller) (before : List Action) (action : Action)
    (after : List Action) :
    (p.steps timing (before ++ action :: after))[before.length]? =
      some ((p.after timing before).act timing action) := by
  induction before generalizing p with
  | nil => rfl
  | cons first rest ih => exact ih (p.act timing first).poller

theorem deliveries_append (timing : Timing) (p : Poller) (xs ys : List Action) :
    p.deliveries timing (xs ++ ys) =
      p.deliveries timing xs ++ (p.after timing xs).deliveries timing ys := by
  induction xs generalizing p with
  | nil => rfl
  | cons first rest ih =>
      show _ ++ (p.act timing first).poller.deliveries timing (rest ++ ys) = _
      rw [ih, ← List.append_assoc]
      rfl

/-- **Run lemma**: the session is the gate's, over the deliveries so far. -/
theorem after_session {p : Poller} {url : String} (hurl : Url.masked? p.settings.url = .ok url)
    (timing : Timing) (actions : List Action) :
    (p.after timing actions).session =
      Gate.final p.session
        ((p.deliveries timing actions).map ServiceDelivery.responseTimestamp) := by
  induction actions generalizing p with
  | nil => rfl
  | cons action rest ih =>
      have hnext : Url.masked? (p.act timing action).poller.settings.url = .ok url := by
        rw [act_settings, hurl]
      show ((p.act timing action).poller.after timing rest).session = _
      rw [ih hnext, act_session hurl, deliveries, List.map_append, Gate.final_append]

theorem start_eq {settings : Settings} {link : Link} {now : Moment} {p : Poller}
    (h : start? settings link now = .ok p) :
    p.settings = settings ∧ Session.start? now settings.lookback = .ok p.session := by
  unfold start? at h
  cases hs : Session.start? now settings.lookback with
  | error e => rw [hs] at h; cases h
  | ok s => rw [hs] at h; cases h; exact ⟨rfl, rfl⟩

theorem start_link {settings : Settings} {link : Link} {now : Moment} {p : Poller}
    (h : start? settings link now = .ok p) : p.link = link := by
  unfold start? at h
  cases hs : Session.start? now settings.lookback with
  | error e => rw [hs] at h; cases h
  | ok s => rw [hs] at h; cases h; rfl

/-- The decision on the delivery that an action brings: its place in the run of the gate is the
number of deliveries before it. -/
theorem run_getElem_delivery {p : Poller} {url : String}
    (hurl : Url.masked? p.settings.url = .ok url) (timing : Timing) (before : List Action)
    {action : Action} (after : List Action) {d : ServiceDelivery}
    (hd : (p.after timing before).link.delivery? action = some d) :
    (p.deliveries timing (before ++ action :: after))[(p.deliveries timing before).length]? =
        some d ∧
      (Gate.run p.session ((p.deliveries timing (before ++ action :: after)).map
          ServiceDelivery.responseTimestamp))[(p.deliveries timing before).length]? =
        some (Gate.judge (p.after timing before).session d.responseTimestamp) := by
  -- the deliveries of the earlier actions stand before this one, and those of the later behind
  have hsplit : p.deliveries timing (before ++ action :: after) =
      p.deliveries timing before ++ d ::
        ((p.after timing before).act timing action).poller.deliveries timing after := by
    rw [deliveries_append, deliveries, hd]
    rfl
  refine ⟨?_, ?_⟩
  · rw [hsplit, List.getElem?_append_right (Nat.le_refl _), Nat.sub_self]
    rfl
  · have hrun := Gate.run_getElem p.session
      ((p.deliveries timing before).map ServiceDelivery.responseTimestamp) d.responseTimestamp
      ((((p.after timing before).act timing action).poller.deliveries timing after).map
        ServiceDelivery.responseTimestamp)
    rw [List.length_map, ← after_session hurl] at hrun
    rw [hsplit, List.map_append, List.map_cons]
    exact hrun

/-- **A run of a poller is a run of the gate** over the response timestamps of the deliveries that
its polls decode. The `i`th such poll gives what the `i`th decision says, under the mode that the
poller had just before it, and leaves the session of that decision; every other action leaves the
session as it was, and a poll among them tells of a failure or lets one escape. -/
theorem steps_follow_gate {settings : Settings} {link : Link} {now : Moment} {p : Poller}
    {shown : String} (hurl : Url.masked? settings.url = .ok shown)
    (hstart : start? settings link now = .ok p) (timing : Timing) (actions : List Action) :
    ∃ s, Session.start? now settings.lookback = .ok s ∧
      let ds := p.deliveries timing actions
      let decisions := Gate.run s (ds.map ServiceDelivery.responseTimestamp)
      (p.steps timing actions).length = actions.length ∧
      decisions.length = ds.length ∧
      (p.after timing actions).session =
        Gate.final s (ds.map ServiceDelivery.responseTimestamp) ∧
      ∀ before action after, actions = before ++ action :: after →
        let q := p.after timing before
        let i := (p.deliveries timing before).length
        ∃ step, (p.steps timing actions)[before.length]? = some step ∧
          (∀ d, q.link.delivery? action = some d →
            ∃ decision, ds[i]? = some d ∧ decisions[i]? = some decision ∧
              decision.mode = q.session.mode ∧
              step.result = .polled (.ok (outcomeOf q.session.mode d decision.accepted)) ∧
              step.poller.session = decision.session) ∧
          (q.link.delivery? action = none →
            step.poller.session = q.session ∧
              ∀ o, step.result = .polled (.ok o) → Fails o) := by
  obtain ⟨rfl, hs⟩ := start_eq hstart
  refine ⟨p.session, hs, steps_length timing p actions, ?_, after_session hurl timing actions, ?_⟩
  · rw [Gate.run_length, List.length_map]
  · rintro before action after rfl
    have hurl' : Url.masked? (p.after timing before).settings.url = .ok shown := by
      rw [after_settings, hurl]
    refine ⟨_, steps_getElem timing p before action after, ?_, ?_⟩
    · intro d hd
      obtain ⟨hdelivery, hdecision⟩ := run_getElem_delivery hurl timing before after hd
      obtain ⟨hresult, hsession⟩ := act_delivery hurl' hd timing
      exact ⟨_, hdelivery, hdecision, Gate.judge_mode _ _, hresult, hsession⟩
    · intro hnone
      exact act_idle hurl' hnone timing

/-! ## A run with connections of its own -/

def emptyFeed (time : String) : List UInt8 :=
  Utf8.encode ("\x7b\"Siri\":\x7b\"serviceDelivery\":\x7b\"responseTimestamp\":\"" ++ time ++
    "\",\"producerRef\":\"A\"\x7d\x7d\x7d")

def answer (body : List UInt8) : Reply := ⟨none, 200, some body, none⟩

/-- A poll before the first entry, one of an answer that is no document, and two deliveries, of
which the second is older, with a new entry between them. -/
def reentry : List Action :=
  [.poll (answer (emptyFeed "2023-03-15T10:00Z")), .enter, .poll (answer [0x5B]),
    .poll (answer (emptyFeed "2023-03-15T10:00Z")), .leave, .enter,
    .poll (answer (emptyFeed "2023-03-15T09:59Z"))]

def noon (date : Date) : LocalTime := ⟨date, .ofMicros 43200000000⟩

def ides : Moment := ⟨noon ⟨2023, 3, 15, by decide, by decide, by decide⟩, some .utc⟩

def plainSettings : Settings := ⟨"x", none, Settings.defaultTimeout, Settings.defaultLookback⟩

/-- The session of a poller that starts at noon on 15 March 2023. -/
def idesSession : Session :=
  ⟨⟨noon ⟨2023, 2, 13, by decide, by decide, by decide⟩, .utc⟩, .full⟩

theorem steps_follow_gate_reentry :
    let p : Poller := ⟨plainSettings, idesSession, .own [] none⟩
    Url.masked? plainSettings.url = .ok "x" ∧
      start? plainSettings (.own [] none) ides = .ok p ∧
      (p.steps ⟨0, 0⟩ reentry).map Step.accepts =
        [false, false, false, true, false, false, false] ∧
      (∃ s, Session.start? ides plainSettings.lookback = .ok s ∧
        (p.after ⟨0, 0⟩ reentry).session =
          Gate.final s ((p.deliveries ⟨0, 0⟩ reentry).map ServiceDelivery.responseTimestamp)) := by
  intro p
  have hurl : Url.masked? plainSettings.url = .ok "x" := rfl
  have hstart : start? plainSettings (.own [] none) ides = .ok p :=
    toOption_eq_some.mp (by decide +kernel)
  obtain ⟨s, hs, -, -, hafter, -⟩ := steps_follow_gate hurl hstart ⟨0, 0⟩ reentry
  exact ⟨hurl, hstart, by decide +kernel, s, hs, hafter⟩

end Poller

end TimetableFeed
