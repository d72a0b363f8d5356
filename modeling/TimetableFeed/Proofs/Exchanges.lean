import TimetableFeed.Proofs.PollerRuns

/-!
# What comes of an exchange

What a fetch gives depends on whether the exchange fails, is answered that there is nothing to
deliver, or comes to a status and a body that has been read. Every error that the fetch makes itself
shows the masked address.

Main definition: `Fetch.Answers`. Main statement: `fetch_by_exchange`.
-/

namespace TimetableFeed

/-! ## What a fetch gives -/

theorem Failure.fetched_timeout {fault : HttpFault} (h : fault.isTimeout = true) (message url : String)
    (timeout : Quantity) :
    (Failure.http fault message).fetched url timeout = .failed (.timedOut url timeout fault) := by
  rw [Failure.fetched, if_pos h]

theorem Failure.fetched_fault {fault : HttpFault} (h : fault.isTimeout = false) (message url : String)
    (timeout : Quantity) :
    (Failure.http fault message).fetched url timeout = .failed (.failed url fault message) := by
  rw [Failure.fetched, h, if_neg Bool.false_ne_true]

theorem Failure.fetched_ne_nothing (url : String) (timeout : Quantity) (f : Failure) :
    f.fetched url timeout ≠ .nothing := by
  intro h
  rcases f.fetched_cases url timeout with ⟨e, he⟩ | ⟨fault, message, -, he⟩
  · rw [he] at h
    cases h
  · rw [he] at h
    cases h

namespace Reply

variable {r : Reply}

theorem fetched_eq_nothing_iff (url : String) (timeout : Quantity) :
    r.fetched url timeout = .nothing ↔ r.HasNothing ∨ r.status = 200 ∧ r.Reads [] := by
  rcases r.course_cases with ⟨f, hfails⟩ | hnothing | ⟨body, hreads⟩
  · rw [fetched_of_fails hfails]
    constructor
    · intro h
      exact absurd h (f.fetched_ne_nothing url timeout)
    · rintro (hnothing | ⟨-, hreads⟩)
      · exact absurd hnothing (not_hasNothing_of_fails hfails)
      · exact absurd hreads (not_reads_of_fails hfails)
  · exact iff_of_true (fetched_of_hasNothing hnothing url timeout) (.inl hnothing)
  · rw [fetched_of_reads hreads]
    constructor
    · intro h
      split at h
      · cases h
      · rename_i hstatus
        cases body with
        | nil => exact .inr ⟨Decidable.not_not.mp hstatus, hreads⟩
        | cons b rest => cases h
    · rintro (hnothing | ⟨hstatus, hempty⟩)
      · exact absurd hnothing.status hreads.content
      · rw [hreads.unique hempty, if_neg (not_not_intro hstatus)]
        rfl

end Reply

/-- The fetch gives what the exchange comes to; `shown` is the masked address. -/
structure Fetch.Answers (f : Fetch) (s : Settings) (shown : String) (r : Reply) : Prop where
  /-- One request is sent, to the address as it is, and no other goes over the connection. -/
  request : ∃ headers, f.request? = some ⟨s.url, headers, s.timeout⟩ ∧
    ∀ session past c, (⟨s, session, .own past (some c)⟩ : Poller).fetchThrough r =
      (f.result, .own past (some ⟨c.requests ++ [⟨s.url, headers, s.timeout⟩], c.closed⟩),
        [.requesting shown])
  /-- Nothing comes of the answer that there is nothing to deliver, and of an empty body. -/
  nothing : f.result = .nothing ↔ r.HasNothing ∨ r.status = 200 ∧ r.Reads []
  /-- Of the answer that there is nothing to deliver no body is read. -/
  unread : r.HasNothing → ∀ body? readFailure?, fetch s { r with body?, readFailure? } = f
  /-- A body comes as it has been read. -/
  body : ∀ bytes, f.result = .body bytes ↔ r.status = 200 ∧ r.Reads bytes ∧ bytes ≠ []
  /-- An error of the fetch that the other side reports is passed on. -/
  reported : ∀ e, r.Fails (.fetch e) → f.result = .failed e
  /-- A timeout is one, whatever else it is. -/
  timeout : ∀ fault message, r.Fails (.http fault message) → fault.isTimeout = true →
    ∃ e, f.result = .failed e ∧ e.cause? = some fault ∧ e.status? = none ∧
      e.message = "Request to " ++ shown ++ " timed out after " ++ s.timeout.write ++ "s"
  fault : ∀ fault message, r.Fails (.http fault message) → fault.isTimeout = false →
    ∃ e, f.result = .failed e ∧ e.cause? = some fault ∧ e.status? = none ∧
      e.message = "Request to " ++ shown ++ " failed: " ++ message
  foreign : ∀ fault message, r.Fails (.foreign fault message) →
    f.result = .escaped (.failure (.foreign fault message))
  /-- A body with another status is quoted, but no more than the beginning. -/
  status : ∀ bytes, r.Reads bytes → r.status ≠ 200 →
    ∃ e, f.result = .failed e ∧ e.cause? = none ∧ e.status? = some r.status ∧
      e.message = "HTTP " ++ integerText r.status ++ " from " ++ shown ++ ": " ++
        Text.quotedBytes (bytes.take 200)
  /-- The fetch's own errors show the masked address. -/
  url : ∀ e, f.result = .failed e → ¬ r.Fails (.fetch e) → e.url = shown

/-- **What a fetch gives**, for every address that can be shown and whatever the other side does. -/
theorem fetch_by_exchange {s : Settings} {shown : String} (hurl : Url.masked? s.url = .ok shown)
    (r : Reply) : (fetch s r).Answers s shown r := by
  have hfetch : ∀ r, fetch s r = ⟨some s.request, some shown, r.fetched shown s.timeout⟩ := by
    intro r
    rw [fetch, hurl]
  rw [hfetch]
  refine {
    request := ⟨s.request.headers, rfl, fun session past c => by rw [Poller.fetchThrough, hfetch]; rfl⟩
    nothing := Reply.fetched_eq_nothing_iff shown s.timeout
    unread := ?_
    body := fun bytes => Reply.fetched_eq_body_iff shown s.timeout
    reported := fun e hfails => Reply.fetched_of_fails hfails shown s.timeout
    timeout := ?_
    fault := ?_
    foreign := fun fault message hfails => Reply.fetched_of_fails hfails shown s.timeout
    status := ?_
    url := ?_ }
  · intro hnothing body? readFailure?
    have hother : { r with body?, readFailure? }.HasNothing := ⟨hnothing.answered, hnothing.status⟩
    rw [hfetch, Reply.fetched_of_hasNothing hother, Reply.fetched_of_hasNothing hnothing]
  · intro fault message hfails htimeout
    exact ⟨_, (Reply.fetched_of_fails hfails shown s.timeout).trans
      (Failure.fetched_timeout htimeout message shown s.timeout), rfl, rfl, rfl⟩
  · intro fault message hfails htimeout
    exact ⟨_, (Reply.fetched_of_fails hfails shown s.timeout).trans
      (Failure.fetched_fault htimeout message shown s.timeout), rfl, rfl, rfl⟩
  · intro bytes hreads hstatus
    have hresult := Reply.fetched_of_reads hreads shown s.timeout
    rw [if_pos hstatus] at hresult
    exact ⟨_, hresult, rfl, rfl, rfl⟩
  · intro e he hown
    have he : r.fetched shown s.timeout = .failed e := he
    rcases r.course_cases with ⟨f, hfails⟩ | hnothing | ⟨body, hreads⟩
    · rw [Reply.fetched_of_fails hfails] at he
      cases f with
      | fetch e' =>
          obtain rfl := Fetched.failed.inj he
          exact absurd hfails hown
      | foreign fault message => cases he
      | http fault message =>
          cases htimeout : fault.isTimeout with
          | true =>
              rw [Failure.fetched_timeout htimeout] at he
              obtain rfl := Fetched.failed.inj he
              rfl
          | false =>
              rw [Failure.fetched_fault htimeout] at he
              obtain rfl := Fetched.failed.inj he
              rfl
    · rw [Reply.fetched_of_hasNothing hnothing] at he
      cases he
    · rw [Reply.fetched_of_reads hreads] at he
      split at he
      · obtain rfl := Fetched.failed.inj he
        rfl
      · split at he <;> cases he

def keyedSettings : Settings :=
  ⟨"https://feed.example/et?key=s3cret", none, .whole 45, Settings.defaultLookback⟩

/-- An answer whose body stops coming: the client's own kind of timeout counts as one, and the
status of the answer is not told. -/
theorem fetch_by_exchange_slow :
    let shown := "https://feed.example/et?key=<redacted>"
    let r : Reply := ⟨none, 503, some [60], some (.http .serverTimeout "slow")⟩
    Url.masked? keyedSettings.url = .ok shown ∧ r.Fails (.http .serverTimeout "slow") ∧
      ∃ e, (fetch keyedSettings r).result = .failed e ∧ e.cause? = some .serverTimeout ∧
        e.status? = none ∧ e.url = shown ∧
        e.message = "Request to https://feed.example/et?key=<redacted> timed out after 45s" := by
  intro shown r
  have hurl : Url.masked? keyedSettings.url = .ok shown := toOption_eq_some.mp (by decide +kernel)
  have hfails : r.Fails (.http .serverTimeout "slow") := .reading rfl (by decide) rfl
  have hanswers := fetch_by_exchange hurl r
  obtain ⟨e, hresult, hcause, hstatus, hmessage⟩ := hanswers.timeout _ _ hfails rfl
  have hown : ¬ r.Fails (.fetch e) := by
    rintro (failure | ⟨-, -, failure⟩) <;> cases failure
  exact ⟨hurl, hfails, e, hresult, hcause, hstatus, hanswers.url e hresult hown, hmessage⟩

end TimetableFeed
