import TimetableFeed.Proofs.Exchanges

/-!
# The status of a refusal

A server refuses with a status other than 200 and 204. The body of such an answer is read before the
status is looked at, since the error quotes it; if the reading fails, the error is about the reading.
So a refusal always becomes an error, which a poll hands on, but the error tells the status only if
the body has been read to its end.

Main definitions: `Reply.Refuses`, `FailsWith`. Main statement: `status_told_iff_read`.
-/

namespace TimetableFeed

namespace Reply

/-- The server answers with a status other than 200 and 204. Its body is read, or the exchange fails
on the way. -/
structure Refuses (r : Reply) : Prop where
  answered : r.failure? = none
  notOk : r.status ≠ 200
  content : r.status ≠ 204
  reading : ∀ f, r.readFailure? = some f → ∃ fault message, f = .http fault message

theorem Refuses.course_cases {r : Reply} (h : r.Refuses) :
    (∃ body, r.Reads body) ∨ ∃ fault message, r.Fails (.http fault message) := by
  rcases r.course_cases with ⟨f, hfails⟩ | hnothing | hreads
  · right
    rcases hfails with hasking | ⟨-, -, hread⟩
    · rw [h.answered] at hasking
      cases hasking
    · obtain ⟨fault, message, rfl⟩ := h.reading f hread
      exact ⟨fault, message, .reading h.answered h.content hread⟩
  · exact absurd hnothing.status h.content
  · exact .inl hreads

end Reply

/-! ## The error of a fetch, and of a poll -/

/-- Fetching fails with the error, and so does every poll for which it is fetched. -/
structure FailsWith (s : Settings) (r : Reply) (e : FetchError) : Prop where
  fetch : (fetch s r).result = .failed e
  /-- The poller fetches over a connection. -/
  connected : ∀ (p : Poller) (timing : Timing), p.settings = s → p.link.isReady = true →
    (∀ n, p.link ≠ .fetcher n) →
      (p.poll timing r).outcome = .ok (.noUpdate (.fetchFailed (some e)))
  /-- A ready-made fetcher fetches for the poller, and fails with the error. -/
  given : ∀ (p : Poller) (timing : Timing), p.settings = s → ∀ n, p.link = .fetcher n →
    ∀ told : Reply, told.failure? = some (.fetch e) →
      (p.poll timing told).outcome = .ok (.noUpdate (.fetchFailed (some e)))

/-- A poll hands on the error with which the fetch fails. -/
theorem Poller.poll_failed {p : Poller} {shown : String}
    (hurl : Url.masked? p.settings.url = .ok shown) (hready : p.link.isReady = true) {r : Reply}
    {e : FetchError} (hfailed : p.link.fetched shown p.settings.timeout r = .failed e)
    (timing : Timing) : (p.poll timing r).outcome = .ok (.noUpdate (.fetchFailed (some e))) := by
  rw [poll_eq hurl hready, hfailed]
  rfl

section

variable {s : Settings} {shown : String} (hurl : Url.masked? s.url = .ok shown) {r : Reply}

include hurl

theorem failsWith_of_fetch {e : FetchError} (hfailed : (fetch s r).result = .failed e) :
    FailsWith s r e := by
  constructor
  · exact hfailed
  · rintro p timing rfl hready hlink
    apply Poller.poll_failed hurl hready
    rw [Link.fetched_of_connection hlink]
    rwa [fetch, hurl] at hfailed
  · rintro p timing rfl n hlink told htold
    apply Poller.poll_failed hurl
    · rw [hlink]
      rfl
    · rw [hlink]
      show told.delivered = .failed e
      unfold Reply.delivered
      rw [htold]

/-- An exchange that fails has no status, be it that of a timeout or of another fault. -/
theorem fetch_fails_unstated {fault : HttpFault} {message : String}
    (hfails : r.Fails (.http fault message)) :
    ∃ e, (fetch s r).result = .failed e ∧ e.status? = none := by
  have hanswers := fetch_by_exchange hurl r
  by_cases htimeout : fault.isTimeout = true
  · obtain ⟨e, hfailed, -, hstatus, -⟩ := hanswers.timeout fault message hfails htimeout
    exact ⟨e, hfailed, hstatus⟩
  · have hother := eq_false_of_ne_true htimeout
    obtain ⟨e, hfailed, -, hstatus, -⟩ := hanswers.fault fault message hfails hother
    exact ⟨e, hfailed, hstatus⟩

/-- **The status of a refusal is told if and only if its body has been read to its end**, for every
address that can be shown. A refusal becomes an error of the fetch, and of the poll, in any case:
with its own status, or with none. -/
theorem status_told_iff_read (hrefuses : r.Refuses) :
    ∃ e, FailsWith s r e ∧ (e.status? = some r.status ↔ ∃ body, r.Reads body) ∧
      (e.status? = none ↔ ∃ f, r.Fails f) := by
  rcases hrefuses.course_cases with ⟨body, hreads⟩ | ⟨fault, message, hfails⟩
  · have hanswers := fetch_by_exchange hurl r
    obtain ⟨e, hfailed, -, hstatus, -⟩ := hanswers.status body hreads hrefuses.notOk
    refine ⟨e, failsWith_of_fetch hurl hfailed, iff_of_true hstatus ⟨body, hreads⟩, ?_⟩
    apply iff_of_false
    · rw [hstatus]
      exact Option.some_ne_none r.status
    · rintro ⟨f, hfails⟩
      exact Reply.not_reads_of_fails hfails hreads
  · obtain ⟨e, hfailed, hstatus⟩ := fetch_fails_unstated hurl hfails
    refine ⟨e, failsWith_of_fetch hurl hfailed, ?_, iff_of_true hstatus ⟨_, hfails⟩⟩
    apply iff_of_false
    · rw [hstatus]
      exact (Option.some_ne_none r.status).symm
    · rintro ⟨body, hreads⟩
      exact Reply.not_reads_of_fails hfails hreads

end

/-- A refusal whose body is there: a poller that has opened a connection tells its status. -/
theorem status_told_iff_read_gateway :
    let r : Reply := ⟨none, 502, some [98, 117, 115, 121], none⟩
    let p : Poller := ⟨keyedSettings, Poller.idesSession, .own [] (some .fresh)⟩
    Url.masked? keyedSettings.url = .ok "https://feed.example/et?key=<redacted>" ∧ r.Refuses ∧
      ∃ e, (fetch keyedSettings r).result = .failed e ∧
        (p.poll ⟨0, 0⟩ r).outcome = .ok (.noUpdate (.fetchFailed (some e))) ∧
        e.status? = some 502 := by
  intro r p
  have hurl : Url.masked? keyedSettings.url = .ok "https://feed.example/et?key=<redacted>" :=
    toOption_eq_some.mp (by decide +kernel)
  have hrefuses : r.Refuses := by
    refine ⟨rfl, by decide, by decide, ?_⟩
    intro f hf
    cases hf
  obtain ⟨e, hfails, htold, -⟩ := status_told_iff_read hurl hrefuses
  have hlink : ∀ n, p.link ≠ .fetcher n := by
    intro n hn
    cases hn
  have hstatus : e.status? = some 502 := by
    apply htold.mpr
    exact ⟨[98, 117, 115, 121], rfl, by decide, rfl, rfl⟩
  exact ⟨hurl, hrefuses, e, hfails.fetch, hfails.connected p ⟨0, 0⟩ rfl rfl hlink, hstatus⟩

/-- Two refusals whose bodies do not come to an end, one because the server takes too long and one
because it breaks off: the errors have no status. -/
theorem status_lost_in_reading :
    let slow : Reply := ⟨none, 503, none, some (.http .timeout "")⟩
    let broken : Reply := ⟨none, 404, some [103, 111, 110, 101], some (.http .payload "broken")⟩
    let p : Poller := ⟨Poller.plainSettings, Poller.idesSession, .own [] (some .fresh)⟩
    slow.Refuses ∧ broken.Refuses ∧
      (∃ e, (fetch Poller.plainSettings slow).result = .failed e ∧
        (p.poll ⟨0, 0⟩ slow).outcome = .ok (.noUpdate (.fetchFailed (some e))) ∧
        e.status? = none) ∧
      ∃ e, (fetch Poller.plainSettings broken).result = .failed e ∧
        (p.poll ⟨0, 0⟩ broken).outcome = .ok (.noUpdate (.fetchFailed (some e))) ∧
        e.status? = none := by
  intro slow broken p
  have hslow : slow.Refuses := by
    refine ⟨rfl, by decide, by decide, ?_⟩
    rintro f ⟨⟩
    exact ⟨.timeout, "", rfl⟩
  have hbroken : broken.Refuses := by
    refine ⟨rfl, by decide, by decide, ?_⟩
    rintro f ⟨⟩
    exact ⟨.payload, "broken", rfl⟩
  have hlink : ∀ n, p.link ≠ .fetcher n := by
    intro n hn
    cases hn
  have hurl : Url.masked? Poller.plainSettings.url = .ok "x" := rfl
  have hlate : FailsWith Poller.plainSettings slow
      (.timedOut "x" Settings.defaultTimeout .timeout) := failsWith_of_fetch hurl rfl
  have hcut : FailsWith Poller.plainSettings broken (.failed "x" .payload "broken") :=
    failsWith_of_fetch hurl rfl
  refine ⟨hslow, hbroken, ?_, ?_⟩
  · exact ⟨_, hlate.fetch, hlate.connected p ⟨0, 0⟩ rfl rfl hlink, rfl⟩
  · exact ⟨_, hcut.fetch, hcut.connected p ⟨0, 0⟩ rfl rfl hlink, rfl⟩

end TimetableFeed
