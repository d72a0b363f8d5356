import TimetableFeed.Feed.Poller

/-!
# A poll in one equation

An exchange over HTTP fails when it is asked for or while its body is read; or it is answered that
there is nothing to deliver, and then nothing is read; or a status and a body have been read.

A poll does nothing if there is nothing to fetch through, or if the address cannot be shown.
Otherwise the link is asked once, whatever link it is, and the poller draws its conclusion from what
is fetched. All that is known of a poll follows from what the link gives and from the conclusions.

Main definitions: `Reply.Fails`, `Reply.Reads`, `Link.fetched`, `Poller.conclude`. Main statements:
`Reply.course_cases`, `Poller.poll_eq`.
-/

namespace TimetableFeed

/-! ## Exchanges -/

namespace Reply

/-- The exchange fails like this: at once, or while a body is read. The answer that there is nothing
to deliver has none. -/
inductive Fails (r : Reply) : Failure → Prop where
  | asking {f : Failure} (failure : r.failure? = some f) : r.Fails f
  | reading {f : Failure} (answered : r.failure? = none) (content : r.status ≠ 204)
      (failure : r.readFailure? = some f) : r.Fails f

/-- A body is read to its end; a body that is not there is empty. -/
structure Reads (r : Reply) (body : List UInt8) : Prop where
  answered : r.failure? = none
  content : r.status ≠ 204
  complete : r.readFailure? = none
  body_eq : r.body?.getD [] = body

/-- It is answered that there is nothing to deliver. -/
structure HasNothing (r : Reply) : Prop where
  answered : r.failure? = none
  status : r.status = 204

/-- One of the three is the case. -/
theorem course_cases (r : Reply) : (∃ f, r.Fails f) ∨ r.HasNothing ∨ ∃ body, r.Reads body := by
  cases hfailure : r.failure? with
  | some f => exact .inl ⟨f, .asking hfailure⟩
  | none =>
      by_cases hstatus : r.status = 204
      · exact .inr (.inl ⟨hfailure, hstatus⟩)
      · cases hread : r.readFailure? with
        | some f => exact .inl ⟨f, .reading hfailure hstatus hread⟩
        | none => exact .inr (.inr ⟨_, hfailure, hstatus, hread, rfl⟩)

variable {r : Reply} {body : List UInt8}

theorem fetched_of_fails {f : Failure} (h : r.Fails f) (url : String) (timeout : Quantity) :
    r.fetched url timeout = f.fetched url timeout := by
  unfold fetched
  cases h with
  | asking failure => rw [failure]
  | reading answered content failure => rw [answered, if_neg content, failure]

theorem fetched_of_hasNothing (h : r.HasNothing) (url : String) (timeout : Quantity) :
    r.fetched url timeout = .nothing := by
  unfold fetched
  rw [h.answered, if_pos h.status]

theorem fetched_of_reads (h : r.Reads body) (url : String) (timeout : Quantity) :
    r.fetched url timeout =
      if r.status ≠ 200 then .failed (.status url r.status (body.take quotedHead))
      else if body.isEmpty then .nothing else .body body := by
  unfold fetched
  rw [h.answered, if_neg h.content, h.complete, h.body_eq]

theorem not_reads_of_fails {f : Failure} (h : r.Fails f) : ¬ r.Reads body := by
  intro hreads
  cases h with
  | asking failure => rw [hreads.answered] at failure; cases failure
  | reading answered content failure => rw [hreads.complete] at failure; cases failure

theorem not_hasNothing_of_fails {f : Failure} (h : r.Fails f) : ¬ r.HasNothing := by
  intro hnothing
  cases h with
  | asking failure => rw [hnothing.answered] at failure; cases failure
  | reading answered content failure => exact content hnothing.status

theorem Reads.unique {other : List UInt8} (h : r.Reads body) (h' : r.Reads other) :
    body = other := by
  rw [← h.body_eq, h'.body_eq]

end Reply

/-- A failure becomes an error of the fetch, unless it has nothing to do with the exchange. -/
theorem Failure.fetched_cases (url : String) (timeout : Quantity) (f : Failure) :
    (∃ e, f.fetched url timeout = .failed e) ∨
      ∃ fault message, f = .foreign fault message ∧
        f.fetched url timeout = .escaped (.failure f) := by
  cases f with
  | fetch e => exact .inl ⟨e, rfl⟩
  | foreign fault message => exact .inr ⟨fault, message, rfl, rfl⟩
  | http fault message =>
      left
      unfold fetched
      by_cases htimeout : fault.isTimeout = true
      · exact ⟨.timedOut url timeout fault, if_pos htimeout⟩
      · exact ⟨.failed url fault message, if_neg htimeout⟩

theorem Failure.fetched_ne_body (url : String) (timeout : Quantity) (f : Failure)
    (body : List UInt8) : f.fetched url timeout ≠ .body body := by
  intro h
  rcases f.fetched_cases url timeout with ⟨e, he⟩ | ⟨fault, message, -, he⟩
  · rw [he] at h
    cases h
  · rw [he] at h
    cases h

theorem Reply.fetched_eq_body_iff {r : Reply} {body : List UInt8} (url : String)
    (timeout : Quantity) :
    r.fetched url timeout = .body body ↔ r.status = 200 ∧ r.Reads body ∧ body ≠ [] := by
  rcases r.course_cases with ⟨f, hfails⟩ | hnothing | ⟨read, hreads⟩
  · rw [fetched_of_fails hfails]
    apply iff_of_false (f.fetched_ne_body url timeout body)
    rintro ⟨-, hreads, -⟩
    exact not_reads_of_fails hfails hreads
  · rw [fetched_of_hasNothing hnothing]
    constructor
    · intro h
      cases h
    · rintro ⟨-, hreads, -⟩
      exact absurd hnothing.status hreads.content
  · rw [fetched_of_reads hreads]
    constructor
    · intro h
      split at h
      · cases h
      · rename_i hstatus
        cases read with
        | nil => cases h
        | cons b rest =>
            cases h
            exact ⟨Decidable.not_not.mp hstatus, hreads, List.cons_ne_nil b rest⟩
    · rintro ⟨hstatus, hread, hne⟩
      obtain rfl := hreads.unique hread
      rw [if_neg (not_not_intro hstatus), if_neg]
      rwa [List.isEmpty_iff]

/-! ## Links -/

namespace Link

/-- What the link gives for a reply: a fetcher hands it over, a connection gives what comes of the
exchange. -/
def fetched (link : Link) (url : String) (timeout : Quantity) (r : Reply) : Fetched :=
  match link with
  | .fetcher _ => r.delivered
  | _ => r.fetched url timeout

def requested (link : Link) (url : String) : List LogEvent :=
  match link with
  | .fetcher _ => []
  | _ => [.requesting url]

theorem fetched_of_connection {link : Link} (h : ∀ n, link ≠ .fetcher n) (url : String)
    (timeout : Quantity) (r : Reply) : link.fetched url timeout r = r.fetched url timeout := by
  cases link with
  | fetcher n => exact absurd rfl (h n)
  | given entered c => rfl
  | own past current => rfl

end Link

/-! ## Polls -/

namespace Poller

def asking (p : Poller) : Poller := { p with link := p.link.note p.settings.request }

/-- What the poller concludes from what has been fetched: the outcome, the poller afterwards, and
what is told of it. -/
def conclude (p : Poller) (url : String) (timing : Timing) : Fetched → Poll
  | .escaped escape => ⟨.error escape, p, []⟩
  | .failed e => ⟨.ok (.noUpdate (.fetchFailed (some e))), p, [.fetchFailed url timing.fetch e]⟩
  | .nothing => ⟨.ok (.noUpdate (.fetchFailed none)), p, [.noData url]⟩
  | .body body =>
    let verdict := p.session.consider url timing body
    ⟨.ok verdict.outcome, { p with session := verdict.session },
      .fetched timing.fetch :: verdict.log⟩

theorem conclude_settings (p : Poller) (url : String) (timing : Timing) (f : Fetched) :
    (p.conclude url timing f).poller.settings = p.settings := by
  cases f <;> rfl

theorem conclude_link (p : Poller) (url : String) (timing : Timing) (f : Fetched) :
    (p.conclude url timing f).poller.link = p.link := by
  cases f <;> rfl

variable {p : Poller} {url : String}

theorem poll_notReady (h : p.link.isReady = false) (timing : Timing) (r : Reply) :
    p.poll timing r = ⟨.error .notReady, p, []⟩ := by
  unfold poll
  rw [h]
  rfl

/-- A poll of an address that cannot be shown fails before it asks for anything. -/
theorem poll_unshown {e : Url.Error} (hurl : Url.masked? p.settings.url = .error e)
    (hready : p.link.isReady = true) (timing : Timing) (r : Reply) :
    p.poll timing r = ⟨.error (.url e), p, []⟩ := by
  unfold poll
  rw [hready, hurl]
  rfl

theorem fetchThrough_eq (hurl : Url.masked? p.settings.url = .ok url) (r : Reply) :
    p.fetchThrough r = (p.link.fetched url p.settings.timeout r, p.asking.link,
      p.link.requested url) := by
  unfold fetchThrough fetch asking
  rw [hurl]
  cases p.link with
  | fetcher n => rfl
  | given entered c => rfl
  | own past current => rfl

/-- **A poll** asks once, and concludes from what it gets. -/
theorem poll_eq (hurl : Url.masked? p.settings.url = .ok url) (hready : p.link.isReady = true)
    (timing : Timing) (r : Reply) :
    p.poll timing r =
      let concluded := p.asking.conclude url timing (p.link.fetched url p.settings.timeout r)
      ⟨concluded.outcome, concluded.poller, p.link.requested url ++ concluded.log⟩ := by
  unfold poll
  rw [hready, hurl, fetchThrough_eq hurl]
  cases p.link.fetched url p.settings.timeout r with
  | escaped escape => exact congrArg (Poll.mk _ _) (List.append_nil _).symm
  | failed e => rfl
  | nothing => rfl
  | body body => rfl

end Poller

end TimetableFeed
