import TimetableFeed.Proofs.DocumentLimits
import TimetableFeed.Proofs.PollerRuns

/-!
# Damaged bodies

A connection that breaks off must not turn one timetable into a shorter one, and what follows a
document must not pass unnoticed. No document begins another one, but for white space at the end and
but for numbers, which nothing closes: a reader that has come to the end of a document takes nothing
but white space from there on. A delivery is an object, so a body that decodes can neither be cut
before its end nor go on behind it.

Main statements: `Json.read_prefix`, `damaged_body_refused`.
-/

namespace TimetableFeed

namespace Json

def IsNumber : Json → Prop
  | .integer _ | .real _ => True
  | _ => False

theorem NumberDraft.value_isNumber {d : NumberDraft} {v : Json} (h : d.value? = some v) :
    v.IsNumber := by
  unfold NumberDraft.value? at h
  split at h <;> cases h <;> trivial

/-! ## Behind the end of a document -/

/-- Behind a document there is nothing but white space. -/
theorem Reader.run_finished {limits : Limits} {stack : List Frame} {v : Json} {r : Reader} :
    ∀ {bytes : List UInt8} {index : Nat},
      Reader.run limits ⟨stack, .finished v⟩ index bytes = .ok r →
        r = ⟨stack, .finished v⟩ ∧ ∀ b ∈ bytes, isSpace b = true
  | [], index, h => by
      cases h
      exact ⟨rfl, fun b hb => nomatch hb⟩
  | b :: rest, index, h => by
      obtain ⟨next, hstep, h⟩ := Reader.run_cons_ok.mp h
      cases stepAfterValue_behind hstep with
      | space hspace =>
          obtain ⟨hr, hrest⟩ := run_finished h
          exact ⟨hr, List.forall_mem_cons.mpr ⟨hspace, hrest⟩⟩
      | nextItem hmode _ | endArray hmode _ | nextKey hmode _ | endObject hmode _ => cases hmode

/-- A number outside of all containers is being read, or has been read. -/
inductive Reader.AtNumber : Reader → Prop where
  | digits (d : NumberDraft) : AtNumber ⟨[], .number d⟩
  | word (next : UInt8) (rest : List UInt8) (x : Binary64) :
      AtNumber ⟨[], .word next rest (.real x)⟩
  | finished {v : Json} (h : v.IsNumber) : AtNumber ⟨[], .finished v⟩

namespace Reader.AtNumber

theorem afterValue {v : Json} (hv : v.IsNumber) {index : Nat} {b : UInt8} {r : Reader}
    (h : stepAfterValue ⟨[], .finished v⟩ index b = .ok r) : r.AtNumber := by
  cases stepAfterValue_behind h with
  | space => exact .finished hv
  | nextItem hmode _ | endArray hmode _ | nextKey hmode _ | endObject hmode _ => cases hmode

/-- **Step lemma**: from a number nothing but that number comes. -/
theorem step {r r' : Reader} (hr : r.AtNumber) {limits : Limits} {index : Nat} {b : UInt8}
    (h : r.step limits index b = .ok r') : r'.AtNumber := by
  cases hr with
  | finished hv => exact afterValue hv h
  | word next rest x =>
      simp only [Reader.step] at h
      split at h
      · cases rest with
        | nil =>
            cases h
            exact .finished trivial
        | cons next rest =>
            cases h
            exact .word _ _ x
      · cases h
  | digits d =>
      simp only [Reader.step] at h
      split at h
      · -- the minus sign of an infinity
        cases h
        exact .word _ _ _
      · split at h
        · split at h
          · cases h
          · cases h
            exact .digits _
        · cases h
        · split at h
          · rename_i v hv
            exact afterValue (NumberDraft.value_isNumber hv) h
          · cases h

/-- **Run lemma**. -/
theorem run {limits : Limits} {r' : Reader} : ∀ {bytes : List UInt8} {r : Reader} {index : Nat},
    r.AtNumber → r.run limits index bytes = .ok r' → r'.AtNumber
  | [], r, index, hr, h => by
      cases h
      exact hr
  | b :: rest, r, index, hr, h => by
      obtain ⟨next, hstep, h⟩ := Reader.run_cons_ok.mp h
      exact run (hr.step hstep) h

theorem finish {r : Reader} (hr : r.AtNumber) {v : Json} (h : r.finish = .ok v) : v.IsNumber := by
  cases hr with
  | finished hv =>
      cases h
      exact hv
  | word next rest x => cases h
  | digits d =>
      simp only [Reader.finish] at h
      split at h
      · rename_i w hw
        cases h
        exact NumberDraft.value_isNumber hw
      · cases h

end Reader.AtNumber

/-- Where a document may end, it has been read to its end, or a number is being read. -/
theorem Reader.finish_cases {r : Reader} {v : Json} (h : r.finish = .ok v) :
    r.mode = .finished v ∨ r.AtNumber := by
  obtain ⟨stack, mode⟩ := r
  cases mode with
  | finished w =>
      cases h
      exact Or.inl rfl
  | number d =>
      simp only [Reader.finish] at h
      split at h
      · -- inside a container the number completes an item or a member, and the end is missing
        cases stack with
        | nil => exact Or.inr (.digits d)
        | cons frame stack => cases frame <;> cases h
      · cases h
  | _ => cases h

/-- **No document begins another one**, but for white space at the end and but for numbers. -/
theorem read_prefix {limits : Limits} {xs ys : List UInt8} {v w : Json}
    (hv : read? limits xs = .ok v) (hw : read? limits (xs ++ ys) = .ok w) :
    (v.IsNumber ∧ w.IsNumber) ∨ (w = v ∧ ∀ b ∈ ys, isSpace b = true) := by
  obtain ⟨r, hrun, hfinish⟩ := read_ok_iff.mp hv
  obtain ⟨r', hrun', hfinish'⟩ := read_ok_iff.mp hw
  rw [Reader.run_append, hrun] at hrun'
  have hrest : r.run limits (0 + xs.length) ys = .ok r' := hrun'
  rcases Reader.finish_cases hfinish with hmode | hnumber
  · right
    obtain ⟨stack, mode⟩ := r
    cases hmode
    obtain ⟨rfl, hspaces⟩ := Reader.run_finished hrest
    exact ⟨(Except.ok.inj hfinish').symm, hspaces⟩
  · exact Or.inl ⟨hnumber.finish hfinish, (hnumber.run hrest).finish hfinish'⟩

end Json

/-! ## Bodies -/

/-- The body breaks off before the last byte of `raw` that is not white space. -/
def CutShort (raw body : List UInt8) : Prop :=
  ∃ rest, raw = body ++ rest ∧ ∃ b ∈ rest, Json.isSpace b = false

/-- The body is `raw` and more, which is not only white space. -/
def Overlong (raw body : List UInt8) : Prop :=
  ∃ rest, body = raw ++ rest ∧ ∃ b ∈ rest, Json.isSpace b = false

theorem exists_read_of_decode {bytes : List UInt8} {d : ServiceDelivery}
    (h : decode? bytes = .ok d) :
    ∃ json, Json.read? bodyLimits bytes = .ok json ∧ ¬ json.IsNumber := by
  unfold decode? at h
  cases hread : Json.read? bodyLimits bytes with
  | error e =>
      rw [hread] at h
      cases h
  | ok json =>
      rw [hread] at h
      refine ⟨json, rfl, ?_⟩
      -- the root of a delivery is an object
      cases json with
      | integer i => cases h
      | real x => cases h
      | _ => exact id

theorem read_fails_of_damaged {raw body : List UInt8} {d : ServiceDelivery}
    (h : decode? raw = .ok d) (hdamaged : CutShort raw body ∨ Overlong raw body) (json : Json) :
    Json.read? bodyLimits body ≠ .ok json := by
  intro hbody
  obtain ⟨whole, hwhole, hnumber⟩ := exists_read_of_decode h
  rcases hdamaged with ⟨rest, rfl, b, hb, hspace⟩ | ⟨rest, rfl, b, hb, hspace⟩
  · rcases Json.read_prefix hbody hwhole with hnumbers | ⟨-, hspaces⟩
    · exact hnumber hnumbers.2
    · exact Bool.false_ne_true (hspace.symm.trans (hspaces b hb))
  · rcases Json.read_prefix hwhole hbody with hnumbers | ⟨-, hspaces⟩
    · exact hnumber hnumbers.1
    · exact Bool.false_ne_true (hspace.symm.trans (hspaces b hb))

theorem decode_fails_of_damaged {raw body : List UInt8} {d : ServiceDelivery}
    (h : decode? raw = .ok d) (hdamaged : CutShort raw body ∨ Overlong raw body) :
    ∃ e, decode? body = .error e ∧ e.blame = ⟨.malformedEnvelope, none, none, none⟩ := by
  unfold decode?
  cases hread : Json.read? bodyLimits body with
  | error e => exact ⟨_, rfl, rfl⟩
  | ok json => exact absurd hread (read_fails_of_damaged h hdamaged json)

/-! ## Polls -/

/-- The link gets the body out of the reply: a fetcher hands it over, or an answer with the status
200 has it and can be read. A missing body of an answer is an empty one. -/
def Link.Receives (link : Link) (r : Reply) (body : List UInt8) : Prop :=
  match link with
  | .fetcher _ => r.failure? = none ∧ r.body? = some body
  | link =>
    link.isReady = true ∧ r.failure? = none ∧ r.status = 200 ∧ r.readFailure? = none ∧
      r.body?.getD [] = body

/-- Why a body that does not decode brings nothing new: over HTTP an empty one counts as none. -/
def Link.refusal (link : Link) (body : List UInt8) (e : DecodeError) : NoUpdate :=
  match link, body with
  | .fetcher _, _ => .decodeFailed e
  | _, [] => .fetchFailed none
  | _, _ :: _ => .decodeFailed e

namespace Poller

theorem poll_empty {p : Poller} {url : String} (hurl : Url.masked? p.settings.url = .ok url)
    {r : Reply} (hready : p.link.isReady = true) (hlink : ∀ fetches, p.link ≠ .fetcher fetches)
    (hfailure : r.failure? = none) (hstatus : r.status = 200) (hread : r.readFailure? = none)
    (hbody : r.body?.getD [] = []) (timing : Timing) :
    (p.poll timing r).outcome = .ok (.noUpdate (.fetchFailed none)) ∧
      (p.poll timing r).poller.session = p.session := by
  have hfetched : p.link.fetched url p.settings.timeout r = .nothing := by
    have hcontent : r.status ≠ 204 := by
      rw [hstatus]
      decide
    rw [Link.fetched_of_connection hlink,
      Reply.fetched_of_reads ⟨hfailure, hcontent, hread, hbody⟩, if_neg (not_not_intro hstatus)]
    rfl
  rw [poll_eq hurl hready, hfetched]
  exact ⟨rfl, rfl⟩

/-- A poll that receives a body which does not decode. -/
theorem poll_refusal {p : Poller} {url : String} (hurl : Url.masked? p.settings.url = .ok url)
    {r : Reply} {body : List UInt8} (hbody : p.link.Receives r body) {e : DecodeError}
    (he : decode? body = .error e) (timing : Timing) :
    (p.poll timing r).outcome = .ok (.noUpdate (p.link.refusal body e)) ∧
      (p.poll timing r).poller.session = p.session := by
  have hconsidered : p.link.body? r = some body →
      (p.poll timing r).outcome = .ok (.noUpdate (.decodeFailed e)) ∧
        (p.poll timing r).poller.session = p.session := by
    intro hsome
    obtain ⟨houtcome, hsession⟩ := poll_body hurl hsome timing
    obtain ⟨hfailed, hsame⟩ := consider_error p.session url timing he
    rw [houtcome, hfailed, hsession, hsame]
    exact ⟨rfl, rfl⟩
  cases hlink : p.link with
  | fetcher fetches =>
      rw [hlink] at hbody
      obtain ⟨hfailure, hsome⟩ := hbody
      exact hconsidered (by rw [hlink]; simp [Link.body?, hfailure, hsome])
  | _ =>
      rw [hlink] at hbody
      obtain ⟨hready, hfailure, hstatus, hread, hsome⟩ := hbody
      cases body with
      | nil =>
          refine poll_empty hurl (by rw [hlink, hready]) ?_ hfailure hstatus hread hsome timing
          intro fetches h
          rw [hlink] at h
          cases h
      | cons b rest =>
          refine hconsidered ?_
          rw [hlink]
          cases hr : r.body? with
          | none => rw [hr] at hsome; cases hsome
          | some bytes =>
              rw [hr] at hsome
              obtain rfl : bytes = b :: rest := hsome
              simp [Link.body?, hready, hfailure, hstatus, hread, hr]

end Poller

/-- **Damaged bodies are refused.** Cut a body that decodes before its end, or add to it what is not
white space: it is no document any more, and the error blames no field. A poll that receives it says
so, or that nothing came if nothing is left of an answer, and leaves the session as it was. -/
theorem damaged_body_refused {raw body : List UInt8} {d : ServiceDelivery}
    (h : decode? raw = .ok d) (hdamaged : CutShort raw body ∨ Overlong raw body) :
    ∃ e, decode? body = .error e ∧ e.blame = ⟨.malformedEnvelope, none, none, none⟩ ∧
      ∀ (p : Poller) (url : String) (timing : Timing) (r : Reply),
        Url.masked? p.settings.url = .ok url → p.link.Receives r body →
          (p.poll timing r).outcome = .ok (.noUpdate (p.link.refusal body e)) ∧
            (p.poll timing r).poller.session = p.session := by
  obtain ⟨e, he, hblame⟩ := decode_fails_of_damaged h hdamaged
  refine ⟨e, he, hblame, fun p url timing r hurl hbody => ?_⟩
  exact Poller.poll_refusal hurl hbody he timing

/-- A feed whose producer has a name of one character in two bytes, with a line feed at the end. -/
def accentedFeed : List UInt8 :=
  Utf8.encode ("\x7b\"Siri\":\x7b\"serviceDelivery\":\x7b\"producerRef\":\"É\"," ++
    "\"responseTimestamp\":\"2023-03-15T10:00Z\"\x7d\x7d\x7d\n")

/-- Cut inside the two bytes, with a bracket too many, and with nothing left. -/
theorem damaged_body_refused_accented :
    let p : Poller := ⟨Poller.plainSettings, Poller.idesSession, .given true .fresh⟩
    (∃ d, decode? accentedFeed = .ok d) ∧ Url.masked? Poller.plainSettings.url = .ok "x" ∧
      CutShort accentedFeed (accentedFeed.take 44) ∧
      Overlong accentedFeed (accentedFeed ++ [0x7D]) ∧ CutShort accentedFeed [] ∧
      (∃ e, decode? (accentedFeed.take 44) = .error e ∧
        e.blame = ⟨.malformedEnvelope, none, none, none⟩ ∧
        (p.poll ⟨0, 0⟩ (Poller.answer (accentedFeed.take 44))).outcome =
          .ok (.noUpdate (.decodeFailed e))) ∧
      (∃ e, decode? (accentedFeed ++ [0x7D]) = .error e ∧
        e.blame = ⟨.malformedEnvelope, none, none, none⟩) ∧
      (p.poll ⟨0, 0⟩ (Poller.answer [])).outcome = .ok (.noUpdate (.fetchFailed none)) ∧
      (p.poll ⟨0, 0⟩ (Poller.answer [])).poller.session = p.session := by
  intro p
  have hurl : Url.masked? Poller.plainSettings.url = .ok "x" := rfl
  obtain ⟨d, hd⟩ : ∃ d, decode? accentedFeed = .ok d := by
    have hok : (decode? accentedFeed).toOption.isSome = true := by decide +kernel
    obtain ⟨d, hd⟩ := Option.isSome_iff_exists.mp hok
    exact ⟨d, toOption_eq_some.mp hd⟩
  have hcut : CutShort accentedFeed (accentedFeed.take 44) :=
    ⟨accentedFeed.drop 44, (List.take_append_drop 44 _).symm, 0x89, by decide +kernel, rfl⟩
  have hlong : Overlong accentedFeed (accentedFeed ++ [0x7D]) :=
    ⟨[0x7D], rfl, 0x7D, List.mem_singleton.mpr rfl, rfl⟩
  have hnone : CutShort accentedFeed [] := ⟨accentedFeed, rfl, 0x7B, by decide +kernel, rfl⟩
  obtain ⟨e, he, hblame, hpoll⟩ := damaged_body_refused hd (Or.inl hcut)
  obtain ⟨e', he', hblame', -⟩ := damaged_body_refused hd (Or.inr hlong)
  obtain ⟨_, -, -, hempty⟩ := damaged_body_refused hd (Or.inl hnone)
  obtain ⟨hfailed, -⟩ := hpoll p "x" ⟨0, 0⟩ (Poller.answer _) hurl ⟨rfl, rfl, rfl, rfl, rfl⟩
  obtain ⟨hnothing, hsame⟩ := hempty p "x" ⟨0, 0⟩ (Poller.answer []) hurl ⟨rfl, rfl, rfl, rfl, rfl⟩
  exact ⟨⟨d, hd⟩, hurl, hcut, hlong, hnone, ⟨e, he, hblame, hfailed⟩, ⟨e', he', hblame'⟩,
    hnothing, hsame⟩

end TimetableFeed
