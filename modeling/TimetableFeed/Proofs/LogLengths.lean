import TimetableFeed.Proofs.JsonText
import TimetableFeed.Proofs.PollerRuns
import TimetableFeed.Proofs.TextLengths
import TimetableFeed.Proofs.WrittenTime

/-!
# How long log lines are

A body may be long, and so may any value in it. Of a rejected body a line shows the beginning only,
and the path to a node is as long as the schema lets it be. But a text that is no timestamp is
quoted as a whole, and so is the name of a producer. So a line is bounded but for the address, the
decimal numbers and what it shows as a whole, and there is no bound for all lines.

Main definitions: `LogEvent.quoted`, `LogEvent.digits`. Main statements:
`Poller.line_bounded_but_for_quote`, `Poller.lines_unbounded`.
-/

namespace TimetableFeed

/-! ## Errors in documents -/

/-- The path to a node of a wrong type has little room. -/
theorem room_of_wrongType {body : List UInt8} {m : Mismatch}
    (h : decode? body = .error (.wrongType m)) : m.path.room ≤ 110 := by
  obtain ⟨json, path, t, node, hnode, -, rfl⟩ := misfit_of_wrongType h
  exact Nat.le_trans hnode.room_le (Nat.le_of_eq Shape.reach_document)

theorem toString_eq_integerText (n : Nat) : toString n = integerText n := by
  rw [Nat.toString_eq_ofList_toDigits, integerText, if_neg (by omega)]
  rfl

theorem Node.length_name_le (node : Node) : node.name.length ≤ 34 := by
  cases node with
  | field f => cases f <;> decide
  | valueOf f => cases f <;> decide

theorem ErrorKind.length_name_le (kind : ErrorKind) : kind.name.length ≤ 23 := by
  cases kind <;> decide

theorem NodeType.length_message_le (type : NodeType) : type.message.length ≤ 30 := by
  cases type <;> decide

theorem Json.SyntaxCause.length_message_le (cause : Json.SyntaxCause) :
    cause.message.length ≤ 63 := by
  cases cause <;> decide

/-- The numbers in the words for a place. -/
def placeCounts (journey? call? : Option Int) : List Int :=
  match journey?, call? with
  | none, _ => []
  | some i, none => [i]
  | some i, some j => [i, j]

theorem placeText_within (journey? call? : Option Int) :
    Within 16 ((placeCounts journey? call?).map integerText) (placeText journey? call?) := by
  cases journey? with
  | none => exact .literal "service delivery"
  | some i =>
      have hjourney := (Within.literal "journey ").append (.free (integerText i))
      cases call? with
      | none => exact hjourney.mono (by decide) (List.Sublist.refl _)
      | some j =>
          have hcall := (hjourney.append (.literal ", call ")).append (.free (integerText j))
          exact hcall.mono (by decide) (List.Sublist.refl _)

namespace Blame

def indices (b : Blame) : List Int := b.journey?.toList ++ b.call?.toList

theorem describe_eq (b : Blame) :
    b.describe = b.kind.name ++
      ((b.field?.filter (· ≠ "")).elim "" fun name => " " ++ ("field=" ++ name)) ++
      (b.journey?.elim "" fun i => " " ++ ("journey=" ++ integerText i)) ++
      (b.call?.elim "" fun i => " " ++ ("call=" ++ integerText i)) := by
  unfold describe
  cases b.field?.filter (· ≠ "") <;> cases b.journey? <;> cases b.call? <;>
    simp [String.intercalate_cons_cons, String.append_assoc]

theorem describe_within {b : Blame} {k : Nat} {xs : List String}
    (hfield : ∀ name, b.field? = some name → Within k xs name) :
    Within (45 + k) (xs ++ b.indices.map integerText) b.describe := by
  have hkind : Within 23 [] b.kind.name := b.kind.length_name_le
  have hname : Within (7 + k) xs
      ((b.field?.filter (· ≠ "")).elim "" fun name => " " ++ ("field=" ++ name)) := by
    cases h : b.field?.filter (· ≠ "") with
    | none => exact (Within.literal "").mono (Nat.zero_le _) (List.nil_sublist _)
    | some name =>
        have hgiven := hfield name (Option.filter_eq_some_iff.mp h).1
        exact ((Within.literal " ").append ((Within.literal "field=").append hgiven)).mono
          (Nat.le_of_eq (Nat.add_assoc 1 6 k).symm) (List.Sublist.refl _)
  have hindex : ∀ (key : String) (i? : Option Int), Within (1 + key.length)
      (i?.toList.map integerText) (i?.elim "" fun i => " " ++ (key ++ integerText i)) := by
    intro key i?
    cases i? with
    | none => exact (Within.literal "").mono (Nat.zero_le _) (List.nil_sublist _)
    | some i => exact (Within.literal " ").append ((Within.literal key).append (.free _))
  rw [describe_eq, indices, List.map_append]
  refine (((hkind.append hname).append (hindex "journey=" _)).append (hindex "call=" _)).mono ?_ ?_
  · have hjourney : "journey=".length = 8 := rfl
    have hcall : "call=".length = 5 := rfl
    omega
  · rw [List.nil_append, List.append_assoc]

end Blame

namespace DecodeError

/-- The value of the document that the text of the error quotes. -/
def quoted : DecodeError → String
  | .invalidTimestamp text _ _ => Text.quoted text
  | _ => ""

def nameIndices : DecodeError → List Int
  | .wrongType m => m.path.locate.inner.indices
  | _ => []

def messageCounts : DecodeError → List Int
  | .notJson _ line column => [(line : Int), (column : Int)]
  | e => e.nameIndices ++ placeCounts e.blame.journey? e.blame.call?

/-- The numbers in the line about the error: those of the blame, and those of the text. -/
def counts (e : DecodeError) : List Int := e.nameIndices ++ e.blame.indices ++ e.messageCounts

/-- The name of a node has little room. -/
theorem name_within {e : DecodeError} (hroom : ∀ m, e = .wrongType m → m.path.room ≤ 110)
    {name : String} (h : e.blame.field? = some name) :
    Within 110 (e.nameIndices.map integerText) name := by
  have hnode : ∀ node : Node, Within 110 [] node.name :=
    fun node => Nat.le_trans node.length_name_le (by decide)
  cases e with
  | notJson cause line column => cases h
  | noRoot => cases h; exact hnode (.field .siri)
  | noServiceDelivery =>
      cases h
      exact (Within.literal "Siri.serviceDelivery").mono (by decide) (List.nil_sublist _)
  | missing node place => cases h; exact hnode node
  | invalidTimestamp text f place => cases h; exact hnode (.field f)
  | wrongType m =>
      obtain rfl : Path.write m.path.locate.inner = name := by
        simp only [blame] at h
        split at h
        · cases h
        · exact Option.some.inj h
      have hinner := Path.room_le_of_suffix m.path.locate_inner_suffix
      exact (Path.write_within _).mono (Nat.le_trans hinner (hroom m rfl)) (List.Sublist.refl _)

/-- The text of an error is bounded but for its numbers and what it quotes. -/
theorem message_frames {e : DecodeError} (hroom : ∀ m, e = .wrongType m → m.path.room ≤ 110) :
    Frames 177 (e.messageCounts.map integerText) e.quoted e.message := by
  have hplace := placeText_within e.blame.journey? e.blame.call?
  cases e with
  | notJson cause line column =>
      have hcause : Within 63 [] cause.message := cause.length_message_le
      have hline := Within.free (integerText line)
      have hcolumn := Within.free (integerText column)
      rw [← toString_eq_integerText] at hline hcolumn
      have h := ((((Within.literal "Payload is not valid JSON: Invalid JSON: ").append
        hcause).append (.literal " at line ")).append hline).append (.literal " column ")
      have hall := (h.append hcolumn).frames.mono (l := 177) (by decide) (List.Sublist.refl _)
      rw [toString_eq_integerText, toString_eq_integerText] at hall
      exact hall
  | noRoot =>
      exact (Within.literal "Missing Siri root node").frames.mono (by decide) (List.nil_sublist _)
  | noServiceDelivery =>
      exact (Within.literal "Missing Siri.serviceDelivery node").frames.mono (by decide)
        (List.nil_sublist _)
  | missing node place =>
      have hname : Within 34 [] node.name := node.length_name_le
      have h := (((Within.literal "Missing mandatory field ").append hname).append
        (.literal " in ")).append hplace
      exact h.frames.mono (by decide) (List.Sublist.refl _)
  | invalidTimestamp text f place =>
      have hname : Within 34 [] f.camel := (Node.field f).length_name_le
      have hquote := (Frames.quote (Text.quoted text)).behind (.literal "Invalid timestamp ")
      have h := (((hquote.before (.literal " for ")).before hname).before
        (.literal " in ")).before hplace
      exact h.mono (by decide) (List.Sublist.refl _)
  | wrongType m =>
      have hname : Within 110 (nameIndices (.wrongType m) |>.map integerText)
          ((DecodeError.wrongType m).blame.field?.getD "<root>") := by
        cases hfield : (DecodeError.wrongType m).blame.field? with
        | none => exact (Within.literal "<root>").mono (by decide) (List.nil_sublist _)
        | some name => exact name_within hroom hfield
      have hexpected : Within 30 [] m.expected.message := m.expected.length_message_le
      have h := (((((Within.literal "Malformed node ").append hname).append
        (.literal " in ")).append hplace).append (.literal ": ")).append hexpected
      refine h.frames.mono (by decide) ?_
      simp [messageCounts]

end DecodeError

/-! ## Events -/

namespace LogEvent

/-- What the line shows as a whole: a value of the document, or what the error of a fetch says. -/
def quoted : LogEvent → String
  | .fetchFailed _ _ error => error.message
  | .decodeFailed _ error => error.quoted
  | .decoded _ producer _ => producer
  | _ => ""

/-- The decimal numbers in the line, but for those in what it shows as a whole and in times. -/
def counts : LogEvent → List Int
  | .fetchFailed _ elapsed _ | .fetched elapsed | .parsed elapsed => [(elapsed : Int)]
  | .decodeFailed _ error => error.counts
  | .rejected body => Excerpt.sizes body
  | .decoded journeys _ _ => [(journeys : Int)]
  | .requesting _ | .noData _ | .stale _ _ => []

/-- How many characters these numbers take. -/
def digits (e : LogEvent) : Nat := (e.counts.map fun n => (integerText n).length).sum

/-- The address in the line. -/
def url? : LogEvent → Option String
  | .requesting url | .fetchFailed url _ _ | .noData url | .decodeFailed url _ => some url
  | _ => none

theorem header_within (e : LogEvent) :
    Within 34 [] (e.level.name ++ " " ++ e.origin.name ++ ": ") := by
  have hlevel : Within 7 [] e.level.name := by
    show e.level.name.length ≤ 7
    cases e.level <;> decide
  have horigin : Within 24 [] e.origin.name := by
    show e.origin.name.length ≤ 24
    cases e.origin <;> decide
  exact ((hlevel.append (.literal " ")).append horigin).append (.literal ": ")

/-- A line is bounded but for the address, the numbers and what it shows as a whole, if the node of
a wrong type that it is about, if any, has a path with little room. -/
theorem message_frames {e : LogEvent}
    (hroom : ∀ url m, e = .decodeFailed url (.wrongType m) → m.path.room ≤ 110) :
    Frames 386 (e.url?.toList ++ e.counts.map integerText) e.quoted e.message := by
  cases e with
  | requesting url =>
      exact ((Within.literal "GET ").append (.free url)).frames.mono (by decide)
        (List.Sublist.refl _)
  | fetchFailed url elapsed error =>
      have h := (((Within.literal "Failed to fetch SIRI Lite ET feed from ").append
        (.free url)).append (.literal " after ")).append (.free (integerText elapsed))
      exact (Frames.behind (h.append (.literal " ms: ")) (.quote error.message)).mono (by decide)
        (List.Sublist.refl _)
  | noData url =>
      have h := ((Within.literal "SIRI Lite ET feed ").append (.free url)).append
        (.literal " returned no data")
      exact h.frames.mono (by decide) (List.Sublist.refl _)
  | fetched elapsed =>
      have h := ((Within.literal "Fetching ET data took ").append
        (.free (integerText elapsed))).append (.literal " ms")
      exact h.frames.mono (by decide) (List.Sublist.refl _)
  | parsed elapsed =>
      have h := ((Within.literal "Decoding ET data took ").append
        (.free (integerText elapsed))).append (.literal " ms")
      exact h.frames.mono (by decide) (List.Sublist.refl _)
  | rejected body =>
      have h := (Within.literal "Rejected payload: ").append (Excerpt.write_within body)
      exact h.frames.mono (by decide) (List.Sublist.refl _)
  | stale snapshot last =>
      have h := ((((Within.literal "Newer data has already been processed (snapshot ").append
        snapshot.write_within).append (.literal ", last accepted ")).append
        last.write_within).append (.literal ")")
      exact h.frames.mono (by decide) (List.Sublist.refl _)
  | decoded journeys producer time =>
      have hproducer := (Frames.quote producer).behind (((Within.literal "Decoded ").append
        (.free (integerText journeys))).append (.literal " vehicle journeys from "))
      have h := (hproducer.before (.literal " at ")).before time.writeSpaced_within
      exact h.mono (by decide) (List.Sublist.refl _)
  | decodeFailed url error =>
      have herror : ∀ m, error = .wrongType m → m.path.room ≤ 110 := by
        rintro m rfl
        exact hroom url m rfl
      have hblame := Blame.describe_within fun _ => DecodeError.name_within herror
      have h := (((((Within.literal "Failed to decode SIRI Lite ET feed from ").append
        (.free url)).append (.literal " (")).append hblame).append (.literal "): "))
      refine (Frames.behind h (DecodeError.message_frames herror)).mono (by decide) ?_
      simp [url?, counts, DecodeError.counts]

theorem line_frames {e : LogEvent}
    (hroom : ∀ url m, e = .decodeFailed url (.wrongType m) → m.path.room ≤ 110) :
    Frames 420 (e.url?.toList ++ e.counts.map integerText) e.quoted e.line := by
  have h := (message_frames hroom).behind e.header_within
  exact h.mono (by decide) (List.Sublist.refl _)

/-- The event may be told in a poll of an address that is shown like this: it shows no other, and a
node of a wrong type has a path with little room. -/
structure Told (shown : String) (e : LogEvent) : Prop where
  url : ∀ url, e.url? = some url → url = shown
  room : ∀ url m, e = .decodeFailed url (.wrongType m) → m.path.room ≤ 110

/-- Events that tell neither of an address nor of a document that is none. -/
theorem told_of_plain {shown : String} {e : LogEvent} (hurl : e.url? = none) : e.Told shown := by
  refine ⟨fun url h => ?_, fun url m h => ?_⟩
  · rw [hurl] at h
    cases h
  · rw [h] at hurl
    cases hurl

/-- Events that tell of the address, but not of a document. -/
theorem told_of_url {shown : String} {e : LogEvent} (hurl : e.url? = some shown)
    (hne : ∀ url error, e ≠ .decodeFailed url error) : e.Told shown := by
  refine ⟨fun url h => ?_, fun url m h => absurd h (hne url _)⟩
  rw [hurl] at h
  exact (Option.some.inj h).symm

/-- The line of an event that may be told, in numbers of characters. -/
theorem Told.line {shown : String} {e : LogEvent} (h : e.Told shown) :
    ∃ before after, e.line = before ++ e.quoted ++ after ∧
      before.length + after.length ≤ shown.length + e.digits + 420 := by
  obtain ⟨before, after, hline, hframe⟩ := line_frames h.room
  refine ⟨before, after, hline, ?_⟩
  have hurl : (e.url?.toList.map String.length).sum ≤ shown.length := by
    cases hgiven : e.url? with
    | none => exact Nat.zero_le _
    | some url =>
        rw [h.url url hgiven]
        exact Nat.le_refl _
  have hdigits : ((e.counts.map integerText).map String.length).sum = e.digits := by
    rw [List.map_map]
    rfl
  unfold Within at hframe
  rw [String.length_append, List.map_append, List.sum_append, hdigits] at hframe
  omega

end LogEvent

/-- All that is told of a body. -/
theorem Session.told_of_consider (s : Session) {shown : String} (timing : Timing)
    (body : List UInt8) : ∀ e ∈ (s.consider shown timing body).log, e.Told shown := by
  unfold consider
  cases hdecode : decode? body with
  | error error =>
      have hfailed : (LogEvent.decodeFailed shown error).Told shown := by
        refine ⟨fun url h => (Option.some.inj h).symm, ?_⟩
        rintro url m ⟨⟩
        exact room_of_wrongType hdecode
      have hrejected : (LogEvent.rejected body).Told shown := LogEvent.told_of_plain rfl
      simp only [List.forall_mem_cons]
      exact ⟨hfailed, hrejected, List.forall_mem_nil _⟩
  | ok d =>
      have hdelivery : (LogEvent.ofDelivery d).Told shown := LogEvent.told_of_plain rfl
      have hparsed : (LogEvent.parsed timing.decode).Told shown := LogEvent.told_of_plain rfl
      have hstale : (LogEvent.stale d.responseTimestamp s.lastTimestamp).Told shown :=
        LogEvent.told_of_plain rfl
      dsimp only
      split
      · simp only [List.forall_mem_cons]
        exact ⟨hdelivery, hparsed, List.forall_mem_nil _⟩
      · simp only [List.forall_mem_append, List.forall_mem_cons]
        exact ⟨⟨hdelivery, hparsed, List.forall_mem_nil _⟩, hstale, List.forall_mem_nil _⟩

namespace Poller

/-- All that is told in a poll. -/
theorem told_of_poll {p : Poller} {shown : String} (hurl : Url.masked? p.settings.url = .ok shown)
    (timing : Timing) (r : Reply) : ∀ e ∈ (p.poll timing r).log, e.Told shown := by
  have hrequested : ∀ e ∈ p.link.requested shown, e.Told shown := by
    cases p.link with
    | fetcher fetches => exact List.forall_mem_nil _
    | _ => exact List.forall_mem_singleton.mpr (LogEvent.told_of_url rfl nofun)
  cases hready : p.link.isReady with
  | false =>
      rw [poll_notReady hready]
      exact List.forall_mem_nil _
  | true =>
      rw [poll_eq hurl hready]
      refine List.forall_mem_append.mpr ⟨hrequested, ?_⟩
      cases p.link.fetched shown p.settings.timeout r with
      | escaped escape => exact List.forall_mem_nil _
      | failed error => exact List.forall_mem_singleton.mpr (LogEvent.told_of_url rfl nofun)
      | nothing => exact List.forall_mem_singleton.mpr (LogEvent.told_of_url rfl nofun)
      | body body =>
          exact List.forall_mem_cons.mpr
            ⟨LogEvent.told_of_plain rfl, p.session.told_of_consider timing body⟩

end Poller

/-! ## Texts that are no timestamps -/

theorem Text.length_quoted_ge (s : String) : s.length + 2 ≤ (Text.quoted s).length := by
  have hchars : ∀ (quote : Char) (cs : List Char),
      cs.length ≤ (cs.flatMap (Text.quoteChar Text.isPrintable quote)).length := by
    intro quote cs
    induction cs with
    | nil => exact Nat.le_refl 0
    | cons c rest ih =>
        have hc := List.length_pos_of_ne_nil (Text.quoteChar_ne_nil Text.isPrintable quote c)
        rw [List.flatMap_cons, List.length_append, List.length_cons]
        omega
  have h := hchars (Text.quoteFor s.toList) s.toList
  rw [String.length_toList] at h
  rw [Text.quoted, String.length_ofList, Text.quoteChars, List.length_append, List.length_cons,
    List.length_singleton]
  omega

def crosses (n : Nat) : String := String.ofList (List.replicate n 'x')

theorem crosses_not_blank (n : Nat) : Text.isBlank (crosses (n + 1)) = false := by
  rw [Text.isBlank, crosses, String.toList_ofList, List.replicate_succ, List.all_cons]
  rfl

theorem crosses_unreadable (n : Nat) (t : Timestamp) :
    Timestamp.read? (crosses (n + 1)) ≠ .ok t := by
  have hbare : Timestamp.IsBare (crosses (n + 1)).toList := by
    apply Timestamp.isBare_of_plain
    rw [crosses, String.toList_ofList]
    intro c hc
    rw [(List.mem_replicate.mp hc).2]
    decide
  refine Timestamp.read_unmarked hbare (fun b hb => ?_) t
  have hascii : ∀ c ∈ List.replicate (n + 1) 'x', c.toNat < 128 := by
    intro c hc
    rw [List.eq_of_mem_replicate hc]
    decide
  rw [crosses, String.toList_ofList, Utf8.encodeChars_of_ascii hascii] at hb
  obtain ⟨c, hc, rfl⟩ := List.mem_map.mp (List.mem_of_mem_drop hb)
  rw [List.eq_of_mem_replicate hc]
  rfl

def timestampFeed (s : String) : Json :=
  .object [("Siri", .object [("serviceDelivery", .object [("responseTimestamp", .text s)])])]

theorem decode_timestampFeed {s : String} (hblank : Text.isBlank s = false)
    (hread : ∀ t, Timestamp.read? s ≠ .ok t) :
    decode? (printed (timestampFeed s)) =
      .error (.invalidTimestamp s .responseTimestamp .delivery) := by
  have hobject : ∀ {depth : Nat} {key : String} {json : Json}, json.PlainTo depth →
      (Json.object [(key, json)]).PlainTo (depth + 1) :=
    fun h => .object (List.forall_mem_singleton.mpr h)
  have hplain : (timestampFeed s).PlainTo 3 := hobject (hobject (hobject (.text 0 s)))
  have hread' : Json.read? bodyLimits (printed (timestampFeed s)) = .ok (timestampFeed s) :=
    Json.read_print hplain (by decide) .line
  let delivery : Json := .object [("responseTimestamp", .text s)]
  have hchecks : delivery.deliveryChecks =
      [.text .responseTimestamp .delivery (some s)] ++
        .time .responseTimestamp .delivery (some s) ::
          [.text .producerRef .delivery none] := rfl
  have hfails : (Check.time .responseTimestamp .delivery (some s)).passes = false :=
    Check.time_fails_iff.mpr hread
  have hpasses : ∀ c ∈ [Check.text .responseTimestamp .delivery (some s)], c.passes := by
    simp [Check.passes, hblank]
  have hfaults : (timestampFeed s).faults = Check.faults delivery.deliveryChecks := by
    have hfits : Shape.document.Fits (timestampFeed s) :=
      (Shape.misfits_eq_nil_iff _ [] _).mp rfl
    rw [Json.faults_of_fits hfits]
    exact Json.contentFaults_of_delivery rfl
  rw [decode_fails_iff hread', hfaults, hchecks, Check.faults_first hpasses hfails]
  rfl

namespace Poller

/-- Over a fetcher, a poll that is handed the body tells why it is no delivery. -/
theorem mem_log_of_error {p : Poller} {shown : String} {fetches : Nat}
    (hurl : Url.masked? p.settings.url = .ok shown) (hlink : p.link = .fetcher fetches)
    {body : List UInt8} {error : DecodeError} (h : decode? body = .error error) (timing : Timing) :
    .decodeFailed shown error ∈ (p.poll timing (answer body)).log := by
  have hready : p.link.isReady = true := by
    rw [hlink]
    rfl
  rw [poll_eq hurl hready, hlink]
  show _ ∈ .fetched timing.fetch :: (p.session.consider shown timing body).log
  unfold Session.consider
  rw [h]
  exact List.mem_cons_of_mem _ List.mem_cons_self

/-- **How long a log line is.** Each line that a poll tells is bounded but for three things: the
address as it may be shown, the decimal numbers, and what the line shows as a whole, which is there
from end to end. This last is a text that is no timestamp, in quotes, or the name of a producer, or
what the error of a fetch says. -/
theorem line_bounded_but_for_quote {p : Poller} {shown : String}
    (hurl : Url.masked? p.settings.url = .ok shown) (timing : Timing) (r : Reply) {e : LogEvent}
    (he : e ∈ (p.poll timing r).log) :
    ∃ before after, e.line = before ++ e.quoted ++ after ∧
      before.length + after.length ≤ shown.length + e.digits + 420 :=
  (told_of_poll hurl timing r e he).line

/-- A response timestamp in words. -/
theorem line_bounded_but_for_quote_noon :
    let p : Poller := ⟨plainSettings, idesSession, .fetcher 0⟩
    let body := printed (timestampFeed "noon")
    let e : LogEvent := .decodeFailed "x" (.invalidTimestamp "noon" .responseTimestamp .delivery)
    Url.masked? p.settings.url = .ok "x" ∧ e ∈ (p.poll ⟨5, 0⟩ (answer body)).log ∧
      ∃ before after, e.line = before ++ "'noon'" ++ after ∧
        before.length + after.length ≤ 421 := by
  intro p body e
  have hurl : Url.masked? plainSettings.url = .ok "x" := rfl
  have hmem : e ∈ (p.poll ⟨5, 0⟩ (answer body)).log := by decide +kernel
  have hquoted : e.quoted = "'noon'" := by decide +kernel
  obtain ⟨before, after, hline, hle⟩ := line_bounded_but_for_quote (p := p) hurl _ _ hmem
  rw [hquoted] at hline
  exact ⟨hurl, hmem, before, after, hline, hle⟩

/-- **There is no bound for all lines**, not even beside the address and the decimal numbers: a feed
whose response timestamp is long enough makes a longer one. -/
theorem lines_unbounded :
    ¬ ∃ bound : Nat, ∀ (p : Poller) (shown : String) (timing : Timing) (r : Reply)
      (body : List UInt8), Url.masked? p.settings.url = .ok shown → p.link.body? r = some body →
        ∀ e ∈ (p.poll timing r).log, e.line.length ≤ shown.length + e.digits + bound := by
  rintro ⟨bound, h⟩
  let p : Poller := ⟨plainSettings, idesSession, .fetcher 0⟩
  let text := crosses (bound + 1)
  have hdecode : decode? (printed (timestampFeed text)) =
      .error (.invalidTimestamp text .responseTimestamp .delivery) :=
    decode_timestampFeed (crosses_not_blank bound) (crosses_unreadable bound)
  have hurl : Url.masked? plainSettings.url = .ok "x" := rfl
  have hmem := mem_log_of_error (p := p) hurl rfl hdecode ⟨0, 0⟩
  have hle := h p "x" ⟨0, 0⟩ (answer (printed (timestampFeed text))) _ hurl rfl _ hmem
  -- the quoted text alone is longer than that
  obtain ⟨before, after, hline, -⟩ := (told_of_poll (p := p) hurl ⟨0, 0⟩ _ _ hmem).line
  have hquoted := Text.length_quoted_ge text
  have htext : text.length = bound + 1 := by
    show (String.ofList _).length = _
    rw [String.length_ofList, List.length_replicate]
  rw [hline, String.length_append, String.length_append] at hle
  change before.length + (Text.quoted text).length + after.length ≤ 1 + 0 + bound at hle
  omega

end Poller

end TimetableFeed
