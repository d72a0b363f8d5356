import TimetableFeed.Proofs.DumpedDeliveries
import TimetableFeed.Proofs.JsonText
import TimetableFeed.Proofs.PollingLoop

/-!
# Saved bodies

Decoding a saved body against polling a feed that answers with it. The two go different ways: the
one writes the whole delivery, the other asks the gate and writes the timetables of a snapshot, and
the journeys are counted on either way. Yet they refuse the same bodies, and what both print of a
delivery is the same.

Main definitions: `Run.output`, `SameTimetables`, `SameSummary`. Main statement:
`decoding_agrees_with_polling`.
-/

namespace TimetableFeed

/-! ## The documents of deliveries

Nine containers deep, and without numbers; so whatever is printed of them is read back. -/

section Plain

variable {depth : Nat}

theorem Json.plain_named (spelling : Spelling) {entries : List (Field × Json)}
    (h : ∀ e ∈ entries, e.2.PlainTo depth) :
    (Json.object (Json.named spelling entries)).PlainTo (depth + 1) := by
  refine .object fun member hmember => ?_
  obtain ⟨entry, hentry, rfl⟩ := List.mem_map.mp hmember
  exact h entry hentry

theorem Json.plain_ofOption {α : Type} {write : α → Json} (h : ∀ x, (write x).PlainTo depth)
    (x? : Option α) : (Json.ofOption write x?).PlainTo depth := by
  cases x? with
  | none => exact .null depth
  | some x => exact h x

theorem Json.plain_items {α : Type} {write : α → Json} (h : ∀ x, (write x).PlainTo depth)
    (xs : List α) : (Json.array (xs.map write)).PlainTo (depth + 1) := by
  refine .array fun item hitem => ?_
  obtain ⟨x, -, rfl⟩ := List.mem_map.mp hitem
  exact h x

theorem Json.plain_list {α : Type} {write : α → Json} (name : String)
    (h : ∀ x, (write x).PlainTo depth) (xs : List α) :
    (Json.object [(name, .array (xs.map write))]).PlainTo (depth + 2) :=
  .object (List.forall_mem_singleton.mpr (plain_items h xs))

theorem Timestamp.plain_toJson (t : Timestamp) : t.toJson.PlainTo depth := .text depth _

theorem EstimatedCall.plain_toJson (spelling : Spelling) (c : EstimatedCall) :
    (c.toJson spelling).PlainTo (depth + 1) := by
  rw [toJson_eq]
  refine Json.plain_named spelling ?_
  simp only [entries, List.forall_mem_cons]
  exact ⟨.text _ _, Json.plain_ofOption Timestamp.plain_toJson _,
    Json.plain_ofOption Timestamp.plain_toJson _, Json.plain_ofOption Timestamp.plain_toJson _,
    Json.plain_ofOption Timestamp.plain_toJson _, List.forall_mem_nil _⟩

theorem EstimatedVehicleJourney.plain_toJson (spelling : Spelling) (j : EstimatedVehicleJourney) :
    (j.toJson spelling).PlainTo (depth + 3) := by
  rw [toJson_eq]
  refine Json.plain_named spelling ?_
  simp only [entries, List.forall_mem_cons]
  exact ⟨Json.plain_ofOption Timestamp.plain_toJson _, .text _ _, .text _ _, .text _ _, .text _ _,
    Json.plain_ofOption (.text _) _, Json.plain_ofOption (.text _) _,
    Json.plain_items (EstimatedCall.plain_toJson spelling) _, List.forall_mem_nil _⟩

theorem VersionFrame.plain_toJson (spelling : Spelling) (f : VersionFrame) :
    (f.toJson spelling).PlainTo (depth + 5) :=
  Json.plain_list _ (EstimatedVehicleJourney.plain_toJson spelling) f.vehicleJourneys

theorem EstimatedTimetableDelivery.plain_toJson (spelling : Spelling)
    (d : EstimatedTimetableDelivery) : (d.toJson spelling).PlainTo (depth + 7) :=
  Json.plain_list _ (VersionFrame.plain_toJson spelling) d.versionFrames

theorem ServiceDelivery.plain_toJson (spelling : Spelling) (d : ServiceDelivery) :
    (d.toJson spelling).PlainTo (depth + 9) := by
  rw [toJson_eq]
  refine Json.plain_named spelling ?_
  simp only [entries, List.forall_mem_cons]
  exact ⟨Timestamp.plain_toJson _, .text _ _,
    Json.plain_items (EstimatedTimetableDelivery.plain_toJson spelling) _, List.forall_mem_nil _⟩

theorem Snapshot.plain_toJson (s : Snapshot) : s.toJson.PlainTo (depth + 8) :=
  Json.plain_items (EstimatedTimetableDelivery.plain_toJson .camel) s.deliveries

end Plain

namespace Command

/-! ## What is printed -/

def Effect.output? : Effect → Option String
  | .print text => some text
  | _ => none

def output (effects : List Effect) : List String := effects.filterMap Effect.output?

theorem output_append (xs ys : List Effect) : output (xs ++ ys) = output xs ++ output ys :=
  List.filterMap_append

theorem output_print (lines : List String) : output (lines.map .print) = lines := by
  show (lines.map Effect.print).filterMap Effect.output? = lines
  rw [List.filterMap_map]
  exact List.filterMap_some

theorem output_tell (o : Options) (log : List LogEvent) : output (o.tell log) = [] := by
  refine List.filterMap_eq_nil_iff.mpr fun e he => ?_
  obtain ⟨event, -, rfl⟩ := List.mem_map.mp he
  rfl

/-- The text shows a document: it is laid out as a page, and read back as the document. -/
structure ShowsDocument (text : String) (json : Json) : Prop where
  page : text = json.print .page
  read : Json.read? bodyLimits (Utf8.encode text) = .ok json

/-- The one output is a delivery, and the other the list of its timetables, both as documents. -/
def SameTimetables (decoded polled : List String) : Prop :=
  ∃ whole part delivery timetables, decoded = [whole] ∧ polled = [part] ∧
    ShowsDocument whole delivery ∧ ShowsDocument part (.array timetables) ∧
    delivery.get? "estimatedTimetableDeliveries" = some (.array timetables)

/-- Both outputs tell of the same producer, timestamp and number of journeys: the one below the name
of a file, the other of a poll that has accepted a snapshot. -/
def SameSummary (file : String) (decoded polled : List String) : Prop :=
  ∃ (producer timestamp mode : String) (journeys : Nat) (rest : List String),
    decoded = [heading file, "  producer  : " ++ producer, "  timestamp : " ++ timestamp,
      "  journeys  : " ++ integerText journeys] ∧
    polled = ["  poll 1: accepted", "  producer  : " ++ producer, "  timestamp : " ++ timestamp,
      "  mode      : " ++ mode, "  journeys  : " ++ integerText journeys] ++ rest

theorem showsDocument_print {depth : Nat} {json : Json} (h : json.PlainTo depth)
    (hroom : depth ≤ bodyLimits.depth) : ShowsDocument (json.print .page) json := by
  refine ⟨rfl, ?_⟩
  show Json.read? bodyLimits (Utf8.encodeChars (String.ofList (json.chars .page 0)).toList) = _
  rw [String.toList_ofList, Json.read_print h hroom]

/-! ## The two runs -/

variable {w : Surroundings} {o : Options} {arguments : List String} {body : List UInt8}

theorem run_decodes (hoptions : Options.read? arguments = .ok o) (hfile : o.file ≠ "")
    (hbody : w.files (FileName.read o.file) = .ok body) :
    run w arguments =
      ⟨(decodeBody o o.file body).1, [], .ok (decodeBody o o.file body).2⟩ := by
  unfold run decodeFile
  simp only [hoptions, hbody, if_pos hfile]

theorem decodeBody_error {e : DecodeError} (h : decode? body = .error e) (o : Options)
    (file : String) :
    output (decodeBody o file body).1 = [] ∧ (decodeBody o file body).2 = 1 := by
  unfold decodeBody
  rw [h]
  exact ⟨rfl, rfl⟩

theorem decodeBody_ok {d : ServiceDelivery} (h : decode? body = .ok d) (o : Options)
    (file : String) :
    output (decodeBody o file body).1 =
        (if o.json then [(d.toJson .camel).print .page] else heading file :: d.report) ∧
      (decodeBody o file body).2 = 0 := by
  unfold decodeBody
  rw [h]
  refine ⟨?_, rfl⟩
  dsimp only
  rw [output_append, output_tell, output_print, List.nil_append]

theorem rounds_once {p : Poller} {outcome : Outcome}
    (h : (p.poll w.timing (w.reply 1)).outcome = .ok outcome) (o : Options) :
    output (rounds w o p 1 1).effects = outcome.report o.json 1 ∧
      (rounds w o p 1 1).ending = .ok () := by
  have hpause : pause? o 1 = .ok [] := if_pos (Nat.le_refl 1)
  simp only [rounds, hpause, h, and_true]
  rw [List.nil_append, List.append_nil, output_append, output_tell, output_print, List.nil_append]

theorem visit_once {p : Poller} {outcome : Outcome} {shown : String}
    (h : (p.poll w.timing (w.reply 1)).outcome = .ok outcome)
    (hurl : Url.masked? p.settings.url = .ok shown) (hcount : o.count = some 1) :
    output (visit w o p).effects =
        title ("SiriLiteEtSource(" ++ shown ++ ")") p.settings.feedId ::
          outcome.report o.json 1 ∧
      (visit w o p).ending = .ok () := by
  have hdescribe : p.describe? = .ok ("SiriLiteEtSource(" ++ shown ++ ")") := by
    rw [Poller.describe?, hurl]
    rfl
  obtain ⟨hreport, hending⟩ := rounds_once h o
  unfold visit
  rw [hdescribe, hcount]
  exact ⟨congrArg _ hreport, hending⟩

/-- A run with one poll that gives an outcome: a title, and the report of the outcome. -/
theorem run_polls_once {settings : Settings} {shown : String} {p : Poller} {outcome : Outcome}
    (hoptions : Options.read? arguments = .ok o) (hfile : o.file = "") (hcount : o.count = some 1)
    (hsettings : Settings.ofEnvironment? w.environment o.overrides = .ok settings)
    (hurl : Url.masked? settings.url = .ok shown)
    (hstart : Poller.start? settings (.own [] none) w.now = .ok p)
    (houtcome : (p.enter.poll w.timing (w.reply 1)).outcome = .ok outcome) :
    (run w arguments).ending = .ok 0 ∧
      output (run w arguments).effects =
        title ("SiriLiteEtSource(" ++ shown ++ ")") settings.feedId ::
          outcome.report o.json 1 := by
  obtain ⟨rfl, -⟩ := Poller.start_eq hstart
  obtain ⟨hreport, hending⟩ := visit_once houtcome hurl hcount
  have hrun : run w arguments = ⟨(visit w o p.enter).effects,
      (visit w o p.enter).poller.leave.link.connections,
      (visit w o p.enter).ending.map fun _ => 0⟩ := by
    unfold run pollFeed
    simp only [hoptions, hfile, hsettings, hstart]
    rfl
  rw [hrun, hending]
  exact ⟨rfl, hreport⟩

/-! ## Agreement -/

/-- A new poller gets the body of an answer that is not empty. -/
theorem body_of_started {settings : Settings} {p : Poller}
    (hstart : Poller.start? settings (.own [] none) w.now = .ok p) (hne : body ≠ []) :
    p.enter.link.body? (Poller.answer body) = some body := by
  have hlink : p.enter.link = .own [] (some .fresh) := by
    show p.link.enter = _
    rw [Poller.start_link hstart]
    rfl
  rw [hlink]
  simp [Link.body?, Link.isReady, Poller.answer, hne]

theorem report_refused (json : Bool) (e : DecodeError) :
    (Outcome.noUpdate (.decodeFailed e)).report json 1 =
      ["  poll 1: no update (decode_failed)"] := rfl

theorem report_stale (json : Bool) :
    (Outcome.noUpdate .stale).report json 1 = ["  poll 1: no update (stale_snapshot)"] := rfl

/-- The page of a list begins with a bracket. -/
theorem print_array_ne (items : List Json) {line : String} (h : line.toList.head? = some ' ') :
    (Json.array items).print .page ≠ line := by
  rintro rfl
  rw [Json.print, String.toList_ofList, Json.chars, Json.Layout.enclose] at h
  split at h <;> cases h

/-- The report of a snapshot is not the one of a poll without one. -/
theorem report_accepted_ne (s : Snapshot) (json : Bool) {line : String}
    (h : line.toList.head? = some ' ') : (Outcome.accepted s).report json 1 ≠ [line] := by
  cases json with
  | true => exact fun hreport => print_array_ne _ h (List.singleton_inj.mp hreport)
  | false => exact fun hreport => nomatch hreport

/-- What both runs print of a delivery that is accepted. -/
theorem same_of_accepted (d : ServiceDelivery) (mode : DatasetMode) (file : String) (json : Bool) :
    let snapshot : Snapshot :=
      ⟨d.estimatedTimetableDeliveries, mode, d.responseTimestamp, d.producerRef⟩
    let decoded := if json then [(d.toJson .camel).print .page] else heading file :: d.report
    let polled := (Outcome.accepted snapshot).report json 1
    if json then SameTimetables decoded polled else SameSummary file decoded polled := by
  intro snapshot decoded polled
  cases json with
  | true =>
      have hdelivery : (d.toJson .camel).PlainTo 9 := d.plain_toJson .camel
      have htimetables : snapshot.toJson.PlainTo 8 := snapshot.plain_toJson
      exact ⟨_, _, d.toJson .camel, _, rfl, rfl, showsDocument_print hdelivery (by decide),
        showsDocument_print htimetables (by decide), rfl⟩
  | false =>
      exact ⟨d.producerRef.text, d.responseTimestamp.write, mode.name, d.journeys.length, _, rfl,
        rfl⟩

/-- **Decoding a saved body agrees with polling it.** Take a body that is not empty, settings that a
poller can be started with and whose address can be shown. Let one run decode the body from a file,
and another poll once and be answered with it, both for a summary or both for documents. The first
ends with the status one if and only if the second reports that the body could not be decoded. When
it ends with nought, the snapshot is reported as stale, or both print the same of it: the timetables
of the delivery, or the producer, the timestamp and the number of journeys. -/
theorem decoding_agrees_with_polling {fileArguments pollArguments : List String}
    {forFile forPoll : Options} {settings : Settings} {shown : String} {p : Poller}
    (hfileOptions : Options.read? fileArguments = .ok forFile)
    (hpollOptions : Options.read? pollArguments = .ok forPoll) (hfile : forFile.file ≠ "")
    (hsaved : w.files (FileName.read forFile.file) = .ok body) (hnoFile : forPoll.file = "")
    (hcount : forPoll.count = some 1) (hjson : forFile.json = forPoll.json)
    (hsettings : Settings.ofEnvironment? w.environment forPoll.overrides = .ok settings)
    (hurl : Url.masked? settings.url = .ok shown)
    (hstart : Poller.start? settings (.own [] none) w.now = .ok p)
    (hreply : w.reply 1 = Poller.answer body) (hne : body ≠ []) :
    let decoded := run w fileArguments
    let polled := run w pollArguments
    (decoded.ending = .ok 0 ∨ decoded.ending = .ok 1) ∧ polled.ending = .ok 0 ∧
      ∃ report, output polled.effects =
          title ("SiriLiteEtSource(" ++ shown ++ ")") settings.feedId :: report ∧
        (decoded.ending = .ok 1 ↔ report = ["  poll 1: no update (decode_failed)"]) ∧
        (decoded.ending = .ok 0 → report = ["  poll 1: no update (stale_snapshot)"] ∨
          if forFile.json then SameTimetables (output decoded.effects) report
          else SameSummary forFile.file (output decoded.effects) report) := by
  intro decoded polled
  have hdecoded : decoded = _ := run_decodes hfileOptions hfile hsaved
  have hmasked : Url.masked? p.enter.settings.url = .ok shown := by
    rw [show p.enter.settings = settings from (Poller.start_eq hstart).1, hurl]
  obtain ⟨houtcome, -⟩ := Poller.poll_body hmasked (body_of_started hstart hne) w.timing
  rw [← hreply] at houtcome
  obtain ⟨hending, hreport⟩ :=
    run_polls_once hpollOptions hnoFile hcount hsettings hurl hstart houtcome
  cases hdecode : decode? body with
  | error e =>
      obtain ⟨-, hstatus⟩ := decodeBody_error hdecode forFile forFile.file
      have hone : decoded.ending = .ok 1 := by rw [hdecoded, hstatus]
      rw [(Poller.consider_error p.enter.session shown w.timing hdecode).1,
        report_refused] at hreport
      refine ⟨Or.inr hone, hending, _, hreport, iff_of_true hone rfl, fun hzero => ?_⟩
      rw [hone] at hzero
      cases hzero
  | ok d =>
      obtain ⟨hprinted, hstatus⟩ := decodeBody_ok hdecode forFile forFile.file
      have hzero : decoded.ending = .ok 0 := by rw [hdecoded, hstatus]
      have hone : decoded.ending ≠ .ok 1 := by rw [hzero]; nofun
      have heffects : decoded.effects = (decodeBody forFile forFile.file body).1 := by rw [hdecoded]
      rw [(Poller.consider_delivery p.enter.session shown w.timing hdecode).1] at hreport
      cases hjudged : (Gate.judge p.enter.session d.responseTimestamp).accepted with
      | false =>
          rw [hjudged, show Poller.outcomeOf _ d false = .noUpdate .stale from rfl,
            report_stale] at hreport
          exact ⟨Or.inl hzero, hending, _, hreport, iff_of_false hone (by decide),
            fun _ => Or.inl rfl⟩
      | true =>
          rw [hjudged] at hreport
          refine ⟨Or.inl hzero, hending, _, hreport,
            iff_of_false hone (report_accepted_ne _ _ rfl), fun _ => Or.inr ?_⟩
          rw [heffects, hprinted, ← hjson]
          exact same_of_accepted d p.enter.session.mode forFile.file forFile.json

open Poller (answer emptyFeed ides) in
/-- The saved body of a feed, and a feed that answers with it. -/
def savedFeed : Surroundings where
  environment name := if name = "SIRI_URL" then some "http://feed/et" else none
  files name := if name.parts = ["et.json".toList] then .ok (emptyFeed "2023-03-15T08:30+02:00")
    else .error .missing
  now := ides
  timing := ⟨3, 1⟩
  reply _ := answer (emptyFeed "2023-03-15T08:30+02:00")

open Poller (emptyFeed idesSession) in
/-- Both runs for documents, and for a summary. -/
theorem decoding_agrees_with_polling_morning :
    let documents := run savedFeed ["--file", "et.json", "--json"]
    let polled := run savedFeed ["--json"]
    let summary := run savedFeed ["--file=et.json"]
    let polled' := run savedFeed ["--count", "1"]
    documents.ending = .ok 0 ∧
      SameTimetables (output documents.effects) (output polled.effects).tail ∧
      summary.ending = .ok 0 ∧
      SameSummary "et.json" (output summary.effects) (output polled'.effects).tail := by
  intro documents polled summary polled'
  let settings : Settings :=
    ⟨"http://feed/et", none, Settings.defaultTimeout, Settings.defaultLookback⟩
  let forPoll : Options := ⟨"", "", some 1, Options.default.interval, false, "", false⟩
  have hdocuments : Options.read? ["--file", "et.json", "--json"] =
      .ok { forPoll with json := true, file := "et.json" } :=
    toOption_eq_some.mp (by decide +kernel)
  have hpolled : Options.read? ["--json"] = .ok { forPoll with json := true } :=
    toOption_eq_some.mp (by decide +kernel)
  have hsummary : Options.read? ["--file=et.json"] = .ok { forPoll with file := "et.json" } :=
    toOption_eq_some.mp (by decide +kernel)
  have hpolled' : Options.read? ["--count", "1"] = .ok forPoll :=
    toOption_eq_some.mp (by decide +kernel)
  have hsettings : Settings.ofEnvironment? savedFeed.environment ⟨none, none, none, none⟩ =
      .ok settings := toOption_eq_some.mp (by decide +kernel)
  have hurl : Url.masked? settings.url = .ok "http://feed/et" :=
    toOption_eq_some.mp (by decide +kernel)
  have hstart : Poller.start? settings (.own [] none) savedFeed.now =
      .ok ⟨settings, idesSession, .own [] none⟩ := toOption_eq_some.mp (by decide +kernel)
  have hne : emptyFeed "2023-03-15T08:30+02:00" ≠ [] := by decide +kernel
  have hfile : ("et.json" : String) ≠ "" := by decide
  obtain ⟨-, -, report, hreport, -, hsame⟩ := decoding_agrees_with_polling hdocuments hpolled hfile
    (if_pos (by decide)) rfl rfl rfl hsettings hurl hstart rfl hne
  obtain ⟨-, -, report', hreport', -, hsame'⟩ := decoding_agrees_with_polling hsummary hpolled'
    hfile (if_pos (by decide)) rfl rfl rfl hsettings hurl hstart rfl hne
  have hzero : documents.ending = .ok 0 := by decide +kernel
  have hzero' : summary.ending = .ok 0 := by decide +kernel
  have hfresh : (output polled.effects).tail ≠ ["  poll 1: no update (stale_snapshot)"] := by
    decide +kernel
  have hfresh' : (output polled'.effects).tail ≠ ["  poll 1: no update (stale_snapshot)"] := by
    decide +kernel
  rw [show output polled.effects = _ from hreport] at hfresh ⊢
  rw [show output polled'.effects = _ from hreport'] at hfresh' ⊢
  exact ⟨hzero, (hsame hzero).resolve_left hfresh, hzero', (hsame' hzero').resolve_left hfresh'⟩

end Command

end TimetableFeed
