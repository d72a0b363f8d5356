import TimetableFeed.Proofs.Checks
import TimetableFeed.Proofs.DocumentLimits

/-!
# Decoding documents

Which documents decode, and what they decode to. Decoding makes two passes: the first one over all
types, the second one over the texts, and it stops at the first fault of either. A document has
none exactly if all nodes have the right types and the delivery in it is complete.

Documents are those of RFC 8259, with `NaN` and the infinities beside the other numbers, in UTF-8
and without escapes of single surrogates. Those within the limits of the reader are decoded: values
lie in no more than 200 containers, and numbers have no more than 4300 bytes before their point.

Main definition: `CompleteDelivery`. Main statements: `decode_judged`, `decode_ok_iff_complete`.
-/

namespace TimetableFeed

namespace Json

/-- The service delivery of a document. -/
def delivery? (json : Json) : Option Json :=
  (json.node? .siri).bind fun siri => siri.node? .serviceDelivery

/-- What is missing or unreadable in a document. -/
def contentFaults (json : Json) : List DecodeError :=
  match json.node? .siri with
  | none => [.noRoot]
  | some siri =>
    match siri.node? .serviceDelivery with
    | none => [.noServiceDelivery]
    | some delivery => Check.faults delivery.deliveryChecks

/-- All faults of a document: those of the types come before those of the texts. -/
def faults (json : Json) : List DecodeError :=
  (Shape.document.misfits [] json).map .wrongType ++ json.contentFaults

end Json

/-! ## Complete deliveries -/

/-- There is a text that holds more than white space. -/
def Filled (given : Option String) : Prop := ∃ s, given = some s ∧ Text.isBlank s = false

/-- The text is a timestamp, if there is one. -/
def Readable (given : Option String) : Prop :=
  ∀ s, given = some s → ∃ t, Timestamp.read? s = .ok t

/-- The call names its stop, and its times can be read. -/
structure CompleteCall (json : Json) : Prop where
  stopPointRef : Filled (json.valueAt .stopPointRef)
  aimedArrivalTime : Readable (json.textAt .aimedArrivalTime)
  aimedDepartureTime : Readable (json.textAt .aimedDepartureTime)
  expectedArrivalTime : Readable (json.textAt .expectedArrivalTime)
  expectedDepartureTime : Readable (json.textAt .expectedDepartureTime)

/-- The journey has all its references, its time can be read, and its calls are complete. -/
structure CompleteJourney (json : Json) : Prop where
  recordedAtTime : Readable (json.textAt .recordedAtTime)
  datedVehicleJourneyRef : Filled (json.valueAt .datedVehicleJourneyRef)
  destinationRef : Filled (json.valueAt .destinationRef)
  directionRef : Filled (json.valueAt .directionRef)
  lineRef : Filled (json.valueAt .lineRef)
  calls : ∀ call ∈ json.calls, CompleteCall call

/-- The delivery has a readable time and a producer, and its journeys are complete. -/
structure CompleteDelivery (json : Json) : Prop where
  responseTimestamp : Filled (json.textAt .responseTimestamp)
  responseTimestampReadable : Readable (json.textAt .responseTimestamp)
  producerRef : Filled (json.textAt .producerRef)
  journeys : ∀ journey ∈ json.itemsAt .estimatedTimetableDelivery, CompleteJourney journey

namespace Check

theorem filled_iff (given : Option String) :
    (given.any fun s => !Text.isBlank s) = true ↔ Filled given := by
  unfold Filled
  cases given with
  | none => simp
  | some s => simp

theorem readable_iff (given : Option String) :
    (given.all fun s => (Timestamp.read? s).isOk) = true ↔ Readable given := by
  unfold Readable
  cases given with
  | none => simp
  | some s =>
      rw [Option.all_some]
      cases h : Timestamp.read? s with
      | ok t => simp [h, Except.isOk, Except.toBool]
      | error e => simp [h, Except.isOk, Except.toBool]

theorem faults_text_cons (f : Field) (place : Place) (given : Option String) (rest : List Check) :
    faults (.text f place given :: rest) = [] ↔ Filled given ∧ faults rest = [] := by
  rw [faults_eq_nil_iff, faults_eq_nil_iff, List.forall_mem_cons, ← filled_iff]
  rfl

theorem faults_ref_cons (json : Json) (f : Field) (place : Place) (rest : List Check) :
    faults (.ref f place (json.refAt f) :: rest) = [] ↔
      Filled (json.valueAt f) ∧ faults rest = [] := by
  rw [faults_eq_nil_iff, faults_eq_nil_iff, List.forall_mem_cons, ← filled_iff]
  rfl

theorem faults_time_cons (f : Field) (place : Place) (given : Option String) (rest : List Check) :
    faults (.time f place given :: rest) = [] ↔ Readable given ∧ faults rest = [] := by
  rw [faults_eq_nil_iff, faults_eq_nil_iff, List.forall_mem_cons, ← readable_iff]
  rfl

/-- The checks of several elements, one element after the other. -/
theorem faults_along {checks : Nat → Json → List Check} {Complete : Json → Prop}
    (h : ∀ index json, faults (checks index json) = [] ↔ Complete json) (items : List Json) :
    faults (items.zipIdx.flatMap fun item => checks item.2 item.1) = [] ↔
      ∀ item ∈ items, Complete item := by
  rw [faults_flatMap]
  exact flatMap_zipIdx_eq_nil_iff h items

theorem call_faults_iff (place : Place) (json : Json) :
    faults (json.callChecks place) = [] ↔ CompleteCall json := by
  unfold Json.callChecks
  rw [faults_ref_cons, faults_time_cons, faults_time_cons, faults_time_cons, faults_time_cons]
  constructor
  · rintro ⟨hstop, haimed, haimed', harrival, hdeparture, -⟩
    exact ⟨hstop, haimed, haimed', harrival, hdeparture⟩
  · rintro ⟨hstop, haimed, haimed', harrival, hdeparture⟩
    exact ⟨hstop, haimed, haimed', harrival, hdeparture, rfl⟩

theorem journey_faults_iff (index : Nat) (json : Json) :
    faults (json.journeyChecks index) = [] ↔ CompleteJourney json := by
  unfold Json.journeyChecks
  rw [faults_time_cons, faults_ref_cons, faults_ref_cons, faults_ref_cons, faults_ref_cons,
    faults_along fun i => call_faults_iff (.call index i)]
  constructor
  · rintro ⟨hrecorded, hdated, hdestination, hdirection, hline, hcalls⟩
    exact ⟨hrecorded, hdated, hdestination, hdirection, hline, hcalls⟩
  · rintro ⟨hrecorded, hdated, hdestination, hdirection, hline, hcalls⟩
    exact ⟨hrecorded, hdated, hdestination, hdirection, hline, hcalls⟩

/-- All checks of a delivery pass if and only if it is complete. -/
theorem delivery_faults_iff (json : Json) :
    faults json.deliveryChecks = [] ↔ CompleteDelivery json := by
  unfold Json.deliveryChecks
  rw [faults_text_cons, faults_time_cons, faults_text_cons, faults_along journey_faults_iff]
  constructor
  · rintro ⟨hfilled, hreadable, hproducer, hjourneys⟩
    exact ⟨hfilled, hreadable, hproducer, hjourneys⟩
  · rintro ⟨hfilled, hreadable, hproducer, hjourneys⟩
    exact ⟨hfilled, hreadable, hproducer, hjourneys⟩

end Check

/-! ## Documents -/

/-- The delivery is the one in the document. -/
def DeliveredBy (json : Json) (d : ServiceDelivery) : Prop :=
  ∃ delivery, json.delivery? = some delivery ∧ DeliveryOf delivery d

theorem content_judged (json : Json) :
    Judged (DeliveredBy json) json.contentFaults (Draft.Document.of json).check := by
  unfold DeliveredBy Json.contentFaults Json.delivery? Draft.Document.of Draft.Document.check
  cases json.node? .siri with
  | none => exact Judged.error _ []
  | some siri =>
      simp only [Option.bind_some, Option.map_some, Draft.Siri.of]
      cases siri.node? .serviceDelivery with
      | none => exact Judged.error _ []
      | some delivery =>
          refine (Draft.delivery_judged delivery).mono fun d hd => ?_
          exact ⟨delivery, rfl, hd⟩

theorem content_faults_iff (json : Json) :
    json.contentFaults = [] ↔ ∃ delivery, json.delivery? = some delivery ∧
      CompleteDelivery delivery := by
  unfold Json.contentFaults Json.delivery?
  cases json.node? .siri with
  | none => simp
  | some siri =>
      simp only [Option.bind_some]
      cases siri.node? .serviceDelivery with
      | none => simp
      | some delivery => simpa using Check.delivery_faults_iff delivery

theorem decode?_eq {bytes : List UInt8} {json : Json}
    (h : Json.read? bodyLimits bytes = .ok json) : decode? bytes = decodeJson? json := by
  unfold decode?
  rw [h]

/-- **Decoding** fails with the first of all faults of a document, and else gives the delivery. -/
theorem decode_judged {bytes : List UInt8} {json : Json}
    (h : Json.read? bodyLimits bytes = .ok json) :
    Judged (DeliveredBy json) json.faults (decode? bytes) := by
  rw [decode?_eq h]
  -- the first pass gives the draft of the document itself, which the second one checks
  refine ((Draft.document_judged json).mapError DecodeError.wrongType).bind ?_
  rintro _ rfl
  exact content_judged json

theorem faults_iff (json : Json) :
    json.faults = [] ↔ Shape.document.Fits json ∧
      ∃ delivery, json.delivery? = some delivery ∧ CompleteDelivery delivery := by
  unfold Json.faults
  rw [List.append_eq_nil_iff, List.map_eq_nil_iff, Shape.misfits_eq_nil_iff, content_faults_iff]

/-- The limits for bodies decide which documents are read. -/
theorem read_body_iff {bytes : List UInt8} {json : Json} (h : json.DenotedBy bytes) :
    Json.read? bodyLimits bytes = .ok json ↔ bodyLimits.Allow bytes json :=
  Json.read_iff_allowed (by decide) h

/-- A document beyond the limits is not decoded, because of them. -/
theorem decode?_refused {bytes : List UInt8} {json : Json} (h : json.DenotedBy bytes)
    (hnot : ¬ bodyLimits.Allow bytes json) :
    ∃ cause line column, decode? bytes = .error (.notJson cause line column) ∧ cause.IsLimit := by
  obtain ⟨e, hread, hlimit⟩ := h.refused (by decide) hnot
  refine ⟨e.cause, Json.lineAt bytes e.index, Json.columnAt bytes e.index, ?_, hlimit⟩
  unfold decode?
  rw [hread]

/-- **Which documents decode, and to what.** Of all documents, however deep and with numbers of any
length, one decodes if and only if it is within the limits of the reader, 200 containers and 4300
bytes of a number, all recognised nodes have the right types and the delivery in it is complete. The
result then holds just what the document does. Beyond the limits the error is about them. -/
theorem decode_ok_iff_complete (bytes : List UInt8) (json : Json) (h : json.DenotedBy bytes) :
    ((∃ d, decode? bytes = .ok d) ↔
      bodyLimits.Allow bytes json ∧ Shape.document.Fits json ∧
        ∃ delivery, json.delivery? = some delivery ∧ CompleteDelivery delivery) ∧
    (∀ d, decode? bytes = .ok d →
      ∃ delivery, json.delivery? = some delivery ∧ DeliveryOf delivery d) ∧
    (¬ bodyLimits.Allow bytes json →
      ∃ cause line column, decode? bytes = .error (.notJson cause line column) ∧
        cause.IsLimit) := by
  by_cases hallowed : bodyLimits.Allow bytes json
  · have hjudged := decode_judged ((read_body_iff h).mpr hallowed)
    refine ⟨?_, fun d hd => ?_, fun hnot => absurd hallowed hnot⟩
    · rw [hjudged.succeeds_iff, faults_iff, and_iff_right hallowed]
    · rw [hd] at hjudged
      exact hjudged.good
  · obtain ⟨cause, line, column, herror, hlimit⟩ := decode?_refused h hallowed
    refine ⟨?_, fun d hd => ?_, fun _ => ⟨cause, line, column, herror, hlimit⟩⟩
    · constructor
      · rintro ⟨d, hd⟩
        rw [herror] at hd
        cases hd
      · intro hcomplete
        exact absurd hcomplete.1 hallowed
    · rw [herror] at hd
      cases hd

/-! ## A document in print -/

/-- The document on one line. -/
def printed (json : Json) : List UInt8 := Utf8.encodeChars (json.chars .line 0)

def refTo (value : Json) : Json := .object [("value", value)]

/-- One journey with one call: names in both spellings, numbers in the place of texts, a null. -/
def mixedFeed : Json :=
  .object [("Siri", .object [("service_delivery", .object [
    ("responseTimestamp", .text "2024-05-06T10:00Z"), ("producer_ref", .integer 7),
    ("estimatedTimetableDelivery", .array [.object [
      ("recordedAtTime", .null), ("datedVehicleJourneyRef", refTo (.text "j")),
      ("destinationRef", refTo (.text "d")), ("direction_ref", refTo (.text "1")),
      ("lineRef", refTo (.integer 42)), ("destinationName", .array [refTo (.text "End")]),
      ("estimatedCalls", .object [("estimatedCall", .array [.object [
        ("stopPointRef", refTo (.text "s")),
        ("expectedArrivalTime", .text "2024-05-06T10:05+01:00")]])])]])])])]

/-- So many minutes after midnight on 6 May 2024. -/
def onMonday (minutes : Nat) (offset : Offset) : Timestamp :=
  ⟨⟨⟨2024, 5, 6, by decide, by decide, by decide⟩, .ofMicros (minutes * 60000000)⟩, offset⟩

def mixedCall : EstimatedCall :=
  ⟨⟨"s", by decide⟩, none, none,
    some (onMonday 605 ⟨3600000000, by decide, by decide⟩), none⟩

def mixedJourney : EstimatedVehicleJourney :=
  ⟨none, ⟨"j", by decide⟩, ⟨"d", by decide⟩, ⟨"1", by decide⟩, ⟨"42", by decide⟩, none,
    some "End", [mixedCall]⟩

def mixedDelivery : ServiceDelivery :=
  ⟨onMonday 600 .utc, ⟨"7", by decide⟩, [⟨[⟨[mixedJourney]⟩]⟩]⟩

set_option maxRecDepth 10000 in
theorem decode_ok_iff_complete_mixed :
    mixedFeed.DenotedBy (printed mixedFeed) ∧ bodyLimits.Allow (printed mixedFeed) mixedFeed ∧
      decode? (printed mixedFeed) = .ok mixedDelivery ∧ Shape.document.Fits mixedFeed ∧
      ∃ delivery, mixedFeed.delivery? = some delivery ∧ CompleteDelivery delivery ∧
        DeliveryOf delivery mixedDelivery := by
  have hread : Json.read? bodyLimits (printed mixedFeed) = .ok mixedFeed := by rfl
  have hdecodes : decode? (printed mixedFeed) = .ok mixedDelivery := by
    rw [decode?_eq hread]
    exact toOption_eq_some.mp (by decide +kernel)
  obtain ⟨hiff, hholds, -⟩ := decode_ok_iff_complete _ _ ⟨_, hread⟩
  obtain ⟨hallowed, hfits, delivery, hdelivery, hcomplete⟩ := hiff.mp ⟨_, hdecodes⟩
  obtain ⟨delivery', hdelivery', hof⟩ := hholds _ hdecodes
  rw [hdelivery] at hdelivery'
  cases hdelivery'
  exact ⟨⟨_, hread⟩, hallowed, hdecodes, hfits, delivery, hdelivery, hcomplete, hof⟩

/-! ## A document beyond the limits -/

/-- So many lists, one inside the other, and a text in the innermost one. -/
def nested : Nat → Json
  | 0 => .text ""
  | n + 1 => .array [nested n]

theorem plainTo_nested (n : Nat) : (nested n).PlainTo n := by
  induction n with
  | zero => exact .text 0 ""
  | succ n ih => exact .array (List.forall_mem_singleton.mpr ih)

theorem depth_nested (n : Nat) : (nested n).depth = n := by
  induction n with
  | zero => rfl
  | succ n ih => rw [nested, Json.depth, Json.itemsDepth, Json.itemsDepth, ih, Nat.max_zero]

/-- A delivery with a producer, and beside it 200 lists under a key that nobody knows. -/
def deepFeed (timestamp : Json) : Json :=
  .object [("Siri", .object [("serviceDelivery", .object [
    ("responseTimestamp", timestamp), ("producerRef", .text "P")])]), ("extension", nested 200)]

theorem deepFeed_denoted {timestamp : Json} (h : timestamp.PlainTo 198) :
    (deepFeed timestamp).DenotedBy (printed (deepFeed timestamp)) := by
  refine ⟨⟨201, 4300⟩, Json.read_print (.object ?_) (Nat.le_refl 201) .line⟩
  intro member hmember
  simp only [List.mem_cons, List.not_mem_nil, or_false] at hmember
  rcases hmember with rfl | rfl
  · refine .object (List.forall_mem_singleton.mpr (.object ?_))
    intro member hmember
    simp only [List.mem_cons, List.not_mem_nil, or_false] at hmember
    rcases hmember with rfl | rfl
    · exact h
    · exact .text _ _
  · exact plainTo_nested 200

theorem deepFeed_not_allowed (timestamp : Json) (bytes : List UInt8) :
    ¬ bodyLimits.Allow bytes (deepFeed timestamp) := by
  intro hallowed
  have hdepth : 201 ≤ (deepFeed timestamp).depth := by
    rw [deepFeed, Json.depth, Json.membersDepth, Json.membersDepth, depth_nested]
    omega
  exact absurd (Nat.le_trans hdepth hallowed.depth) (show ¬ 201 ≤ 200 by decide)

/-- All that it takes to decode, but for the depth of what nobody asks for. -/
theorem deepFeed_not_decoded :
    let feed := deepFeed (.text "2024-05-06T10:00Z")
    feed.DenotedBy (printed feed) ∧ Shape.document.Fits feed ∧
      (∃ delivery, feed.delivery? = some delivery ∧ CompleteDelivery delivery) ∧
      ¬ ∃ d, decode? (printed feed) = .ok d := by
  intro feed
  have hdenoted : feed.DenotedBy (printed feed) := deepFeed_denoted (.text _ _)
  refine ⟨hdenoted, (Shape.misfits_eq_nil_iff _ [] _).mp rfl, ⟨_, rfl, ?_⟩, ?_⟩
  · exact (Check.delivery_faults_iff _).mp (by decide +kernel)
  · rintro ⟨d, hd⟩
    obtain ⟨cause, line, column, herror, -⟩ :=
      decode?_refused hdenoted (deepFeed_not_allowed _ _)
    rw [herror] at hd
    cases hd

end TimetableFeed
