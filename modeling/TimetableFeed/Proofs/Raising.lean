import TimetableFeed.Delivery.Decode
import TimetableFeed.Proofs.Construction
import TimetableFeed.Proofs.WrittenTime

/-!
# What decoding can raise

Decoding as it is made of parts that may fail on their own: an offset is a span of time first, which
must not be too long, and each record is built by its own reader, which checks again what it is
given. Such failures would be no errors of decoding. They do not occur: an offset is read from a few
digits, and what has passed the checks of a draft passes those of the readers. So the decoder that
allows for them does what `decode?` does, and raises its errors only.

Main definitions: `Raised`, `Draft.Document.build`, `decodeRaising`. Main statement:
`decoding_raises_decode_errors`.
-/

namespace TimetableFeed

/-- What may be raised on the way to a delivery. -/
inductive Raised where
  /-- A text is not a timestamp. -/
  | value (error : MomentError)
  | overflow (error : DurationError)
  /-- A record has been given data that it does not take. -/
  | invalid (issues : List Issue)
  | decode (error : DecodeError)
  deriving DecidableEq, Repr

/-! ## Times -/

namespace Iso

/-- An offset as a span of time, which must be less than a day either way. -/
def buildOffset (micros : Int) : Except Raised Offset := do
  let span ← (Duration.ofMicros? micros).mapError .overflow
  match Offset.of? span.micros with
  | some offset => return offset
  | none => throw (.value (.offset micros))

def Numbers.build (n : Numbers) : Except Raised Moment := do
  let offset? ←
    match n.offset? with
    | none => pure none
    | some micros => (buildOffset micros).map some
  let date ← (Date.of? n.year n.month n.day).mapError fun e => .value (.field e)
  let time ← (ClockTime.of? n.clock.hour n.clock.minute n.clock.second n.clock.micros).mapError
    fun e => .value (.field e)
  return ⟨⟨date, time⟩, offset?⟩

theorem digitsFrom_lt {total count v : Nat} {s rest : List UInt8}
    (h : digitsFrom total count s = some (v, rest)) : v < (total + 1) * 10 ^ count := by
  induction count generalizing total s with
  | zero =>
      cases h
      omega
  | succ count ih =>
      cases s with
      | nil => cases h
      | cons b tail =>
          obtain ⟨d, hd, htail⟩ := Option.bind_eq_some_iff.mp h
          have hdigit : d < 10 := Text.asciiDigit?_lt hd
          calc v < (total * 10 + d + 1) * 10 ^ count := ih htail
            _ ≤ ((total + 1) * 10) * 10 ^ count := Nat.mul_le_mul_right _ (by omega)
            _ = (total + 1) * 10 ^ (count + 1) := by
              rw [Nat.pow_succ, Nat.mul_assoc, Nat.mul_comm 10]

theorem digits_lt {count v : Nat} {s rest : List UInt8} (h : digits? count s = some (v, rest)) :
    v < 10 ^ count := by
  simpa using digitsFrom_lt h

theorem fraction_lt {s rest : List UInt8} {micros : Nat} (h : fraction? s = some (micros, rest)) :
    micros < 1000000 := by
  unfold fraction? at h
  obtain ⟨⟨v, tail⟩, hdigits, h⟩ := Option.bind_eq_some_iff.mp h
  cases h
  have hv := digits_lt hdigits
  have hcount : min 6 s.length + (6 - min 6 s.length) = 6 := by omega
  calc v * tenPow (6 - min 6 s.length)
      < 10 ^ min 6 s.length * 10 ^ (6 - min 6 s.length) :=
        Nat.mul_lt_mul_of_pos_right hv (Nat.pow_pos (by decide))
    _ = 1000000 := by rw [← Nat.pow_add, hcount]

theorem numbers_lt {colons : Option Bool} {count micros : Nat} {s rest : List UInt8}
    {values : List Nat} (h : numbers? colons count s = some (values, micros, rest)) :
    (∀ v ∈ values, v < 100) ∧ micros < 1000000 := by
  induction count generalizing colons s values micros rest with
  | zero =>
      obtain ⟨⟨micros, tail⟩, hfraction, h⟩ := Option.map_eq_some_iff.mp h
      cases h
      exact ⟨by simp, fraction_lt hfraction⟩
  | succ count ih =>
      rw [numbers?] at h
      obtain ⟨⟨v, tail⟩, hdigits, h⟩ := Option.bind_eq_some_iff.mp h
      have hv : v < 100 := digits_lt hdigits
      have hbehind : ∀ r : Option (List Nat × Nat × List UInt8),
          (∀ others micros tail, r = some (others, micros, tail) →
            (∀ v ∈ others, v < 100) ∧ micros < 1000000) →
          (r.bind fun x => some (v :: x.1, x.2.1, x.2.2)) = some (values, micros, rest) →
          (∀ v ∈ values, v < 100) ∧ micros < 1000000 := by
        intro r hr hsome
        obtain ⟨⟨others, micros, rest⟩, hrest, hsome⟩ := Option.bind_eq_some_iff.mp hsome
        cases hsome
        obtain ⟨hothers, hmicros⟩ := hr _ _ _ hrest
        exact ⟨List.forall_mem_cons.mpr ⟨hv, hothers⟩, hmicros⟩
      dsimp only at h
      split at h
      · cases h
        simpa using hv
      · cases h
        simpa using hv
      · split at h
        · exact hbehind _ (fun _ _ _ hrest => ih hrest) h
        · split at h
          · refine hbehind _ ?_ h
            intro others micros tail hmap
            obtain ⟨⟨micros, tail⟩, hfraction, heq⟩ := Option.map_eq_some_iff.mp hmap
            cases heq
            exact ⟨by simp, fraction_lt hfraction⟩
          · split at h
            · cases h
            · exact hbehind _ (fun _ _ _ hrest => ih hrest) h

theorem getD_lt {values : List Nat} (h : ∀ v ∈ values, v < 100) (i : Nat) :
    values.getD i 0 < 100 := by
  rw [List.getD_eq_getElem?_getD]
  cases hi : values[i]? with
  | none => simp
  | some v => exact h v (List.mem_of_getElem? hi)

theorem clock_lt {s : List UInt8} {c : Clock} (h : clock? s = some c) :
    c.hour < 100 ∧ c.minute < 100 ∧ c.second < 100 ∧ c.micros < 1000000 := by
  obtain ⟨⟨values, micros, rest⟩, hnumbers, h⟩ := Option.bind_eq_some_iff.mp h
  cases h
  obtain ⟨hvalues, hmicros⟩ := numbers_lt hnumbers
  exact ⟨getD_lt hvalues 0, getD_lt hvalues 1, getD_lt hvalues 2, hmicros⟩

/-- An offset is written with two digits each for hours, minutes and seconds, so it is a matter of a
few days at most. -/
theorem offset_fits {s : List UInt8} {micros : Int} (h : offset? s = some micros) :
    micros.natAbs < 5 * 86400000000 := by
  unfold offset? at h
  split at h
  · cases h
  · split at h
    · split at h <;> cases h
      decide
    · obtain ⟨c, hclock, h⟩ := Option.bind_eq_some_iff.mp h
      split at h
      · cases h
      · cases h
        obtain ⟨hhour, hminute, hsecond, hmicros⟩ := clock_lt hclock
        have htotal : c.total < 5 * 86400000000 := by
          unfold Clock.total
          omega
        unfold offsetMicros
        split
        · decide
        · split <;> omega

theorem buildOffset_eq {micros : Int} (h : micros.natAbs < 5 * 86400000000) :
    buildOffset micros =
      match Offset.of? micros with
      | some offset => .ok offset
      | none => .error (.value (.offset micros)) := by
  have hspan : -999999999 * dayMicros ≤ micros ∧ micros < 1000000000 * dayMicros := by
    unfold dayMicros
    omega
  unfold buildOffset Duration.ofMicros?
  rw [dif_pos hspan]
  simp only [Except.mapError, bind, Except.bind]
  cases Offset.of? micros <;> rfl

theorem Numbers.build_eq {s : List UInt8} {n : Numbers} (h : numbersOf? s = some n) :
    n.build = n.check.mapError .value := by
  unfold build check
  cases hmicros : n.offset? with
  | none =>
      cases Date.of? n.year n.month n.day <;>
        cases ClockTime.of? n.clock.hour n.clock.minute n.clock.second n.clock.micros <;> rfl
  | some micros =>
      obtain ⟨mark, tail, -, -, hoffset⟩ := offset_of_numbers h hmicros
      simp only [buildOffset_eq (offset_fits hoffset)]
      cases Offset.of? micros with
      | none => rfl
      | some offset =>
          cases Date.of? n.year n.month n.day <;>
            cases ClockTime.of? n.clock.hour n.clock.minute n.clock.second n.clock.micros <;> rfl

end Iso

def Moment.build (text : String) : Except Raised Moment :=
  match Iso.numbersOf? (Utf8.encode text) with
  | none => .error (.value (.malformed text))
  | some numbers => numbers.build

/-- Reads a point in time that must have an offset. -/
def Timestamp.build (text : String) : Except Raised Moment := do
  let bare := String.ofList (withoutZone (Text.trimChars Text.isBlankChar text.toList))
  let moment ← Moment.build bare
  if moment.offset?.isNone then throw (.value (.noOffset text)) else return moment

theorem Moment.build_eq (text : String) :
    Moment.build text = (Moment.read? text).mapError .value := by
  unfold build read?
  cases hnumbers : Iso.numbersOf? (Utf8.encode text) with
  | none => rfl
  | some n => exact Iso.Numbers.build_eq hnumbers

/-- Whatever the text is, reading it as a timestamp raises nothing else than that it is none. -/
theorem Timestamp.build_eq (text : String) :
    Timestamp.build text = ((Timestamp.read? text).map Timestamp.moment).mapError .value := by
  unfold build read?
  simp only [Moment.build_eq]
  cases Moment.read? _ with
  | error e => rfl
  | ok m =>
      obtain ⟨wall, offset?⟩ := m
      cases offset? <;> rfl

/-! ## Records -/

/-- A record is built by its reader from data under the names of its fields. -/
def construct {α : Type} (read : Datum.DatumReader α) (data : List (Field × Datum)) :
    Except Raised α :=
  match read [] (.object (Datum.keyed data)) with
  | .ok x => .ok x
  | .faulty issues => .error (.invalid issues)

theorem construct_eq {α : Type} {read : Datum.DatumReader α} {data : List (Field × Datum)} {x : α}
    (h : read [] (.object (Datum.keyed data)) = .ok x) : construct read data = .ok x := by
  unfold construct
  rw [h]

/-- What does not fit is refused. -/
example : construct EstimatedCall.ofDatum (EstimatedCall.data "" none none none none) =
    .error (.invalid [⟨[.key "stop_point_ref"], .emptyText⟩]) := by
  rfl

namespace Draft

/-- A text that must be there and hold more than white space, as it is. -/
def buildText (node : Node) (place : Place) : Option String → Except Raised String
  | none => .error (.decode (.missing node place))
  | some s => if Text.isBlank s = true then .error (.decode (.missing node place)) else .ok s

def buildRef (field : Field) (place : Place) : Option Ref → Except Raised String
  | none => .error (.decode (.missing (.field field) place))
  | some ref => buildText (.valueOf field) place ref.value

/-- Only what says that the text is no timestamp is turned into an error of decoding. -/
def buildTime (field : Field) (place : Place) (s : String) : Except Raised Moment :=
  match Timestamp.build s with
  | .ok moment => .ok moment
  | .error (.value _) => .error (.decode (.invalidTimestamp s field place))
  | .error raised => .error raised

def buildTime? (field : Field) (place : Place) : Option String → Except Raised (Option Moment)
  | none => .ok none
  | some s => (buildTime field place s).map some

def Call.build (place : Place) (c : Call) : Except Raised EstimatedCall := do
  let stopPointRef ← buildRef .stopPointRef place c.stopPointRef
  let aimedArrivalTime ← buildTime? .aimedArrivalTime place c.aimedArrivalTime
  let aimedDepartureTime ← buildTime? .aimedDepartureTime place c.aimedDepartureTime
  let expectedArrivalTime ← buildTime? .expectedArrivalTime place c.expectedArrivalTime
  let expectedDepartureTime ← buildTime? .expectedDepartureTime place c.expectedDepartureTime
  construct EstimatedCall.ofDatum (EstimatedCall.data stopPointRef aimedArrivalTime
    aimedDepartureTime expectedArrivalTime expectedDepartureTime)

/-- Builds elements in their order, the first of which has the index `index`. -/
def buildFrom {α β : Type} (build : Nat → α → Except Raised β) (index : Nat) :
    List α → Except Raised (List β)
  | [] => .ok []
  | x :: rest => do
    let first ← build index x
    let others ← buildFrom build (index + 1) rest
    return first :: others

def Journey.build (index : Nat) (j : Journey) : Except Raised EstimatedVehicleJourney := do
  let place := Place.journey index
  let recordedAtTime ← buildTime? .recordedAtTime place j.recordedAtTime
  let datedVehicleJourneyRef ← buildRef .datedVehicleJourneyRef place j.datedVehicleJourneyRef
  let destinationRef ← buildRef .destinationRef place j.destinationRef
  let directionRef ← buildRef .directionRef place j.directionRef
  let lineRef ← buildRef .lineRef place j.lineRef
  let estimatedCalls ← buildFrom (fun i call => call.build (.call index i)) 0 j.estimatedCalls
  construct EstimatedVehicleJourney.ofDatum (EstimatedVehicleJourney.data recordedAtTime
    datedVehicleJourneyRef destinationRef directionRef lineRef (firstName j.publishedLineName)
    (firstName j.destinationName) estimatedCalls)

def Delivery.build (d : Delivery) : Except Raised ServiceDelivery := do
  let written ← buildText (.field .responseTimestamp) .delivery d.responseTimestamp
  let responseTimestamp ← buildTime .responseTimestamp .delivery written
  let producerRef ← buildText (.field .producerRef) .delivery d.producerRef
  let journeys ← buildFrom Journey.build 0 d.journeys
  let frame ← construct VersionFrame.ofDatum (VersionFrame.data journeys)
  let timetable ←
    construct EstimatedTimetableDelivery.ofDatum (EstimatedTimetableDelivery.data [frame])
  construct ServiceDelivery.ofDatum
    (ServiceDelivery.data responseTimestamp producerRef [timetable])

def Document.build (d : Document) : Except Raised ServiceDelivery :=
  match d.siri with
  | none => .error (.decode .noRoot)
  | some siri =>
    match siri.serviceDelivery with
    | none => .error (.decode .noServiceDelivery)
    | some delivery => delivery.build

end Draft

/-- Decodes the body of a response; anything that fails on the way is raised. -/
def decodeRaising (bytes : List UInt8) : Except Raised ServiceDelivery :=
  match Json.read? bodyLimits bytes with
  | .error e =>
    .error (.decode (.notJson e.cause (Json.lineAt bytes e.index) (Json.columnAt bytes e.index)))
  | .ok json =>
    match Draft.document json with
    | .error m => .error (.decode (.wrongType m))
    | .ok draft => draft.build

/-! ## Nothing else is raised -/

/-- What is built is what the checks give, under the view, and what is raised is their error. -/
inductive Follows {α β : Type} (view : α → β) : Except DecodeError α → Except Raised β → Prop where
  | ok (x : α) : Follows view (.ok x) (.ok (view x))
  | error (e : DecodeError) : Follows view (.error e) (.error (.decode e))

namespace Follows

variable {α β γ δ : Type} {view : α → β} {r : Except DecodeError α} {r' : Except Raised β}

theorem bind {view' : γ → δ} (h : Follows view r r') {k : α → Except DecodeError γ}
    {k' : β → Except Raised δ} (hk : ∀ x, Follows view' (k x) (k' (view x))) :
    Follows view' (r >>= k) (r' >>= k') := by
  cases h with
  | ok x => exact hk x
  | error e => exact .error e

theorem map {view' : γ → δ} (h : Follows view r r') {f : α → γ} {f' : β → δ}
    (hf : ∀ x, f' (view x) = view' (f x)) : Follows view' (r.map f) (r'.map f') := by
  cases h with
  | ok x =>
      show Follows view' (.ok (f x)) (.ok (f' (view x)))
      rw [hf]
      exact .ok (f x)
  | error e => exact .error e

theorem eq_mapError {r' : Except Raised α} (h : Follows id r r') : r' = r.mapError .decode := by
  cases h <;> rfl

theorem construct {read : Datum.DatumReader α} {data : List (Field × Datum)} {x : α}
    (h : read [] (.object (Datum.keyed data)) = .ok x) :
    Follows id (pure x) (construct read data) := by
  rw [construct_eq h]
  exact .ok x

end Follows

namespace Draft

theorem buildText_follows (node : Node) (place : Place) (given : Option String) :
    Follows NonEmptyText.text (required node place given) (buildText node place given) := by
  cases given with
  | none => exact .error _
  | some s =>
      rw [required, buildText]
      by_cases h : Text.isBlank s = true
      · rw [dif_pos h, if_pos h]
        exact .error _
      · rw [dif_neg h, if_neg h]
        exact .ok (⟨s, _⟩ : NonEmptyText)

theorem buildRef_follows (f : Field) (place : Place) (given : Option Ref) :
    Follows NonEmptyText.text (requiredRef f place given) (buildRef f place given) := by
  cases given with
  | none => exact .error _
  | some ref => exact buildText_follows _ _ _

theorem buildTime_follows (f : Field) (place : Place) (s : String) :
    Follows Timestamp.moment (timestamp f place s) (buildTime f place s) := by
  unfold timestamp buildTime
  rw [Timestamp.build_eq]
  cases Timestamp.read? s with
  | ok t => exact .ok t
  | error e => exact .error _

theorem buildTime?_follows (f : Field) (place : Place) (given : Option String) :
    Follows (Option.map Timestamp.moment) (timestamp? f place given)
      (buildTime? f place given) := by
  cases given with
  | none => exact .ok none
  | some s =>
      rw [timestamp?, buildTime?]
      exact (buildTime_follows f place s).map fun t => rfl

theorem call_follows (place : Place) (c : Call) : Follows id (c.check place) (c.build place) := by
  refine (buildRef_follows .stopPointRef place _).bind fun stop => ?_
  refine (buildTime?_follows .aimedArrivalTime place _).bind fun aimedArrival => ?_
  refine (buildTime?_follows .aimedDepartureTime place _).bind fun aimedDeparture => ?_
  refine (buildTime?_follows .expectedArrivalTime place _).bind fun arrival => ?_
  refine (buildTime?_follows .expectedDepartureTime place _).bind fun departure => ?_
  exact .construct (EstimatedCall.ofDatum_toDatum []
    ⟨stop, aimedArrival, aimedDeparture, arrival, departure⟩)

theorem buildFrom_follows {α β : Type} {check : Nat → α → Except DecodeError β}
    {build : Nat → α → Except Raised β} (h : ∀ index x, Follows id (check index x) (build index x))
    (xs : List α) (index : Nat) :
    Follows id (checkFrom check index xs) (buildFrom build index xs) := by
  induction xs generalizing index with
  | nil => exact .ok []
  | cons x rest ih =>
      refine (h index x).bind fun first => ?_
      refine (ih (index + 1)).bind fun others => ?_
      exact .ok _

theorem journey_follows (index : Nat) (j : Journey) :
    Follows id (j.check index) (j.build index) := by
  refine (buildTime?_follows .recordedAtTime _ _).bind fun recorded => ?_
  refine (buildRef_follows .datedVehicleJourneyRef _ _).bind fun dated => ?_
  refine (buildRef_follows .destinationRef _ _).bind fun destination => ?_
  refine (buildRef_follows .directionRef _ _).bind fun direction => ?_
  refine (buildRef_follows .lineRef _ _).bind fun line => ?_
  refine (buildFrom_follows (fun i call => call_follows (.call index i) call) _ 0).bind
    fun calls => ?_
  exact .construct (EstimatedVehicleJourney.ofDatum_toDatum []
    ⟨recorded, dated, destination, direction, line, firstName j.publishedLineName,
      firstName j.destinationName, calls⟩)

theorem delivery_follows (d : Delivery) : Follows id d.check d.build := by
  refine (buildText_follows (.field .responseTimestamp) _ _).bind fun written => ?_
  refine (buildTime_follows .responseTimestamp _ _).bind fun time => ?_
  refine (buildText_follows (.field .producerRef) _ _).bind fun producer => ?_
  refine (buildFrom_follows journey_follows _ 0).bind fun journeys => ?_
  -- the checks put the journeys into one version of one timetable; here these are built as well
  have hframe : construct VersionFrame.ofDatum (VersionFrame.data journeys) = .ok ⟨journeys⟩ :=
    construct_eq (VersionFrame.ofDatum_toDatum [] ⟨journeys⟩)
  have htimetable : construct EstimatedTimetableDelivery.ofDatum
      (EstimatedTimetableDelivery.data [⟨journeys⟩]) = .ok ⟨[⟨journeys⟩]⟩ :=
    construct_eq (EstimatedTimetableDelivery.ofDatum_toDatum [] ⟨[⟨journeys⟩]⟩)
  have hdelivery : Follows id (pure ⟨time, producer, [⟨[⟨journeys⟩]⟩]⟩)
      (construct ServiceDelivery.ofDatum
        (ServiceDelivery.data time.moment producer.text [⟨[⟨journeys⟩]⟩])) :=
    .construct (ServiceDelivery.ofDatum_toDatum [] ⟨time, producer, [⟨[⟨journeys⟩]⟩]⟩)
  simpa only [id_eq, hframe, htimetable, bind, Except.bind] using hdelivery

theorem document_follows (d : Document) : Follows id d.check d.build := by
  obtain ⟨siri?⟩ := d
  cases siri? with
  | none => exact .error _
  | some siri =>
      obtain ⟨delivery?⟩ := siri
      cases delivery? with
      | none => exact .error _
      | some delivery => exact delivery_follows delivery

end Draft

/-- **Decoding raises errors of decoding only**, whatever the body is. For every document of the
right shape the records are built or the first check that fails is the error: none of them refuses
what it is given. And no text makes reading a timestamp raise anything but that it is none. -/
theorem decoding_raises_decode_errors :
    (∀ bytes, decodeRaising bytes = (decode? bytes).mapError .decode) ∧
      (∀ draft : Draft.Document, draft.build = draft.check.mapError .decode) ∧
      ∀ text, Timestamp.build text =
        ((Timestamp.read? text).map Timestamp.moment).mapError .value := by
  have hbuilt : ∀ draft : Draft.Document, draft.build = draft.check.mapError .decode :=
    fun draft => (Draft.document_follows draft).eq_mapError
  refine ⟨fun bytes => ?_, hbuilt, Timestamp.build_eq⟩
  unfold decodeRaising decode?
  cases Json.read? bodyLimits bytes with
  | error e => rfl
  | ok json =>
      show (match Draft.document json with
        | .error m => .error (.decode (.wrongType m))
        | .ok draft => draft.build) = (decodeJson? json).mapError .decode
      unfold decodeJson?
      cases Draft.document json with
      | error m => rfl
      | ok draft => exact hbuilt draft

end TimetableFeed
