import TimetableFeed.Delivery.Decode
import TimetableFeed.Proofs.Drafts

/-!
# The checks of a delivery

All the checks that the texts of a document must pass, as a list: first those of the delivery, then
journey by journey its own and those of its calls. A check is data, with the field, the place and
what the document holds there, so it passes or fails on its own, whatever becomes of the others.
The draft of a delivery is checked by a program that stops at the first failure.

Main statement: `delivery_judged`.
-/

namespace TimetableFeed

/-- A check of one field at one place, with what the document holds there. -/
inductive Check where
  /-- A text that must hold more than white space. -/
  | text (field : Field) (place : Place) (given : Option String)
  /-- A reference that must be there, and its value must hold more than white space. -/
  | ref (field : Field) (place : Place) (given : Option (Option String))
  /-- A text that must be a timestamp, if it is there. -/
  | time (field : Field) (place : Place) (given : Option String)

namespace Check

def passes : Check → Bool
  | .text _ _ given => given.any fun s => !Text.isBlank s
  | .ref _ _ given => (given.bind id).any fun s => !Text.isBlank s
  | .time _ _ given => given.all fun s => (Timestamp.read? s).isOk

def error : Check → DecodeError
  | .text f place _ => .missing (.field f) place
  | .ref f place none => .missing (.field f) place
  | .ref f place (some _) => .missing (.valueOf f) place
  | .time f place given => .invalidTimestamp (given.getD "") f place

def place : Check → Place
  | .text _ place _ => place
  | .ref _ place _ => place
  | .time _ place _ => place

def kind : Check → ErrorKind
  | .text _ _ _ => .missingMandatoryField
  | .ref _ _ _ => .missingMandatoryField
  | .time _ _ _ => .invalidTimestamp

def name : Check → String
  | .text f _ _ => f.camel
  | .ref f _ none => f.camel
  | .ref f _ (some _) => f.camel ++ "." ++ Field.value.camel
  | .time f _ _ => f.camel

theorem error_blame (c : Check) : c.error.blame = c.place.blame c.kind c.name := by
  cases c with
  | ref f place given => cases given <;> rfl
  | _ => rfl

/-- The errors of all checks that fail. -/
def faults (checks : List Check) : List DecodeError :=
  (checks.filter fun c => !c.passes).map error

theorem faults_cons (c : Check) (rest : List Check) :
    faults (c :: rest) = faults [c] ++ faults rest := by
  unfold faults
  rw [← List.map_append, ← List.filter_append, List.singleton_append]

theorem faults_append (xs ys : List Check) : faults (xs ++ ys) = faults xs ++ faults ys := by
  unfold faults
  rw [List.filter_append, List.map_append]

theorem faults_flatMap {α : Type} (xs : List α) (f : α → List Check) :
    faults (xs.flatMap f) = xs.flatMap fun x => faults (f x) := by
  induction xs with
  | nil => rfl
  | cons x rest ih => rw [List.flatMap_cons, List.flatMap_cons, faults_append, ih]

theorem faults_eq_nil_iff (checks : List Check) : faults checks = [] ↔ ∀ c ∈ checks, c.passes := by
  unfold faults
  simp

theorem faults_of_passes {c : Check} (h : c.passes = true) : faults [c] = [] := by
  simp [faults, h]

theorem faults_of_fails {c : Check} (h : c.passes = false) : faults [c] = [c.error] := by
  simp [faults, h]

theorem time_fails_iff {f : Field} {place : Place} {s : String} :
    (Check.time f place (some s)).passes = false ↔ ∀ t, Timestamp.read? s ≠ .ok t := by
  cases h : Timestamp.read? s with
  | ok t => simp [passes, h, Except.isOk, Except.toBool]
  | error e => simp [passes, h, Except.isOk, Except.toBool]

end Check

/-! ## The checks of a document -/

namespace Json

/-- What a field holds where a reference should be: nothing, or an object and perhaps its value. -/
def refAt (json : Json) (f : Field) : Option (Option String) :=
  (json.node? f).map fun node => node.textAt .value

/-- The value of the reference in a field. -/
def valueAt (json : Json) (f : Field) : Option String := (json.refAt f).bind id

/-- The first of the names in a field; an empty one counts as none. -/
def nameAt (json : Json) (f : Field) : Option String :=
  ((json.itemsAt f).head?.bind fun name => name.textAt .value).filter (· ≠ "")

def callChecks (place : Place) (call : Json) : List Check :=
  [.ref .stopPointRef place (call.refAt .stopPointRef),
    .time .aimedArrivalTime place (call.textAt .aimedArrivalTime),
    .time .aimedDepartureTime place (call.textAt .aimedDepartureTime),
    .time .expectedArrivalTime place (call.textAt .expectedArrivalTime),
    .time .expectedDepartureTime place (call.textAt .expectedDepartureTime)]

def journeyChecks (index : Nat) (journey : Json) : List Check :=
  .time .recordedAtTime (.journey index) (journey.textAt .recordedAtTime) ::
  .ref .datedVehicleJourneyRef (.journey index) (journey.refAt .datedVehicleJourneyRef) ::
  .ref .destinationRef (.journey index) (journey.refAt .destinationRef) ::
  .ref .directionRef (.journey index) (journey.refAt .directionRef) ::
  .ref .lineRef (.journey index) (journey.refAt .lineRef) ::
  journey.calls.zipIdx.flatMap fun call => call.1.callChecks (.call index call.2)

def deliveryChecks (delivery : Json) : List Check :=
  .text .responseTimestamp .delivery (delivery.textAt .responseTimestamp) ::
  .time .responseTimestamp .delivery (delivery.textAt .responseTimestamp) ::
  .text .producerRef .delivery (delivery.textAt .producerRef) ::
  (delivery.itemsAt .estimatedTimetableDelivery).zipIdx.flatMap fun journey =>
    journey.1.journeyChecks journey.2

end Json

/-! ## What a delivery holds -/

/-- The time is the one that the text in the field writes; there is none if there is no text. -/
def TimeOf (json : Json) (f : Field) (t : Option Timestamp) : Prop :=
  (json.textAt f).map Timestamp.read? = t.map .ok

/-- The call holds what the document does. -/
structure CallOf (json : Json) (c : EstimatedCall) : Prop where
  stopPointRef : json.valueAt .stopPointRef = some c.stopPointRef.text
  aimedArrivalTime : TimeOf json .aimedArrivalTime c.aimedArrivalTime
  aimedDepartureTime : TimeOf json .aimedDepartureTime c.aimedDepartureTime
  expectedArrivalTime : TimeOf json .expectedArrivalTime c.expectedArrivalTime
  expectedDepartureTime : TimeOf json .expectedDepartureTime c.expectedDepartureTime

/-- The journey holds what the document does, its calls one by one. -/
structure JourneyOf (json : Json) (j : EstimatedVehicleJourney) : Prop where
  recordedAtTime : TimeOf json .recordedAtTime j.recordedAtTime
  datedVehicleJourneyRef :
    json.valueAt .datedVehicleJourneyRef = some j.datedVehicleJourneyRef.text
  destinationRef : json.valueAt .destinationRef = some j.destinationRef.text
  directionRef : json.valueAt .directionRef = some j.directionRef.text
  lineRef : json.valueAt .lineRef = some j.lineRef.text
  publishedLineName : j.publishedLineName = json.nameAt .publishedLineName
  destinationName : j.destinationName = json.nameAt .destinationName
  estimatedCalls : List.Forall₂ CallOf json.calls j.estimatedCalls

/-- The delivery holds what the document does: one timetable in one version, with the journeys one
by one. -/
structure DeliveryOf (json : Json) (d : ServiceDelivery) : Prop where
  responseTimestamp : TimeOf json .responseTimestamp (some d.responseTimestamp)
  producerRef : json.textAt .producerRef = some d.producerRef.text
  journeys : ∃ journeys, d.estimatedTimetableDeliveries = [⟨[⟨journeys⟩]⟩] ∧
    List.Forall₂ JourneyOf (json.itemsAt .estimatedTimetableDelivery) journeys

namespace Draft

open Check (faults)

/-! ## One check at a time -/

theorem required_judged {c : Check} {node : Node} {place : Place} {given : Option String}
    (hpasses : c.passes = given.any fun s => !Text.isBlank s)
    (herror : c.error = .missing node place) :
    Judged (fun t => given = some t.text) (faults [c]) (required node place given) := by
  cases given with
  | none =>
      rw [Check.faults_of_fails (by rw [hpasses]; rfl), herror]
      exact Judged.error _ []
  | some s =>
      rw [required]
      by_cases hblank : Text.isBlank s = true
      · rw [Check.faults_of_fails (by rw [hpasses]; simp [hblank]), herror, dif_pos hblank]
        exact Judged.error _ []
      · rw [Check.faults_of_passes (by rw [hpasses]; simp [hblank]), dif_neg hblank]
        exact Judged.ok rfl

theorem text_check (f : Field) (place : Place) (given : Option String) :
    Judged (fun t => given = some t.text) (faults [.text f place given])
      (required (.field f) place given) :=
  required_judged rfl rfl

theorem ref_check (json : Json) (f : Field) (place : Place) :
    Judged (fun t => json.valueAt f = some t.text) (faults [.ref f place (json.refAt f)])
      (requiredRef f place ((json.node? f).map Ref.of)) := by
  unfold Json.valueAt Json.refAt
  cases json.node? f with
  | none => exact Judged.error _ []
  | some node => exact required_judged rfl rfl

theorem timestamp_check (f : Field) (place : Place) (s : String) :
    Judged (fun t => Timestamp.read? s = .ok t) (faults [.time f place (some s)])
      (timestamp f place s) := by
  unfold timestamp
  cases h : Timestamp.read? s with
  | ok t =>
      rw [Check.faults_of_passes (by simp [Check.passes, h, Except.toBool])]
      exact Judged.ok rfl
  | error e =>
      rw [Check.faults_of_fails (by simp [Check.passes, h, Except.toBool])]
      exact Judged.error _ []

theorem time_check (json : Json) (f : Field) (place : Place) :
    Judged (TimeOf json f) (faults [.time f place (json.textAt f)])
      (timestamp? f place (json.textAt f)) := by
  unfold TimeOf
  cases json.textAt f with
  | none => exact Judged.ok rfl
  | some s =>
      rw [timestamp?]
      refine (timestamp_check f place s).map fun t ht => ?_
      rw [Option.map_some, ht, Option.map_some]

/-- The first check in a list, and what goes on with its result. -/
theorem check_bind {α β : Type} {c : Check} {rest : List Check} {r : Except DecodeError α}
    {k : α → Except DecodeError β} {Good : α → Prop} {Fine : β → Prop}
    (h : Judged Good (faults [c]) r) (hk : ∀ a, Good a → Judged Fine (faults rest) (k a)) :
    Judged Fine (faults (c :: rest)) (r >>= k) := by
  rw [Check.faults_cons]
  exact h.bind hk

/-- The same checks for each of several elements, one element after the other. -/
theorem checkFrom_judged {α β : Type} {view : Json → α} {check : Nat → α → Except DecodeError β}
    {checks : Nat → Json → List Check} {Matches : Json → β → Prop}
    (h : ∀ index json, Judged (Matches json) (faults (checks index json))
      (check index (view json))) (items : List Json) :
    Judged (List.Forall₂ Matches items)
      (faults (items.zipIdx.flatMap fun item => checks item.2 item.1))
      (checkFrom check 0 (items.map view)) := by
  rw [Check.faults_flatMap]
  exact Judged.along (fun index items => checkFrom check index (items.map view)) (fun _ => rfl)
    (fun _ _ _ => rfl) h items 0

/-! ## Calls, journeys, deliveries -/

theorem call_judged (place : Place) (json : Json) :
    Judged (CallOf json) (faults (json.callChecks place)) ((Call.of json).check place) := by
  refine check_bind (ref_check json .stopPointRef place) fun stopPointRef hstop => ?_
  refine check_bind (time_check json .aimedArrivalTime place) fun aimedArrival haimed => ?_
  refine check_bind (time_check json .aimedDepartureTime place) fun aimedDeparture haimed' => ?_
  refine check_bind (time_check json .expectedArrivalTime place) fun arrival harrival => ?_
  refine check_bind (time_check json .expectedDepartureTime place) fun departure hdeparture => ?_
  exact Judged.ok ⟨hstop, haimed, haimed', harrival, hdeparture⟩

theorem firstName_of (json : Json) (f : Field) :
    firstName ((json.itemsAt f).map Ref.of) = json.nameAt f := by
  unfold firstName Json.nameAt
  cases json.itemsAt f <;> rfl

theorem journey_judged (index : Nat) (json : Json) :
    Judged (JourneyOf json) (faults (json.journeyChecks index))
      ((Journey.of json).check index) := by
  refine check_bind (time_check json .recordedAtTime _) fun recorded hrecorded => ?_
  refine check_bind (ref_check json .datedVehicleJourneyRef _) fun dated hdated => ?_
  refine check_bind (ref_check json .destinationRef _) fun destination hdestination => ?_
  refine check_bind (ref_check json .directionRef _) fun direction hdirection => ?_
  refine check_bind (ref_check json .lineRef _) fun line hline => ?_
  refine (checkFrom_judged (fun i call => call_judged (.call index i) call) json.calls).bind_pure
    fun calls hcalls => ?_
  exact ⟨hrecorded, hdated, hdestination, hdirection, hline, firstName_of json _,
    firstName_of json _, hcalls⟩

/-- **The checks of a delivery** stop at the first that fails; if all pass, the delivery holds what
the document does. -/
theorem delivery_judged (json : Json) :
    Judged (DeliveryOf json) (faults json.deliveryChecks) (Delivery.of json).check := by
  refine check_bind (text_check .responseTimestamp .delivery _) fun written hwritten => ?_
  -- the second check of the field knows from the first one that there is a text
  have hgiven : json.textAt .responseTimestamp = some written.text := hwritten
  rw [hgiven]
  refine check_bind (timestamp_check .responseTimestamp .delivery _) fun time htime => ?_
  refine check_bind (text_check .producerRef .delivery _) fun producer hproducer => ?_
  refine (checkFrom_judged journey_judged _).bind_pure fun journeys hjourneys => ?_
  refine ⟨?_, hproducer, journeys, rfl, hjourneys⟩
  unfold TimeOf
  rw [hgiven, Option.map_some, htime, Option.map_some]

end Draft

end TimetableFeed
