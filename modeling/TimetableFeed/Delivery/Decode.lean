import TimetableFeed.Delivery.Basic
import TimetableFeed.Delivery.DecodeError
import TimetableFeed.Json.Reader
import TimetableFeed.Time.Iso

/-!
# Decoding deliveries

From the body of a response to a delivery, or to the first error. The document is read as JSON,
then for its shape, and at last its texts are checked: first the response timestamp and the
producer, then journey by journey, each with its calls. The result holds one timetable with one
version.

Main definitions: `decode?`, `Draft.Document.check`.
-/

namespace TimetableFeed

namespace Draft

/-- A text that must be there and hold more than white space. -/
def required (node : Node) (place : Place) : Option String → Except DecodeError NonEmptyText
  | none => .error (.missing node place)
  | some s =>
    if h : Text.isBlank s = true then .error (.missing node place)
    else .ok ⟨s, by rintro rfl; exact h rfl⟩

/-- A reference that must be there, with a value that holds more than white space. -/
def requiredRef (field : Field) (place : Place) : Option Ref → Except DecodeError NonEmptyText
  | none => .error (.missing (.field field) place)
  | some ref => required (.valueOf field) place ref.value

def timestamp (field : Field) (place : Place) (s : String) : Except DecodeError Timestamp :=
  (Timestamp.read? s).mapError fun _ => .invalidTimestamp s field place

def timestamp? (field : Field) (place : Place) :
    Option String → Except DecodeError (Option Timestamp)
  | none => .ok none
  | some s => (timestamp field place s).map some

/-- Of several names the first counts; an empty one counts as none. -/
def firstName (names : List Ref) : Option String :=
  (names.head?.bind Ref.value).filter (· ≠ "")

def Call.check (place : Place) (c : Call) : Except DecodeError EstimatedCall := do
  let stopPointRef ← requiredRef .stopPointRef place c.stopPointRef
  let aimedArrivalTime ← timestamp? .aimedArrivalTime place c.aimedArrivalTime
  let aimedDepartureTime ← timestamp? .aimedDepartureTime place c.aimedDepartureTime
  let expectedArrivalTime ← timestamp? .expectedArrivalTime place c.expectedArrivalTime
  let expectedDepartureTime ← timestamp? .expectedDepartureTime place c.expectedDepartureTime
  return ⟨stopPointRef, aimedArrivalTime, aimedDepartureTime, expectedArrivalTime,
    expectedDepartureTime⟩

/-- Checks elements in their order, the first of which has the index `index`. -/
def checkFrom {α β : Type} (check : Nat → α → Except DecodeError β) (index : Nat) :
    List α → Except DecodeError (List β)
  | [] => .ok []
  | x :: rest => do
    let first ← check index x
    let others ← checkFrom check (index + 1) rest
    return first :: others

def Journey.check (index : Nat) (j : Journey) : Except DecodeError EstimatedVehicleJourney := do
  let place := Place.journey index
  let recordedAtTime ← timestamp? .recordedAtTime place j.recordedAtTime
  let datedVehicleJourneyRef ←
    requiredRef .datedVehicleJourneyRef place j.datedVehicleJourneyRef
  let destinationRef ← requiredRef .destinationRef place j.destinationRef
  let directionRef ← requiredRef .directionRef place j.directionRef
  let lineRef ← requiredRef .lineRef place j.lineRef
  let estimatedCalls ←
    checkFrom (fun i call => call.check (.call index i)) 0 j.estimatedCalls
  return ⟨recordedAtTime, datedVehicleJourneyRef, destinationRef, directionRef, lineRef,
    firstName j.publishedLineName, firstName j.destinationName, estimatedCalls⟩

def Delivery.check (d : Delivery) : Except DecodeError ServiceDelivery := do
  let written ← required (.field .responseTimestamp) .delivery d.responseTimestamp
  let responseTimestamp ← timestamp .responseTimestamp .delivery written.text
  let producerRef ← required (.field .producerRef) .delivery d.producerRef
  let journeys ← checkFrom Journey.check 0 d.journeys
  return ⟨responseTimestamp, producerRef, [⟨[⟨journeys⟩]⟩]⟩

def Document.check (d : Document) : Except DecodeError ServiceDelivery :=
  match d.siri with
  | none => .error .noRoot
  | some siri =>
    match siri.serviceDelivery with
    | none => .error .noServiceDelivery
    | some delivery => delivery.check

end Draft

/-- How much of a body is read: values inside two hundred containers, and numbers with 4300 bytes
before their point. -/
def bodyLimits : Json.Limits := ⟨200, 4300⟩

def decodeJson? (json : Json) : Except DecodeError ServiceDelivery := do
  let draft ← (Draft.document json).mapError .wrongType
  draft.check

def decode? (bytes : List UInt8) : Except DecodeError ServiceDelivery :=
  match Json.read? bodyLimits bytes with
  | .error e => .error (.notJson e.cause (Json.lineAt bytes e.index) (Json.columnAt bytes e.index))
  | .ok json => decodeJson? json

end TimetableFeed
