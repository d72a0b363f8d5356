import TimetableFeed.Delivery.Basic
import TimetableFeed.Delivery.Field
import TimetableFeed.Json.Value

/-!
# Writing deliveries

A delivery as a JSON document: every field is written, a missing value as null, and times with
offsets in whole minutes.
-/

namespace TimetableFeed

def Json.ofOption {α : Type} (write : α → Json) : Option α → Json
  | none => .null
  | some x => write x

def Timestamp.toJson (t : Timestamp) : Json := .text t.writeMinutes

def EstimatedCall.toJson (spelling : Spelling) (c : EstimatedCall) : Json :=
  .object [
    (Field.stopPointRef.name spelling, .text c.stopPointRef.text),
    (Field.aimedArrivalTime.name spelling, .ofOption Timestamp.toJson c.aimedArrivalTime),
    (Field.aimedDepartureTime.name spelling, .ofOption Timestamp.toJson c.aimedDepartureTime),
    (Field.expectedArrivalTime.name spelling, .ofOption Timestamp.toJson c.expectedArrivalTime),
    (Field.expectedDepartureTime.name spelling, .ofOption Timestamp.toJson c.expectedDepartureTime)]

def EstimatedVehicleJourney.toJson (spelling : Spelling) (j : EstimatedVehicleJourney) : Json :=
  .object [
    (Field.recordedAtTime.name spelling, .ofOption Timestamp.toJson j.recordedAtTime),
    (Field.datedVehicleJourneyRef.name spelling, .text j.datedVehicleJourneyRef.text),
    (Field.destinationRef.name spelling, .text j.destinationRef.text),
    (Field.directionRef.name spelling, .text j.directionRef.text),
    (Field.lineRef.name spelling, .text j.lineRef.text),
    (Field.publishedLineName.name spelling, .ofOption .text j.publishedLineName),
    (Field.destinationName.name spelling, .ofOption .text j.destinationName),
    (Field.estimatedCalls.name spelling, .array (j.estimatedCalls.map (·.toJson spelling)))]

def VersionFrame.toJson (spelling : Spelling) (f : VersionFrame) : Json :=
  .object [
    (Field.vehicleJourneys.name spelling, .array (f.vehicleJourneys.map (·.toJson spelling)))]

def EstimatedTimetableDelivery.toJson (spelling : Spelling) (d : EstimatedTimetableDelivery) :
    Json :=
  .object [(Field.versionFrames.name spelling, .array (d.versionFrames.map (·.toJson spelling)))]

def ServiceDelivery.toJson (spelling : Spelling) (d : ServiceDelivery) : Json :=
  .object [
    (Field.responseTimestamp.name spelling, d.responseTimestamp.toJson),
    (Field.producerRef.name spelling, .text d.producerRef.text),
    (Field.estimatedTimetableDeliveries.name spelling,
      .array (d.estimatedTimetableDeliveries.map (·.toJson spelling)))]

end TimetableFeed
