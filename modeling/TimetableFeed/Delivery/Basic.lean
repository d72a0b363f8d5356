import TimetableFeed.Time.Timestamp

/-!
# Estimated-timetable deliveries

What a feed has delivered once it has been checked: texts that must be there are not empty, and
every time has its offset.
-/

namespace TimetableFeed

/-- A text that is not empty. -/
structure NonEmptyText where
  text : String
  ne_empty : text ≠ ""
  deriving DecidableEq, Repr

/-- One stop of a journey, with the times that the feed gives for it. -/
structure EstimatedCall where
  stopPointRef : NonEmptyText
  aimedArrivalTime : Option Timestamp
  aimedDepartureTime : Option Timestamp
  expectedArrivalTime : Option Timestamp
  expectedDepartureTime : Option Timestamp
  deriving DecidableEq, Repr

/-- One dated run of a vehicle, with its predicted calls. -/
structure EstimatedVehicleJourney where
  recordedAtTime : Option Timestamp
  datedVehicleJourneyRef : NonEmptyText
  destinationRef : NonEmptyText
  directionRef : NonEmptyText
  lineRef : NonEmptyText
  publishedLineName : Option String
  destinationName : Option String
  estimatedCalls : List EstimatedCall
  deriving DecidableEq, Repr

structure VersionFrame where
  vehicleJourneys : List EstimatedVehicleJourney
  deriving DecidableEq, Repr

structure EstimatedTimetableDelivery where
  versionFrames : List VersionFrame
  deriving DecidableEq, Repr

/-- All that one response delivers, and when its producer made it. -/
structure ServiceDelivery where
  responseTimestamp : Timestamp
  producerRef : NonEmptyText
  estimatedTimetableDeliveries : List EstimatedTimetableDelivery
  deriving DecidableEq, Repr

def journeysOf (deliveries : List EstimatedTimetableDelivery) : List EstimatedVehicleJourney :=
  deliveries.flatMap fun delivery =>
    delivery.versionFrames.flatMap fun frame => frame.vehicleJourneys

def ServiceDelivery.journeys (d : ServiceDelivery) : List EstimatedVehicleJourney :=
  journeysOf d.estimatedTimetableDeliveries

end TimetableFeed
