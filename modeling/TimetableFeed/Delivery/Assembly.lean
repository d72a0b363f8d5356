import TimetableFeed.Delivery.Datum

/-!
# Building deliveries from keyed data

One reader for each type of delivery. References must not be empty, times need an offset, and lists
that are missing are empty.
-/

namespace TimetableFeed

open Datum

def EstimatedCall.ofDatum : DatumReader EstimatedCall :=
  record "EstimatedCall"
    [.stopPointRef, .aimedArrivalTime, .aimedDepartureTime, .expectedArrivalTime,
      .expectedDepartureTime]
    fun path members =>
      EstimatedCall.mk <$> required nonEmptyText path members .stopPointRef
        <*> optional (nullable timestamp) path members .aimedArrivalTime none
        <*> optional (nullable timestamp) path members .aimedDepartureTime none
        <*> optional (nullable timestamp) path members .expectedArrivalTime none
        <*> optional (nullable timestamp) path members .expectedDepartureTime none

def EstimatedVehicleJourney.ofDatum : DatumReader EstimatedVehicleJourney :=
  record "EstimatedVehicleJourney"
    [.recordedAtTime, .datedVehicleJourneyRef, .destinationRef, .directionRef, .lineRef,
      .publishedLineName, .destinationName, .estimatedCalls]
    fun path members =>
      EstimatedVehicleJourney.mk <$> optional (nullable timestamp) path members .recordedAtTime none
        <*> required nonEmptyText path members .datedVehicleJourneyRef
        <*> required nonEmptyText path members .destinationRef
        <*> required nonEmptyText path members .directionRef
        <*> required nonEmptyText path members .lineRef
        <*> optional (nullable string) path members .publishedLineName none
        <*> optional (nullable string) path members .destinationName none
        <*> optional (items EstimatedCall.ofDatum) path members .estimatedCalls []

def VersionFrame.ofDatum : DatumReader VersionFrame :=
  record "VersionFrame" [.vehicleJourneys] fun path members =>
    VersionFrame.mk <$>
      optional (items EstimatedVehicleJourney.ofDatum) path members .vehicleJourneys []

def EstimatedTimetableDelivery.ofDatum : DatumReader EstimatedTimetableDelivery :=
  record "EstimatedTimetableDelivery" [.versionFrames] fun path members =>
    EstimatedTimetableDelivery.mk <$>
      optional (items VersionFrame.ofDatum) path members .versionFrames []

def ServiceDelivery.ofDatum : DatumReader ServiceDelivery :=
  record "ServiceDelivery" [.responseTimestamp, .producerRef, .estimatedTimetableDeliveries]
    fun path members =>
      ServiceDelivery.mk <$> required timestamp path members .responseTimestamp
        <*> required nonEmptyText path members .producerRef
        <*> optional (items EstimatedTimetableDelivery.ofDatum) path members
          .estimatedTimetableDeliveries []

end TimetableFeed
