import Mathlib.Data.List.Nodup
import TimetableFeed.Delivery.Assembly

/-!
# Building from one's own data

What a delivery holds, given again as keyed data: under the names in snake case, with points in time
for the timestamps and the parts one inside the other. The readers of keyed data check it as any
other, and find nothing wrong: each gives back the record that the data was taken from.

Main definition: `ServiceDelivery.toDatum`. Main statement: `ServiceDelivery.ofDatum_toDatum`.
-/

namespace TimetableFeed

namespace Datum

variable {α : Type} {read : DatumReader α} {write : α → Datum} {path : Path}

/-! ## Data under the names of fields -/

/-- Data under the names of fields in snake case. -/
def keyed (data : List (Field × Datum)) : Members Datum := data.map fun d => (d.1.snake, d.2)

variable {data : List (Field × Datum)} {f : Field} {d : Datum} {x : α}

/-- Data under the names of fields in the given spelling. -/
def named (spelling : Spelling) (data : List (Field × Datum)) : Members Datum :=
  data.map fun d => (d.1.name spelling, d.2)

variable {spelling : Spelling}

/-- A field finds what there is for it, and by its name in the spelling. -/
theorem find?_named (distinct : (data.map (·.1)).Nodup) (hd : (f, d) ∈ data) :
    f.find? (named spelling data) = some (f.name spelling, d) := by
  have hmem : (f.name spelling, d) ∈ named spelling data := List.mem_map.mpr ⟨_, hd, rfl⟩
  have hname : f.name spelling = f.camel ∨ f.name spelling = f.snake := by
    cases spelling with
    | camel => exact .inl rfl
    | snake => exact .inr rfl
  cases hfind : f.find? (named spelling data) with
  | none => exact absurd hfind (Field.find_ne_none hname hmem)
  | some found =>
      obtain ⟨name, y⟩ := found
      obtain ⟨hfound, hname⟩ := Field.mem_of_find hfind
      obtain ⟨⟨g, z⟩, hg, heq⟩ := List.mem_map.mp hfound
      obtain ⟨rfl, rfl⟩ := Prod.mk.inj heq
      -- a name is that of no other field in either spelling
      have hfg : f = g := by
        rcases hname with hcamel | hsnake
        · exact (Field.name_injective (b := .camel) hcamel).symm
        · exact (Field.name_injective (b := .snake) hsnake).symm
      subst hfg
      cases List.inj_on_of_nodup_map distinct hg hd rfl
      rfl

theorem required_named (distinct : (data.map (·.1)).Nodup) (hd : (f, d) ∈ data)
    (h : ∀ path, read path d = .ok x) : required read path (named spelling data) f = .ok x := by
  unfold required
  rw [find?_named distinct hd]
  exact h _

theorem optional_named (distinct : (data.map (·.1)).Nodup) (hd : (f, d) ∈ data)
    (h : ∀ path, read path d = .ok x) (default : α) :
    optional read path (named spelling data) f default = .ok x := by
  unfold optional
  rw [find?_named distinct hd]
  exact h _

/-- Where there are data for the fields of the record only, no key is unknown. -/
theorem knownKeys_named {fields : List Field} (distinct : (data.map (·.1)).Nodup)
    (hfields : ∀ d ∈ data, d.1 ∈ fields) : knownKeys fields path (named spelling data) = .ok () := by
  have hknown : ∀ member ∈ named spelling data,
      member.1 ∈ fields.filterMap fun f => (f.find? (named spelling data)).map (·.1) := by
    intro member hmember
    obtain ⟨⟨f, d⟩, hd, rfl⟩ := List.mem_map.mp hmember
    refine List.mem_filterMap.mpr ⟨f, hfields _ hd, ?_⟩
    rw [find?_named distinct hd, Option.map_some]
  have hnone : ((named spelling data).filter fun member =>
      !(fields.filterMap fun f => (f.find? (named spelling data)).map (·.1)).contains
        member.1) = [] := by
    rw [List.filter_eq_nil_iff]
    intro member hmember
    simpa using hknown member hmember
  unfold knownKeys
  simp only [hnone]

theorem record_named {type : String} {fields : List Field}
    {read : Path → Members Datum → Checked α} (distinct : (data.map (·.1)).Nodup)
    (hfields : ∀ d ∈ data, d.1 ∈ fields) (h : read path (named spelling data) = .ok x) :
    record type fields read path (.object (named spelling data)) = .ok x := by
  rw [record, h, knownKeys_named distinct hfields]
  rfl

theorem keyed_eq_named (data : List (Field × Datum)) : keyed data = named .snake data := rfl

theorem required_keyed (distinct : (data.map (·.1)).Nodup) (hd : (f, d) ∈ data)
    (h : ∀ path, read path d = .ok x) : required read path (keyed data) f = .ok x := by
  rw [keyed_eq_named]
  exact required_named distinct hd h

theorem optional_keyed (distinct : (data.map (·.1)).Nodup) (hd : (f, d) ∈ data)
    (h : ∀ path, read path d = .ok x) (default : α) :
    optional read path (keyed data) f default = .ok x := by
  rw [keyed_eq_named]
  exact optional_named distinct hd h default

theorem record_keyed {type : String} {fields : List Field}
    {read : Path → Members Datum → Checked α} (distinct : (data.map (·.1)).Nodup)
    (hfields : ∀ d ∈ data, d.1 ∈ fields) (h : read path (keyed data) = .ok x) :
    record type fields read path (.object (keyed data)) = .ok x := by
  rw [keyed_eq_named] at h ⊢
  exact record_named distinct hfields h

/-! ## Values -/

def ofOption (write : α → Datum) : Option α → Datum
  | none => .null
  | some x => write x

theorem itemsFrom_map (h : ∀ path x, read path (write x) = .ok x) (path : Path) (xs : List α) :
    ∀ index, itemsFrom read path index (xs.map write) = .ok xs := by
  induction xs with
  | nil => exact fun index => rfl
  | cons x rest ih =>
      intro index
      rw [List.map_cons, itemsFrom, h, ih]
      rfl

theorem required_text (distinct : (data.map (·.1)).Nodup) (f : Field) (t : NonEmptyText)
    (hd : (f, .text t.text) ∈ data) : required nonEmptyText path (keyed data) f = .ok t :=
  required_keyed distinct hd fun _ => dif_neg t.ne_empty

theorem optional_text (distinct : (data.map (·.1)).Nodup) (f : Field) (s? : Option String)
    (hd : (f, ofOption .text s?) ∈ data) :
    optional (nullable string) path (keyed data) f none = .ok s? := by
  refine optional_keyed distinct hd (fun path => ?_) none
  cases s? <;> rfl

theorem optional_items (distinct : (data.map (·.1)).Nodup) (f : Field)
    (h : ∀ path x, read path (write x) = .ok x) (xs : List α)
    (hd : (f, .array (xs.map write)) ∈ data) :
    optional (items read) path (keyed data) f [] = .ok xs :=
  optional_keyed distinct hd (fun path => itemsFrom_map h path xs 0) []

end Datum

def Timestamp.moment (t : Timestamp) : Moment := ⟨t.wall, some t.offset⟩

namespace Datum

variable {data : List (Field × Datum)} {path : Path}

theorem required_timestamp (distinct : (data.map (·.1)).Nodup) (f : Field) (t : Timestamp)
    (hd : (f, .moment t.moment) ∈ data) : required timestamp path (keyed data) f = .ok t :=
  required_keyed distinct hd fun _ => rfl

theorem optional_timestamp (distinct : (data.map (·.1)).Nodup) (f : Field) (t? : Option Timestamp)
    (hd : (f, ofOption .moment (t?.map Timestamp.moment)) ∈ data) :
    optional (nullable timestamp) path (keyed data) f none = .ok t? := by
  refine optional_keyed distinct hd (fun path => ?_) none
  cases t? <;> rfl

end Datum

open Datum

/-! ## Records -/

def EstimatedCall.data (stopPointRef : String)
    (aimedArrivalTime aimedDepartureTime expectedArrivalTime expectedDepartureTime :
      Option Moment) : List (Field × Datum) :=
  [(.stopPointRef, .text stopPointRef), (.aimedArrivalTime, ofOption .moment aimedArrivalTime),
    (.aimedDepartureTime, ofOption .moment aimedDepartureTime),
    (.expectedArrivalTime, ofOption .moment expectedArrivalTime),
    (.expectedDepartureTime, ofOption .moment expectedDepartureTime)]

def EstimatedCall.toDatum (c : EstimatedCall) : Datum :=
  .object (keyed (EstimatedCall.data c.stopPointRef.text
    (c.aimedArrivalTime.map Timestamp.moment) (c.aimedDepartureTime.map Timestamp.moment)
    (c.expectedArrivalTime.map Timestamp.moment) (c.expectedDepartureTime.map Timestamp.moment)))

def EstimatedVehicleJourney.data (recordedAtTime : Option Moment)
    (datedVehicleJourneyRef destinationRef directionRef lineRef : String)
    (publishedLineName destinationName : Option String) (calls : List EstimatedCall) :
    List (Field × Datum) :=
  [(.recordedAtTime, ofOption .moment recordedAtTime),
    (.datedVehicleJourneyRef, .text datedVehicleJourneyRef),
    (.destinationRef, .text destinationRef), (.directionRef, .text directionRef),
    (.lineRef, .text lineRef), (.publishedLineName, ofOption .text publishedLineName),
    (.destinationName, ofOption .text destinationName),
    (.estimatedCalls, .array (calls.map EstimatedCall.toDatum))]

def EstimatedVehicleJourney.toDatum (j : EstimatedVehicleJourney) : Datum :=
  .object (keyed (EstimatedVehicleJourney.data (j.recordedAtTime.map Timestamp.moment)
    j.datedVehicleJourneyRef.text j.destinationRef.text j.directionRef.text j.lineRef.text
    j.publishedLineName j.destinationName j.estimatedCalls))

def VersionFrame.data (journeys : List EstimatedVehicleJourney) : List (Field × Datum) :=
  [(.vehicleJourneys, .array (journeys.map EstimatedVehicleJourney.toDatum))]

def VersionFrame.toDatum (f : VersionFrame) : Datum :=
  .object (keyed (VersionFrame.data f.vehicleJourneys))

def EstimatedTimetableDelivery.data (frames : List VersionFrame) : List (Field × Datum) :=
  [(.versionFrames, .array (frames.map VersionFrame.toDatum))]

def EstimatedTimetableDelivery.toDatum (d : EstimatedTimetableDelivery) : Datum :=
  .object (keyed (EstimatedTimetableDelivery.data d.versionFrames))

def ServiceDelivery.data (responseTimestamp : Moment) (producerRef : String)
    (deliveries : List EstimatedTimetableDelivery) : List (Field × Datum) :=
  [(.responseTimestamp, .moment responseTimestamp), (.producerRef, .text producerRef),
    (.estimatedTimetableDeliveries, .array (deliveries.map EstimatedTimetableDelivery.toDatum))]

def ServiceDelivery.toDatum (d : ServiceDelivery) : Datum :=
  .object (keyed (ServiceDelivery.data d.responseTimestamp.moment d.producerRef.text
    d.estimatedTimetableDeliveries))

theorem EstimatedCall.ofDatum_toDatum (path : Path) (c : EstimatedCall) :
    EstimatedCall.ofDatum path c.toDatum = .ok c := by
  have distinct : ((EstimatedCall.data c.stopPointRef.text (c.aimedArrivalTime.map Timestamp.moment)
      (c.aimedDepartureTime.map Timestamp.moment) (c.expectedArrivalTime.map Timestamp.moment)
      (c.expectedDepartureTime.map Timestamp.moment)).map (·.1)).Nodup := by simp [data]
  refine record_keyed distinct (by simp [data]) ?_
  rw [required_text distinct .stopPointRef c.stopPointRef,
    optional_timestamp distinct .aimedArrivalTime c.aimedArrivalTime,
    optional_timestamp distinct .aimedDepartureTime c.aimedDepartureTime,
    optional_timestamp distinct .expectedArrivalTime c.expectedArrivalTime,
    optional_timestamp distinct .expectedDepartureTime c.expectedDepartureTime]
  · rfl
  all_goals simp [data]

theorem EstimatedVehicleJourney.ofDatum_toDatum (path : Path) (j : EstimatedVehicleJourney) :
    EstimatedVehicleJourney.ofDatum path j.toDatum = .ok j := by
  have distinct : ((EstimatedVehicleJourney.data (j.recordedAtTime.map Timestamp.moment)
      j.datedVehicleJourneyRef.text j.destinationRef.text j.directionRef.text j.lineRef.text
      j.publishedLineName j.destinationName j.estimatedCalls).map (·.1)).Nodup := by simp [data]
  refine record_keyed distinct (by simp [data]) ?_
  rw [optional_timestamp distinct .recordedAtTime j.recordedAtTime,
    required_text distinct .datedVehicleJourneyRef j.datedVehicleJourneyRef,
    required_text distinct .destinationRef j.destinationRef,
    required_text distinct .directionRef j.directionRef,
    required_text distinct .lineRef j.lineRef,
    optional_text distinct .publishedLineName j.publishedLineName,
    optional_text distinct .destinationName j.destinationName,
    optional_items distinct .estimatedCalls EstimatedCall.ofDatum_toDatum j.estimatedCalls]
  · rfl
  all_goals simp [data]

theorem VersionFrame.ofDatum_toDatum (path : Path) (f : VersionFrame) :
    VersionFrame.ofDatum path f.toDatum = .ok f := by
  have distinct : ((VersionFrame.data f.vehicleJourneys).map (·.1)).Nodup := by simp [data]
  refine record_keyed distinct (by simp [data]) ?_
  rw [optional_items distinct .vehicleJourneys EstimatedVehicleJourney.ofDatum_toDatum
    f.vehicleJourneys (by simp [data])]
  rfl

theorem EstimatedTimetableDelivery.ofDatum_toDatum (path : Path) (d : EstimatedTimetableDelivery) :
    EstimatedTimetableDelivery.ofDatum path d.toDatum = .ok d := by
  have distinct : ((EstimatedTimetableDelivery.data d.versionFrames).map (·.1)).Nodup := by
    simp [data]
  refine record_keyed distinct (by simp [data]) ?_
  rw [optional_items distinct .versionFrames VersionFrame.ofDatum_toDatum d.versionFrames
    (by simp [data])]
  rfl

/-- **A delivery is built again** from the data that it holds. -/
theorem ServiceDelivery.ofDatum_toDatum (path : Path) (d : ServiceDelivery) :
    ServiceDelivery.ofDatum path d.toDatum = .ok d := by
  have distinct : ((ServiceDelivery.data d.responseTimestamp.moment d.producerRef.text
      d.estimatedTimetableDeliveries).map (·.1)).Nodup := by simp [data]
  refine record_keyed distinct (by simp [data]) ?_
  rw [required_timestamp distinct .responseTimestamp d.responseTimestamp,
    required_text distinct .producerRef d.producerRef,
    optional_items distinct .estimatedTimetableDeliveries
      EstimatedTimetableDelivery.ofDatum_toDatum d.estimatedTimetableDeliveries]
  · rfl
  all_goals simp [data]

end TimetableFeed
