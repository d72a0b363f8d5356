import TimetableFeed.Delivery.Dump
import TimetableFeed.Proofs.Construction
import TimetableFeed.Proofs.WrittenOffsets

/-!
# Reading back written deliveries

A delivery that has been written out is built again from its document: the texts of its times are
read, all else is taken as it stands. This needs offsets in whole minutes, for no others are
written, and it works with the names in either spelling.

Main definitions: `Json.restore?`, `ServiceDelivery.times`. Main statement:
`ServiceDelivery.ofDatum_of_restore`.
-/

namespace TimetableFeed

/-! ## Documents as keyed data -/

namespace Field

/-- The fields that hold times. -/
def times : List Field :=
  [.responseTimestamp, .recordedAtTime, .aimedArrivalTime, .aimedDepartureTime,
    .expectedArrivalTime, .expectedDepartureTime]

/-- The name belongs to a field that holds a time. -/
def isTimeName (name : String) : Bool := times.any fun f => name == f.camel || name == f.snake

theorem isTimeName_name (f : Field) (spelling : Spelling) :
    isTimeName (f.name spelling) = decide (f ∈ times) := by
  cases f <;> cases spelling <;> decide

end Field

namespace Json

mutual

/-- The document as keyed data, with points in time for the texts under the names of times; `time`
tells whether the document itself stands under such a name. -/
def restore? (time : Bool) : Json → Except MomentError Datum
  | .null => .ok .null
  | .boolean b => .ok (.number (.flag b))
  | .integer i => .ok (.number (.whole i))
  | .real x => .ok (.number (.real x))
  | .text s => if time then (Timestamp.read? s).map (.moment ·.moment) else .ok (.text s)
  | .array items => (restoreItems? items).map .array
  | .object ms => (restoreMembers? ms).map .object

def restoreItems? : List Json → Except MomentError (List Datum)
  | [] => .ok []
  | x :: rest => do return (← x.restore? false) :: (← restoreItems? rest)

def restoreMembers? : Members Json → Except MomentError (Members Datum)
  | [] => .ok []
  | (key, x) :: rest => do
    return (key, ← x.restore? (Field.isTimeName key)) :: (← restoreMembers? rest)

end

/-- Values under the names of fields in the given spelling. -/
def named (spelling : Spelling) (entries : List (Field × Json)) : Members Json :=
  entries.map fun e => (e.1.name spelling, e.2)

end Json

/-! ## Values that are built again -/

namespace Datum

variable {α : Type} {read : DatumReader α} {write : α → Json} {x : α} {time : Bool} {json : Json}

/-- The value is built again from the document. -/
def Rebuilds (read : DatumReader α) (time : Bool) (json : Json) (x : α) : Prop :=
  ∃ datum, json.restore? time = .ok datum ∧ ∀ path, read path datum = .ok x

theorem Rebuilds.restores (h : Rebuilds read time json x) :
    ∃ datum, json.restore? time = .ok datum := by
  obtain ⟨datum, hrestore, -⟩ := h
  exact ⟨datum, hrestore⟩

theorem rebuilds_text (t : NonEmptyText) : Rebuilds nonEmptyText false (.text t.text) t :=
  ⟨.text t.text, rfl, fun _ => dif_neg t.ne_empty⟩

theorem restore_timestamp {t : Timestamp} (h : t.offset.IsWholeMinutes) :
    t.toJson.restore? true = .ok (.moment t.moment) := by
  unfold Timestamp.toJson
  rw [Json.restore?, if_pos rfl, Timestamp.read_writeMinutes h]
  rfl

theorem rebuilds_time {t : Timestamp} (h : t.offset.IsWholeMinutes) :
    Rebuilds timestamp true t.toJson t :=
  ⟨.moment t.moment, restore_timestamp h, fun _ => rfl⟩

theorem rebuilds_time? {t? : Option Timestamp} (h : ∀ t ∈ t?, t.offset.IsWholeMinutes) :
    Rebuilds (nullable timestamp) true (.ofOption Timestamp.toJson t?) t? := by
  cases t? with
  | none => exact ⟨.null, rfl, fun _ => rfl⟩
  | some t => exact ⟨.moment t.moment, restore_timestamp (h t rfl), fun _ => rfl⟩

theorem rebuilds_name (s? : Option String) :
    Rebuilds (nullable string) false (.ofOption .text s?) s? := by
  cases s? with
  | none => exact ⟨.null, rfl, fun _ => rfl⟩
  | some s => exact ⟨.text s, rfl, fun _ => rfl⟩

theorem rebuilds_items {xs : List α} (h : ∀ x ∈ xs, Rebuilds read false (write x) x) :
    Rebuilds (items read) false (.array (xs.map write)) xs := by
  have hitems : ∃ data, Json.restoreItems? (xs.map write) = .ok data ∧
      ∀ path index, itemsFrom read path index data = .ok xs := by
    induction xs with
    | nil => exact ⟨[], rfl, fun _ _ => rfl⟩
    | cons x rest ih =>
        obtain ⟨hx, hrest⟩ := List.forall_mem_cons.mp h
        obtain ⟨datum, hrestore, hread⟩ := hx
        obtain ⟨data, hrestores, hreads⟩ := ih hrest
        refine ⟨datum :: data, ?_, fun path index => ?_⟩
        · rw [List.map_cons, Json.restoreItems?, hrestore, hrestores]
          rfl
        · rw [itemsFrom, hread, hreads]
          rfl
  obtain ⟨data, hrestores, hreads⟩ := hitems
  refine ⟨.array data, ?_, fun path => hreads path 0⟩
  rw [Json.restore?, hrestores]
  rfl

/-! ## Objects that are built again -/

/-- The data are what the entries are restored to, field by field. -/
def Restores (entries : List (Field × Json)) (data : List (Field × Datum)) : Prop :=
  List.Forall₂ (fun e d => e.1 = d.1 ∧ e.2.restore? (e.1 ∈ Field.times) = .ok d.2) entries data

variable {spelling : Spelling} {entries : List (Field × Json)} {data : List (Field × Datum)}
  {path : Path} {f : Field}

theorem Restores.fields (h : Restores entries data) : data.map (·.1) = entries.map (·.1) := by
  induction h with
  | nil => rfl
  | cons hd _ ih => rw [List.map_cons, List.map_cons, ih, hd.1]

theorem Restores.members (h : Restores entries data) (spelling : Spelling) :
    Json.restoreMembers? (Json.named spelling entries) = .ok (named spelling data) := by
  induction h with
  | nil => rfl
  | @cons e d entries data hd _ ih =>
      obtain ⟨f, json⟩ := e
      obtain ⟨g, datum⟩ := d
      obtain ⟨rfl, hrestore⟩ := hd
      unfold Json.named named at ih ⊢
      rw [List.map_cons, Json.restoreMembers?, Field.isTimeName_name, hrestore, ih]
      rfl

theorem exists_restores
    (h : ∀ e ∈ entries, ∃ datum, e.2.restore? (e.1 ∈ Field.times) = .ok datum) :
    ∃ data, Restores entries data := by
  induction entries with
  | nil => exact ⟨[], .nil⟩
  | cons e rest ih =>
      obtain ⟨he, hrest⟩ := List.forall_mem_cons.mp h
      obtain ⟨datum, hdatum⟩ := he
      obtain ⟨data, hdata⟩ := ih hrest
      exact ⟨(e.1, datum) :: data, .cons ⟨rfl, hdatum⟩ hdata⟩

/-- An entry that is built again is among the data as what it is built from. -/
theorem Restores.exists_datum (h : Restores entries data) (hf : (f, json) ∈ entries)
    (hx : Rebuilds read (f ∈ Field.times) json x) :
    ∃ datum, (f, datum) ∈ data ∧ ∀ path, read path datum = .ok x := by
  obtain ⟨datum, hrestore, hread⟩ := hx
  refine ⟨datum, ?_, hread⟩
  induction h with
  | nil => cases hf
  | @cons e d entries data hd _ ih =>
      rcases List.mem_cons.mp hf with rfl | hf
      · obtain ⟨g, datum'⟩ := d
        obtain ⟨rfl, hrestore'⟩ := hd
        cases hrestore.symm.trans hrestore'
        exact List.mem_cons_self
      · exact List.mem_cons_of_mem _ (ih hf)

theorem Restores.required (h : Restores entries data) (distinct : (entries.map (·.1)).Nodup)
    (f : Field) (hf : (f, json) ∈ entries) (hx : Rebuilds read (f ∈ Field.times) json x) :
    required read path (named spelling data) f = .ok x := by
  obtain ⟨datum, hdatum, hread⟩ := h.exists_datum hf hx
  rw [← h.fields] at distinct
  exact required_named distinct hdatum hread

theorem Restores.optional (h : Restores entries data) (distinct : (entries.map (·.1)).Nodup)
    (f : Field) (hf : (f, json) ∈ entries) (hx : Rebuilds read (f ∈ Field.times) json x)
    (default : α) :
    optional read path (named spelling data) f default = .ok x := by
  obtain ⟨datum, hdatum, hread⟩ := h.exists_datum hf hx
  rw [← h.fields] at distinct
  exact optional_named distinct hdatum hread default

/-- An object is built again if each entry is restored, and the record is read from the result. -/
theorem rebuilds_record {type : String} {fields : List Field}
    {read : Path → Members Datum → Checked α} (distinct : (entries.map (·.1)).Nodup)
    (hfields : ∀ e ∈ entries, e.1 ∈ fields)
    (hrestores : ∀ e ∈ entries, ∃ datum, e.2.restore? (e.1 ∈ Field.times) = .ok datum)
    (hread : ∀ data path, Restores entries data → read path (named spelling data) = .ok x) :
    Rebuilds (record type fields read) false (.object (Json.named spelling entries)) x := by
  obtain ⟨data, hdata⟩ := exists_restores hrestores
  have hfields' : ∀ d ∈ data, d.1 ∈ fields := by
    intro d hd
    have hmem : d.1 ∈ entries.map (·.1) := hdata.fields ▸ List.mem_map_of_mem hd
    obtain ⟨e, he, heq⟩ := List.mem_map.mp hmem
    exact heq ▸ hfields e he
  refine ⟨.object (named spelling data), ?_, fun path => ?_⟩
  · rw [Json.restore?, hdata.members]
    rfl
  · rw [← hdata.fields] at distinct
    exact record_named distinct hfields' (hread data path hdata)

end Datum

/-! ## Records -/

def EstimatedCall.times (c : EstimatedCall) : List Timestamp :=
  c.aimedArrivalTime.toList ++ c.aimedDepartureTime.toList ++ c.expectedArrivalTime.toList ++
    c.expectedDepartureTime.toList

def EstimatedVehicleJourney.times (j : EstimatedVehicleJourney) : List Timestamp :=
  j.recordedAtTime.toList ++ j.estimatedCalls.flatMap EstimatedCall.times

def VersionFrame.times (f : VersionFrame) : List Timestamp :=
  f.vehicleJourneys.flatMap EstimatedVehicleJourney.times

def EstimatedTimetableDelivery.times (d : EstimatedTimetableDelivery) : List Timestamp :=
  d.versionFrames.flatMap VersionFrame.times

def ServiceDelivery.times (d : ServiceDelivery) : List Timestamp :=
  d.responseTimestamp :: d.estimatedTimetableDeliveries.flatMap EstimatedTimetableDelivery.times

open Datum

/-! Each record is built again from its entries: texts and times as they are, and the records inside
it by the theorem about them. -/

def EstimatedCall.entries (c : EstimatedCall) : List (Field × Json) :=
  [(.stopPointRef, .text c.stopPointRef.text),
    (.aimedArrivalTime, .ofOption Timestamp.toJson c.aimedArrivalTime),
    (.aimedDepartureTime, .ofOption Timestamp.toJson c.aimedDepartureTime),
    (.expectedArrivalTime, .ofOption Timestamp.toJson c.expectedArrivalTime),
    (.expectedDepartureTime, .ofOption Timestamp.toJson c.expectedDepartureTime)]

theorem EstimatedCall.toJson_eq (spelling : Spelling) (c : EstimatedCall) :
    c.toJson spelling = .object (Json.named spelling c.entries) := rfl

theorem EstimatedCall.rebuilds (spelling : Spelling) (c : EstimatedCall)
    (h : ∀ t ∈ c.times, t.offset.IsWholeMinutes) :
    Rebuilds EstimatedCall.ofDatum false (c.toJson spelling) c := by
  simp only [times, List.forall_mem_append, Option.mem_toList] at h
  obtain ⟨⟨⟨haimed, haimed'⟩, hexpected⟩, hexpected'⟩ := h
  have hstop := rebuilds_text c.stopPointRef
  have harrival := rebuilds_time? haimed
  have hdeparture := rebuilds_time? haimed'
  have harrival' := rebuilds_time? hexpected
  have hdeparture' := rebuilds_time? hexpected'
  have distinct : (c.entries.map (·.1)).Nodup := by simp [entries]
  rw [toJson_eq]
  refine rebuilds_record distinct (by simp [entries]) ?_ ?_
  · simp only [entries, List.forall_mem_cons]
    exact ⟨hstop.restores, harrival.restores, hdeparture.restores, harrival'.restores,
      hdeparture'.restores, nofun⟩
  · intro data path hdata
    rw [hdata.required distinct .stopPointRef (by simp [entries]) hstop,
      hdata.optional distinct .aimedArrivalTime (by simp [entries]) harrival,
      hdata.optional distinct .aimedDepartureTime (by simp [entries]) hdeparture,
      hdata.optional distinct .expectedArrivalTime (by simp [entries]) harrival',
      hdata.optional distinct .expectedDepartureTime (by simp [entries]) hdeparture']
    rfl

def EstimatedVehicleJourney.entries (spelling : Spelling) (j : EstimatedVehicleJourney) :
    List (Field × Json) :=
  [(.recordedAtTime, .ofOption Timestamp.toJson j.recordedAtTime),
    (.datedVehicleJourneyRef, .text j.datedVehicleJourneyRef.text),
    (.destinationRef, .text j.destinationRef.text), (.directionRef, .text j.directionRef.text),
    (.lineRef, .text j.lineRef.text), (.publishedLineName, .ofOption .text j.publishedLineName),
    (.destinationName, .ofOption .text j.destinationName),
    (.estimatedCalls, .array (j.estimatedCalls.map (·.toJson spelling)))]

theorem EstimatedVehicleJourney.toJson_eq (spelling : Spelling) (j : EstimatedVehicleJourney) :
    j.toJson spelling = .object (Json.named spelling (j.entries spelling)) := rfl

theorem EstimatedVehicleJourney.rebuilds (spelling : Spelling) (j : EstimatedVehicleJourney)
    (h : ∀ t ∈ j.times, t.offset.IsWholeMinutes) :
    Rebuilds EstimatedVehicleJourney.ofDatum false (j.toJson spelling) j := by
  simp only [times, List.forall_mem_append, Option.mem_toList] at h
  obtain ⟨hrecorded, hcalls⟩ := h
  have hrecorded := rebuilds_time? hrecorded
  have hdated := rebuilds_text j.datedVehicleJourneyRef
  have hdestination := rebuilds_text j.destinationRef
  have hdirection := rebuilds_text j.directionRef
  have hline := rebuilds_text j.lineRef
  have hlineName := rebuilds_name j.publishedLineName
  have hname := rebuilds_name j.destinationName
  have hcalls : Rebuilds (items EstimatedCall.ofDatum) false
      (.array (j.estimatedCalls.map (·.toJson spelling))) j.estimatedCalls := by
    refine rebuilds_items fun c hc => c.rebuilds spelling fun t ht => ?_
    exact hcalls t (List.mem_flatMap.mpr ⟨c, hc, ht⟩)
  have distinct : ((j.entries spelling).map (·.1)).Nodup := by simp [entries]
  rw [toJson_eq]
  refine rebuilds_record distinct (by simp [entries]) ?_ ?_
  · simp only [entries, List.forall_mem_cons]
    exact ⟨hrecorded.restores, hdated.restores, hdestination.restores, hdirection.restores,
      hline.restores, hlineName.restores, hname.restores, hcalls.restores, nofun⟩
  · intro data path hdata
    rw [hdata.optional distinct .recordedAtTime (by simp [entries]) hrecorded,
      hdata.required distinct .datedVehicleJourneyRef (by simp [entries]) hdated,
      hdata.required distinct .destinationRef (by simp [entries]) hdestination,
      hdata.required distinct .directionRef (by simp [entries]) hdirection,
      hdata.required distinct .lineRef (by simp [entries]) hline,
      hdata.optional distinct .publishedLineName (by simp [entries]) hlineName,
      hdata.optional distinct .destinationName (by simp [entries]) hname,
      hdata.optional distinct .estimatedCalls (by simp [entries]) hcalls]
    rfl

/-- An object with one entry, the items of a list. -/
theorem rebuilds_list {α β : Type} {type : String} {f : Field} {read : DatumReader α}
    {write : α → Json} {xs : List α} {mk : List α → β} (spelling : Spelling)
    (hf : f ∉ Field.times) (h : ∀ x ∈ xs, Rebuilds read false (write x) x) :
    Rebuilds (record type [f] fun path members => mk <$> optional (items read) path members f [])
      false (.object [(f.name spelling, .array (xs.map write))]) (mk xs) := by
  have hitems : Rebuilds (items read) (f ∈ Field.times) (.array (xs.map write)) xs := by
    rw [decide_eq_false hf]
    exact rebuilds_items h
  have distinct : ([(f, Json.array (xs.map write))].map (·.1)).Nodup := by simp
  have hobject : Rebuilds (record type [f] fun path members =>
      mk <$> optional (items read) path members f []) false
      (.object (Json.named spelling [(f, .array (xs.map write))])) (mk xs) := by
    refine rebuilds_record distinct (by simp) ?_ ?_
    · simpa using hitems.restores
    · intro data path hdata
      rw [hdata.optional distinct f (by simp) hitems]
      rfl
  exact hobject

theorem VersionFrame.rebuilds (spelling : Spelling) (f : VersionFrame)
    (h : ∀ t ∈ f.times, t.offset.IsWholeMinutes) :
    Rebuilds VersionFrame.ofDatum false (f.toJson spelling) f := by
  refine rebuilds_list spelling (by decide) fun j hj => j.rebuilds spelling fun t ht => ?_
  exact h t (List.mem_flatMap.mpr ⟨j, hj, ht⟩)

theorem EstimatedTimetableDelivery.rebuilds (spelling : Spelling) (d : EstimatedTimetableDelivery)
    (h : ∀ t ∈ d.times, t.offset.IsWholeMinutes) :
    Rebuilds EstimatedTimetableDelivery.ofDatum false (d.toJson spelling) d := by
  refine rebuilds_list spelling (by decide) fun f hf => f.rebuilds spelling fun t ht => ?_
  exact h t (List.mem_flatMap.mpr ⟨f, hf, ht⟩)

def ServiceDelivery.entries (spelling : Spelling) (d : ServiceDelivery) : List (Field × Json) :=
  [(.responseTimestamp, d.responseTimestamp.toJson), (.producerRef, .text d.producerRef.text),
    (.estimatedTimetableDeliveries,
      .array (d.estimatedTimetableDeliveries.map (·.toJson spelling)))]

theorem ServiceDelivery.toJson_eq (spelling : Spelling) (d : ServiceDelivery) :
    d.toJson spelling = .object (Json.named spelling (d.entries spelling)) := rfl

/-- **A delivery is built again** from its document, in either spelling, if all its offsets are in
whole minutes. -/
theorem ServiceDelivery.ofDatum_of_restore (spelling : Spelling) (d : ServiceDelivery)
    (h : ∀ t ∈ d.times, t.offset.IsWholeMinutes) :
    ∃ datum, (d.toJson spelling).restore? false = .ok datum ∧
      ServiceDelivery.ofDatum [] datum = .ok d := by
  obtain ⟨htime, htimes⟩ := List.forall_mem_cons.mp h
  have htime := rebuilds_time htime
  have hproducer := rebuilds_text d.producerRef
  have hdeliveries : Rebuilds (items EstimatedTimetableDelivery.ofDatum) false
      (.array (d.estimatedTimetableDeliveries.map (·.toJson spelling)))
      d.estimatedTimetableDeliveries := by
    refine rebuilds_items fun e he => e.rebuilds spelling fun t ht => ?_
    exact htimes t (List.mem_flatMap.mpr ⟨e, he, ht⟩)
  have distinct : ((d.entries spelling).map (·.1)).Nodup := by simp [entries]
  have hrebuilds : Rebuilds ServiceDelivery.ofDatum false (d.toJson spelling) d := by
    rw [toJson_eq]
    refine rebuilds_record distinct (by simp [entries]) ?_ ?_
    · simp only [entries, List.forall_mem_cons]
      exact ⟨htime.restores, hproducer.restores, hdeliveries.restores, nofun⟩
    · intro data path hdata
      rw [hdata.required distinct .responseTimestamp (by simp [entries]) htime,
        hdata.required distinct .producerRef (by simp [entries]) hproducer,
        hdata.optional distinct .estimatedTimetableDeliveries (by simp [entries]) hdeliveries]
      rfl
  obtain ⟨datum, hrestore, hread⟩ := hrebuilds
  exact ⟨datum, hrestore, hread []⟩

/-- A microsecond into April of the year 2, as a clock shows it that is a day but a minute behind
UTC. -/
def earlyMoment : Timestamp :=
  ⟨⟨⟨2, 4, 1, by decide, by decide, by decide⟩,
    ⟨0, 0, 0, 1, by decide, by decide, by decide, by decide⟩⟩,
    ⟨-86340000000, by decide, by decide⟩⟩

/-- An empty timetable, and one with a journey that has an empty name and no calls. -/
def sparseDelivery : ServiceDelivery :=
  ⟨earlyMoment, ⟨"P", by decide⟩, [⟨[]⟩,
    ⟨[⟨[⟨some ⟨earlyMoment.wall, .utc⟩, ⟨"J", by decide⟩, ⟨"D", by decide⟩, ⟨"2", by decide⟩,
      ⟨"4 2", by decide⟩, none, some "", []⟩]⟩]⟩]⟩

theorem ServiceDelivery.ofDatum_of_restore_sparse :
    (∀ t ∈ sparseDelivery.times, t.offset.IsWholeMinutes) ∧
      ∃ datum, (sparseDelivery.toJson .camel).restore? false = .ok datum ∧
        ServiceDelivery.ofDatum [] datum = .ok sparseDelivery := by
  have hminutes : ∀ t ∈ sparseDelivery.times, t.offset.IsWholeMinutes := by
    unfold Offset.IsWholeMinutes
    decide
  exact ⟨hminutes, ServiceDelivery.ofDatum_of_restore .camel sparseDelivery hminutes⟩

end TimetableFeed
