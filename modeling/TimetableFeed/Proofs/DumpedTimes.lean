import TimetableFeed.Proofs.DumpedDeliveries
import TimetableFeed.Proofs.PollerRuns

/-!
# Times in written deliveries

The texts that a document shows under the names of times, and what they say: a document of a
delivery shows all its times in their order, record by record, and each of them is read back as far
as offsets in whole minutes go.

Main definition: `Json.timeTexts`. Main statement: `ServiceDelivery.written_times_keep_iff`.
-/

namespace TimetableFeed

/-! ## Times in a document -/

namespace Json

mutual

/-- The texts under the names of times, in their order; `time` tells whether the document itself
stands under such a name. -/
def timeTexts (time : Bool) : Json → List String
  | .text s => if time then [s] else []
  | .array items => itemTimeTexts items
  | .object ms => memberTimeTexts ms
  | _ => []

def itemTimeTexts : List Json → List String
  | [] => []
  | x :: rest => x.timeTexts false ++ itemTimeTexts rest

/-- The texts under the names of times in the members of an object. -/
def memberTimeTexts : Members Json → List String
  | [] => []
  | (key, x) :: rest => x.timeTexts (Field.isTimeName key) ++ memberTimeTexts rest

end

/-- The document shows these times, and no others. -/
def ShowsTimes (time : Bool) (json : Json) (times : List Timestamp) : Prop :=
  json.timeTexts time = times.map Timestamp.writeMinutes

theorem shows_time (t : Timestamp) : t.toJson.ShowsTimes true [t] := rfl

theorem shows_time? (t? : Option Timestamp) :
    (Json.ofOption Timestamp.toJson t?).ShowsTimes true t?.toList := by
  cases t? <;> rfl

theorem shows_text (s : String) : (Json.text s).ShowsTimes false [] := rfl

theorem shows_text? (s? : Option String) : (Json.ofOption .text s?).ShowsTimes false [] := by
  cases s? <;> rfl

theorem shows_items {α : Type} {write : α → Json} {times : α → List Timestamp} {xs : List α}
    (h : ∀ x ∈ xs, (write x).ShowsTimes false (times x)) :
    (Json.array (xs.map write)).ShowsTimes false (xs.flatMap times) := by
  unfold ShowsTimes
  rw [timeTexts]
  induction xs with
  | nil => rfl
  | cons x rest ih =>
      obtain ⟨hx, hrest⟩ := List.forall_mem_cons.mp h
      rw [List.map_cons, itemTimeTexts, ih hrest, hx, List.flatMap_cons, List.map_append]

/-- The entries show these times, field by field. -/
theorem shows_named (spelling : Spelling) (entries : List (Field × Json))
    {times : List (List Timestamp)}
    (h : List.Forall₂ (fun e ts => e.2.ShowsTimes (e.1 ∈ Field.times) ts) entries times) :
    (Json.object (named spelling entries)).ShowsTimes false times.flatten := by
  unfold ShowsTimes
  rw [timeTexts]
  induction h with
  | nil => rfl
  | @cons e ts entries times he _ ih =>
      unfold named at ih ⊢
      rw [List.map_cons, memberTimeTexts, Field.isTimeName_name, he, ih, List.flatten_cons,
        List.map_append]

end Json

open Json

theorem EstimatedCall.shows_times (spelling : Spelling) (c : EstimatedCall) :
    (c.toJson spelling).ShowsTimes false c.times := by
  have hnamed := shows_named spelling c.entries <|
    .cons (shows_text _) <| .cons (shows_time? c.aimedArrivalTime) <|
    .cons (shows_time? c.aimedDepartureTime) <| .cons (shows_time? c.expectedArrivalTime) <|
    .cons (shows_time? c.expectedDepartureTime) .nil
  rw [toJson_eq]
  simpa [times] using hnamed

theorem EstimatedVehicleJourney.shows_times (spelling : Spelling) (j : EstimatedVehicleJourney) :
    (j.toJson spelling).ShowsTimes false j.times := by
  have hcalls : (Json.array (j.estimatedCalls.map (·.toJson spelling))).ShowsTimes false
      (j.estimatedCalls.flatMap EstimatedCall.times) :=
    shows_items fun c _ => c.shows_times spelling
  have hnamed := shows_named spelling (j.entries spelling) <|
    .cons (shows_time? j.recordedAtTime) <| .cons (shows_text _) <| .cons (shows_text _) <|
    .cons (shows_text _) <| .cons (shows_text _) <| .cons (shows_text? j.publishedLineName) <|
    .cons (shows_text? j.destinationName) <| .cons hcalls .nil
  rw [toJson_eq]
  simpa [times] using hnamed

/-- An object with one entry, the items of a list. -/
theorem Json.shows_list {α : Type} {f : Field} {write : α → Json} {times : α → List Timestamp}
    {xs : List α} (spelling : Spelling) (hf : f ∉ Field.times)
    (h : ∀ x ∈ xs, (write x).ShowsTimes false (times x)) :
    (Json.object [(f.name spelling, .array (xs.map write))]).ShowsTimes false
      (xs.flatMap times) := by
  have hitems : (Json.array (xs.map write)).ShowsTimes (f ∈ Field.times) (xs.flatMap times) := by
    rw [decide_eq_false hf]
    exact shows_items h
  have hnamed := shows_named spelling [(f, _)] (.cons hitems .nil)
  rwa [List.flatten_singleton] at hnamed

theorem VersionFrame.shows_times (spelling : Spelling) (f : VersionFrame) :
    (f.toJson spelling).ShowsTimes false f.times :=
  shows_list spelling (by decide) fun j _ => j.shows_times spelling

theorem EstimatedTimetableDelivery.shows_times (spelling : Spelling)
    (d : EstimatedTimetableDelivery) : (d.toJson spelling).ShowsTimes false d.times :=
  shows_list spelling (by decide) fun f _ => f.shows_times spelling

theorem ServiceDelivery.shows_timetable_times (spelling : Spelling) (d : ServiceDelivery) :
    (Json.array (d.estimatedTimetableDeliveries.map (·.toJson spelling))).ShowsTimes false
      (d.estimatedTimetableDeliveries.flatMap EstimatedTimetableDelivery.times) :=
  shows_items fun e _ => e.shows_times spelling

theorem ServiceDelivery.shows_times (spelling : Spelling) (d : ServiceDelivery) :
    (d.toJson spelling).ShowsTimes false d.times := by
  have hnamed := shows_named spelling (d.entries spelling) <|
    .cons (shows_time d.responseTimestamp) <| .cons (shows_text _) <|
    .cons (d.shows_timetable_times spelling) .nil
  rw [toJson_eq]
  simpa [times] using hnamed

/-- **Which written times keep the instant**: a document of a delivery, in either spelling, shows
each of its times, and one of its timetables alone shows all but the first. A time is read back
unless its offset comes within half a second of a day, and it is read back as the same instant if
and only if its offset is in whole minutes. Otherwise the instant is moved by less than a minute. -/
theorem ServiceDelivery.written_times_keep_iff (spelling : Spelling) (d : ServiceDelivery) :
    (d.toJson spelling).timeTexts false = d.times.map Timestamp.writeMinutes ∧
      (Json.array (d.estimatedTimetableDeliveries.map (·.toJson spelling))).timeTexts false =
        d.times.tail.map Timestamp.writeMinutes ∧
      ∀ t ∈ d.times,
        ((∃ u, Timestamp.read? t.writeMinutes = .ok u) ↔
          t.offset.micros.natAbs < 86399500000) ∧
        (∀ u, Timestamp.read? t.writeMinutes = .ok u →
          u.wall = t.wall ∧ (u.instant - t.instant).natAbs < 59500000) ∧
        ((∃ u, Timestamp.read? t.writeMinutes = .ok u ∧ u.instant = t.instant) ↔
          t.offset.IsWholeMinutes) := by
  refine ⟨d.shows_times spelling, d.shows_timetable_times spelling, fun t _ =>
    ⟨t.read_writeMinutes_iff, fun u hread => ?_, t.writeMinutes_keeps_iff⟩⟩
  obtain ⟨hwall, -⟩ := Timestamp.read_writeMinutes_ok_iff.mp hread
  rw [Timestamp.instant_of_read_writeMinutes hread]
  exact ⟨hwall, t.offset.shownMicros_near⟩

theorem ServiceDelivery.written_times_keep_iff_sparse :
    (sparseDelivery.toJson .snake).timeTexts false =
        ["0002-04-01T00:00:00.000001-23:59", "0002-04-01T00:00:00.000001Z"] ∧
      earlyMoment ∈ sparseDelivery.times ∧
      ∃ u, Timestamp.read? earlyMoment.writeMinutes = .ok u ∧ u.instant = earlyMoment.instant := by
  obtain ⟨hshows, -, htimes⟩ := ServiceDelivery.written_times_keep_iff .snake sparseDelivery
  have hmem : earlyMoment ∈ sparseDelivery.times := List.mem_cons_self
  have hminutes : earlyMoment.offset.IsWholeMinutes := by
    unfold Offset.IsWholeMinutes
    decide
  exact ⟨hshows.trans (by decide +kernel), hmem, (htimes _ hmem).2.2.mpr hminutes⟩

open Poller (emptyFeed) in
/-- Two bodies that are decoded: of the first the instant is lost, for the offset is a minute and a
half and written as one minute; the offset of the second is written as a whole day, which is not
read. -/
theorem ServiceDelivery.written_time_not_kept :
    let wall : LocalTime := ⟨⟨2023, 3, 15, by decide, by decide, by decide⟩, .ofMicros 36000000000⟩
    let near : Timestamp := ⟨wall, ⟨90000000, by decide, by decide⟩⟩
    let far : Timestamp := ⟨wall, ⟨86399500000, by decide, by decide⟩⟩
    let delivery (t : Timestamp) : ServiceDelivery := ⟨t, ⟨"A", by decide⟩, [⟨[⟨[]⟩]⟩]⟩
    decode? (emptyFeed "2023-03-15T10:00:00+00:01:30") = .ok (delivery near) ∧
      near.writeMinutes = "2023-03-15T10:00:00+00:01" ∧
      (¬ ∃ u, Timestamp.read? near.writeMinutes = .ok u ∧ u.instant = near.instant) ∧
      decode? (emptyFeed "2023-03-15T10:00:00+23:59:59.5") = .ok (delivery far) ∧
      far.writeMinutes = "2023-03-15T10:00:00+24:00" ∧
      ¬ ∃ u, Timestamp.read? far.writeMinutes = .ok u := by
  intro wall near far delivery
  refine ⟨toOption_eq_some.mp ?_, ?_, ?_, toOption_eq_some.mp ?_, ?_, ?_⟩
  · decide +kernel
  · decide +kernel
  · rw [near.writeMinutes_keeps_iff]
    unfold Offset.IsWholeMinutes
    decide
  · decide +kernel
  · decide +kernel
  · rw [far.read_writeMinutes_iff]
    decide

end TimetableFeed
