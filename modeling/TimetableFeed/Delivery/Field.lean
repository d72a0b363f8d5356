import TimetableFeed.Json.Members

/-!
# The fields of a delivery

The names that SIRI Lite gives to the parts of an estimated-timetable delivery, in the two spellings
in use: camel case, as feeds write them, and snake case.
-/

namespace TimetableFeed

/-- A named part of a delivery. -/
inductive Field where
  | siri
  | serviceDelivery
  | responseTimestamp
  | producerRef
  | estimatedTimetableDelivery
  | recordedAtTime
  | datedVehicleJourneyRef
  | destinationRef
  | directionRef
  | lineRef
  | publishedLineName
  | destinationName
  | estimatedCalls
  | estimatedCall
  | stopPointRef
  | aimedArrivalTime
  | aimedDepartureTime
  | expectedArrivalTime
  | expectedDepartureTime
  | value
  | estimatedTimetableDeliveries
  | versionFrames
  | vehicleJourneys
  deriving DecidableEq, Repr

inductive Spelling where
  | camel
  | snake
  deriving DecidableEq, Repr

namespace Field

/-- The name in camel case. The root is the one name with a capital. -/
def camel : Field → String
  | .siri => "Siri"
  | .serviceDelivery => "serviceDelivery"
  | .responseTimestamp => "responseTimestamp"
  | .producerRef => "producerRef"
  | .estimatedTimetableDelivery => "estimatedTimetableDelivery"
  | .recordedAtTime => "recordedAtTime"
  | .datedVehicleJourneyRef => "datedVehicleJourneyRef"
  | .destinationRef => "destinationRef"
  | .directionRef => "directionRef"
  | .lineRef => "lineRef"
  | .publishedLineName => "publishedLineName"
  | .destinationName => "destinationName"
  | .estimatedCalls => "estimatedCalls"
  | .estimatedCall => "estimatedCall"
  | .stopPointRef => "stopPointRef"
  | .aimedArrivalTime => "aimedArrivalTime"
  | .aimedDepartureTime => "aimedDepartureTime"
  | .expectedArrivalTime => "expectedArrivalTime"
  | .expectedDepartureTime => "expectedDepartureTime"
  | .value => "value"
  | .estimatedTimetableDeliveries => "estimatedTimetableDeliveries"
  | .versionFrames => "versionFrames"
  | .vehicleJourneys => "vehicleJourneys"

def snake : Field → String
  | .siri => "siri"
  | .serviceDelivery => "service_delivery"
  | .responseTimestamp => "response_timestamp"
  | .producerRef => "producer_ref"
  | .estimatedTimetableDelivery => "estimated_timetable_delivery"
  | .recordedAtTime => "recorded_at_time"
  | .datedVehicleJourneyRef => "dated_vehicle_journey_ref"
  | .destinationRef => "destination_ref"
  | .directionRef => "direction_ref"
  | .lineRef => "line_ref"
  | .publishedLineName => "published_line_name"
  | .destinationName => "destination_name"
  | .estimatedCalls => "estimated_calls"
  | .estimatedCall => "estimated_call"
  | .stopPointRef => "stop_point_ref"
  | .aimedArrivalTime => "aimed_arrival_time"
  | .aimedDepartureTime => "aimed_departure_time"
  | .expectedArrivalTime => "expected_arrival_time"
  | .expectedDepartureTime => "expected_departure_time"
  | .value => "value"
  | .estimatedTimetableDeliveries => "estimated_timetable_deliveries"
  | .versionFrames => "version_frames"
  | .vehicleJourneys => "vehicle_journeys"

def name (field : Field) : Spelling → String
  | .camel => field.camel
  | .snake => field.snake

/-- The name under which the field stands among members, and its value. Camel case goes before snake
case. -/
def find? {α : Type} (field : Field) (members : Members α) : Option (String × α) :=
  match members.lookup field.camel with
  | some found => some (field.camel, found)
  | none => (members.lookup field.snake).map fun found => (field.snake, found)

theorem camel_injective : ∀ f g : Field, f.camel = g.camel → f = g := by
  intro f g
  cases f <;> cases g <;> decide

theorem eq_of_camel_eq_snake : ∀ f g : Field, f.camel = g.snake → f = g := by
  intro f g
  cases f <;> cases g <;> decide

/-- A name in camel case belongs to one field alone, however that of another one is spelt. -/
theorem eq_of_camel_eq_name {f g : Field} {spelling : Spelling} (h : f.camel = g.name spelling) :
    f = g := by
  cases spelling with
  | camel => exact camel_injective f g h
  | snake => exact eq_of_camel_eq_snake f g h

theorem snake_injective : ∀ f g : Field, f.snake = g.snake → f = g := by
  intro f g
  cases f <;> cases g <;> decide

theorem mem_of_find {α : Type} {f : Field} {ms : Members α} {name : String} {value : α}
    (h : f.find? ms = some (name, value)) :
    (name, value) ∈ ms ∧ (name = f.camel ∨ name = f.snake) := by
  unfold find? at h
  cases hcamel : ms.lookup f.camel with
  | some found =>
      rw [hcamel] at h
      cases h
      exact ⟨Members.mem_of_lookup hcamel, .inl rfl⟩
  | none =>
      rw [hcamel] at h
      obtain ⟨found, hsnake, heq⟩ := Option.map_eq_some_iff.mp h
      cases heq
      exact ⟨Members.mem_of_lookup hsnake, .inr rfl⟩

theorem find_ne_none {α : Type} {f : Field} {ms : Members α} {name : String} {value : α}
    (hname : name = f.camel ∨ name = f.snake) (h : (name, value) ∈ ms) : f.find? ms ≠ none := by
  unfold find?
  cases hcamel : ms.lookup f.camel with
  | some found => nofun
  | none =>
      rcases hname with rfl | rfl
      · exact absurd hcamel (Members.lookup_ne_none h)
      · simpa using Members.lookup_ne_none h

/-! ## Fields among members without order -/

variable {α : Type} {f g : Field} {key : String} {x x' : α} {ms ms' before after : Members α}

theorem name_injective {a b : Spelling} (h : f.name a = g.name b) : f = g := by
  cases a with
  | camel => exact eq_of_camel_eq_name h
  | snake =>
      cases b with
      | camel => exact (eq_of_camel_eq_snake g f h.symm).symm
      | snake => exact snake_injective f g h

/-- Two fields are not found under one key. -/
theorem eq_of_found (h : f.find? ms = some (key, x)) (h' : g.find? ms' = some (key, x')) :
    f = g := by
  have hname : ∀ {f : Field} {x : α} {ms : Members α}, f.find? ms = some (key, x) →
      ∃ a, key = f.name a := by
    intro f x ms h
    rcases (mem_of_find h).2 with rfl | rfl
    · exact ⟨.camel, rfl⟩
    · exact ⟨.snake, rfl⟩
  obtain ⟨a, ha⟩ := hname h
  obtain ⟨b, hb⟩ := hname h'
  exact name_injective (ha.symm.trans hb)

/-- Each name of the field belongs to at most one member. -/
def Single (f : Field) (ms : Members α) : Prop := ∀ a, Members.Single (f.name a) ms

theorem Single.perm (h : f.Single ms) (hperm : ms.Perm ms') : f.Single ms' := by
  intro a
  exact (h a).perm hperm

theorem find?_congr (h : ∀ a, ms.lookup (f.name a) = ms'.lookup (f.name a)) :
    f.find? ms = f.find? ms' := by
  have hcamel : ms.lookup f.camel = ms'.lookup f.camel := h .camel
  have hsnake : ms.lookup f.snake = ms'.lookup f.snake := h .snake
  unfold find?
  rw [hcamel, hsnake]

theorem Single.find?_perm (h : f.Single ms) (hperm : ms.Perm ms') : f.find? ms = f.find? ms' := by
  apply find?_congr
  intro a
  exact (h a).lookup_perm hperm

theorem find?_insert (hkey : ∀ a, key ≠ f.name a) :
    f.find? (before ++ (key, x) :: after) = f.find? (before ++ after) := by
  apply find?_congr
  intro a
  exact Members.lookup_insert (hkey a)

/-- A new value under a key: either the field is found there before and after, or it is found where
it was found before, if anywhere. -/
theorem find?_replace (f : Field) (key : String) (x x' : α) (before after : Members α) :
    (f.find? (before ++ (key, x) :: after) = some (key, x) ∧
      f.find? (before ++ (key, x') :: after) = some (key, x')) ∨
    f.find? (before ++ (key, x) :: after) = f.find? (before ++ (key, x') :: after) := by
  unfold find?
  rcases Members.lookup_replace f.camel key x x' before after with ⟨rfl, hfound, hfound'⟩ | hcamel
  · left
    rw [hfound, hfound']
    exact ⟨rfl, rfl⟩
  · rw [hcamel]
    cases Members.lookup f.camel (before ++ (key, x') :: after) with
    | some found => exact .inr rfl
    | none =>
        rcases Members.lookup_replace f.snake key x x' before after with
          ⟨rfl, hfound, hfound'⟩ | hsnake
        · left
          rw [hfound, hfound']
          exact ⟨rfl, rfl⟩
        · right
          rw [hsnake]

end Field

end TimetableFeed
