import TimetableFeed.Proofs.Schema

/-!
# Drafts and the schema

A draft is read by one reader for each kind of object. Each reader fails with the first misfit of
its shape; where nothing misfits, the draft holds what the document holds, field by field.

Main statement: `document_judged`.
-/

namespace TimetableFeed

namespace Draft

/-! ## What drafts hold -/

def Ref.of (json : Json) : Ref := ⟨json.textAt .value⟩

def Call.of (json : Json) : Call :=
  ⟨(json.node? .stopPointRef).map Ref.of, json.textAt .aimedArrivalTime,
    json.textAt .aimedDepartureTime, json.textAt .expectedArrivalTime,
    json.textAt .expectedDepartureTime⟩

def Journey.of (json : Json) : Journey :=
  ⟨json.textAt .recordedAtTime, (json.node? .datedVehicleJourneyRef).map Ref.of,
    (json.node? .destinationRef).map Ref.of, (json.node? .directionRef).map Ref.of,
    (json.node? .lineRef).map Ref.of, (json.itemsAt .publishedLineName).map Ref.of,
    (json.itemsAt .destinationName).map Ref.of, json.calls.map Call.of⟩

def Delivery.of (json : Json) : Delivery :=
  ⟨json.textAt .responseTimestamp, json.textAt .producerRef,
    (json.itemsAt .estimatedTimetableDelivery).map Journey.of⟩

def Siri.of (json : Json) : Siri := ⟨(json.node? .serviceDelivery).map Delivery.of⟩

def Document.of (json : Json) : Document := ⟨(json.node? .siri).map Siri.of⟩

/-! ## Readers -/

variable {α β : Type}

/-- The reader stops at the first misfit of the shape, and else gives what `view` does. -/
def Reads (read : NodeReader α) (shape : Shape) (view : Json → α) : Prop :=
  ∀ path json, Judged (· = view json) (shape.misfits path json) (read path json)

def fieldMisfits (shape : Shape) (path : Path) (ms : Members Json) (f : Field) : List Mismatch :=
  (Json.member? ms f).toList.flatMap fun m => shape.misfits (path ++ [.key m.1]) m.2

/-- A field is read if it is there and not null. -/
theorem field_eq (read : NodeReader α) (path : Path) (ms : Members Json) (f : Field) :
    field read path ms f =
      match Json.member? ms f with
      | none => .ok none
      | some m => (read (path ++ [.key m.1]) m.2).map some := by
  unfold field Json.member?
  cases f.find? ms with
  | none => rfl
  | some m =>
      obtain ⟨name, node⟩ := m
      cases node <;> rfl

theorem field_judged {read : NodeReader α} {shape : Shape} {Good : Json → α → Prop}
    (h : ∀ path json, Judged (Good json) (shape.misfits path json) (read path json))
    (path : Path) (ms : Members Json) (f : Field) :
    Judged (Option.Rel Good ((Json.object ms).node? f)) (fieldMisfits shape path ms f)
      (field read path ms f) := by
  rw [field_eq, fieldMisfits]
  show Judged (Option.Rel Good ((Json.member? ms f).map (·.2))) _ _
  cases Json.member? ms f with
  | none => exact Judged.ok .none
  | some m =>
      rw [Option.toList_some, List.flatMap_singleton]
      exact (h _ _).map fun a ha => .some ha

theorem field_view {read : NodeReader α} {shape : Shape} {view : Json → α}
    (h : Reads read shape view) (path : Path) (ms : Members Json) (f : Field) :
    Judged (· = ((Json.object ms).node? f).map view) (fieldMisfits shape path ms f)
      (field read path ms f) := by
  refine (field_judged h path ms f).mono fun o ho => ?_
  generalize (Json.object ms).node? f = node at ho ⊢
  cases ho with
  | some ha => rw [ha, Option.map_some]
  | none => rfl

theorem text_judged (path : Path) (json : Json) :
    Judged (fun s => json.scalar? = some s) (Shape.text.misfits path json) (text path json) := by
  rw [Shape.misfits]
  cases json with
  | text s => exact Judged.ok rfl
  | integer i => exact Judged.ok rfl
  | real x => exact Judged.ok rfl
  | _ => exact Judged.error _ []

theorem field_text (path : Path) (ms : Members Json) (f : Field) :
    Judged (· = (Json.object ms).textAt f) (fieldMisfits .text path ms f)
      (field text path ms f) := by
  refine (field_judged text_judged path ms f).mono fun o ho => ?_
  unfold Json.textAt
  generalize (Json.object ms).node? f = node at ho ⊢
  cases ho with
  | some ha => rw [Option.bind_some, ha]
  | none => rfl

theorem items_judged {read : NodeReader α} {shape : Shape} {view : Json → α}
    (h : Reads read shape view) (path : Path) (json : Json) :
    Judged (fun list => ∃ items, json = .array items ∧ list = items.map view)
      ((Shape.array shape).misfits path json)
      (items read path json) := by
  cases json with
  | array items =>
      rw [Shape.misfits]
      have halong := Judged.along (itemsFrom read path) (fun _ => rfl) (fun _ _ _ => rfl)
        (fun i x => h (path ++ [.index i]) x) items 0
      exact halong.mono fun list hlist => ⟨items, rfl, eq_map_of_forall₂ hlist⟩
  | _ =>
      rw [Shape.misfits]
      · exact Judged.error _ []
      · intro items heq
        cases heq

theorem arrayField_judged {read : NodeReader α} {shape : Shape} {view : Json → α}
    (h : Reads read shape view) (path : Path) (ms : Members Json) (f : Field) :
    Judged (· = ((Json.object ms).itemsAt f).map view) (fieldMisfits (.array shape) path ms f)
      (arrayField read path ms f) := by
  refine (field_judged (items_judged h) path ms f).map fun o ho => ?_
  unfold Json.itemsAt
  generalize (Json.object ms).node? f = node at ho ⊢
  cases ho with
  | none => rfl
  | some ha =>
      obtain ⟨items, heq, hlist⟩ := ha
      rw [heq]
      exact hlist

/-- What is read from an object is read from its members; anything else is a misfit. -/
theorem object_judged {fields : List (Field × Shape)} {Good : α → Prop}
    {k : Members Json → Except Mismatch α} (path : Path) (json : Json)
    (h : ∀ ms, json = .object ms → Judged Good (Shape.misfitsIn fields path ms) (k ms)) :
    Judged Good ((Shape.object fields).misfits path json) (members path json >>= k) := by
  cases json with
  | object ms =>
      rw [Shape.misfits]
      exact h ms rfl
  | _ =>
      rw [Shape.misfits]
      · exact Judged.error _ []
      · intro ms heq
        cases heq

/-! ## One reader for each kind of object -/

theorem ref_reads : Reads ref .ref Ref.of := by
  intro path json
  refine object_judged path json ?_
  rintro ms rfl
  simp only [Shape.misfitsIn]
  refine (field_text path ms .value).bind ?_
  rintro _ rfl
  exact Judged.ok rfl

theorem call_reads : Reads call .call Call.of := by
  intro path json
  refine object_judged path json ?_
  rintro ms rfl
  simp only [Shape.misfitsIn]
  refine (field_view ref_reads path ms .stopPointRef).bind ?_
  rintro _ rfl
  refine (field_text path ms .aimedArrivalTime).bind ?_
  rintro _ rfl
  refine (field_text path ms .aimedDepartureTime).bind ?_
  rintro _ rfl
  refine (field_text path ms .expectedArrivalTime).bind ?_
  rintro _ rfl
  refine (field_text path ms .expectedDepartureTime).bind ?_
  rintro _ rfl
  exact Judged.ok rfl

theorem calls_reads :
    Reads calls .calls fun json => (json.itemsAt .estimatedCall).map Call.of := by
  intro path json
  refine object_judged path json ?_
  rintro ms rfl
  simp only [Shape.misfitsIn]
  rw [List.append_nil]
  exact arrayField_judged call_reads path ms .estimatedCall

theorem journey_reads : Reads journey .journey Journey.of := by
  intro path json
  refine object_judged path json ?_
  rintro ms rfl
  simp only [Shape.misfitsIn]
  refine (field_text path ms .recordedAtTime).bind ?_
  rintro _ rfl
  refine (field_view ref_reads path ms .datedVehicleJourneyRef).bind ?_
  rintro _ rfl
  refine (field_view ref_reads path ms .destinationRef).bind ?_
  rintro _ rfl
  refine (field_view ref_reads path ms .directionRef).bind ?_
  rintro _ rfl
  refine (field_view ref_reads path ms .lineRef).bind ?_
  rintro _ rfl
  refine (arrayField_judged ref_reads path ms .publishedLineName).bind ?_
  rintro _ rfl
  refine (arrayField_judged ref_reads path ms .destinationName).bind ?_
  rintro _ rfl
  refine (field_view calls_reads path ms .estimatedCalls).bind ?_
  rintro _ rfl
  refine Judged.ok ?_
  unfold Journey.of Json.calls
  cases (Json.object ms).node? .estimatedCalls <;> rfl

theorem delivery_reads : Reads delivery .delivery Delivery.of := by
  intro path json
  refine object_judged path json ?_
  rintro ms rfl
  simp only [Shape.misfitsIn]
  refine (field_text path ms .responseTimestamp).bind ?_
  rintro _ rfl
  refine (field_text path ms .producerRef).bind ?_
  rintro _ rfl
  refine (arrayField_judged journey_reads path ms .estimatedTimetableDelivery).bind ?_
  rintro _ rfl
  exact Judged.ok rfl

theorem siri_reads : Reads siri .siri Siri.of := by
  intro path json
  refine object_judged path json ?_
  rintro ms rfl
  simp only [Shape.misfitsIn]
  refine (field_view delivery_reads path ms .serviceDelivery).bind ?_
  rintro _ rfl
  exact Judged.ok rfl

/-- **The draft of a document** fails with the first misfit, and else holds the document. -/
theorem document_judged (json : Json) :
    Judged (· = Document.of json) (Shape.document.misfits [] json) (document json) := by
  refine object_judged [] json ?_
  rintro ms rfl
  simp only [Shape.misfitsIn]
  refine (field_view siri_reads [] ms .siri).bind ?_
  rintro _ rfl
  exact Judged.ok rfl

end Draft

end TimetableFeed
