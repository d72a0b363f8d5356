import Mathlib.Data.List.Nodup
import TimetableFeed.Proofs.Decoding
import TimetableFeed.Proofs.JsonText
import TimetableFeed.Proofs.WrittenTime

/-!
# Reading back deliveries

A delivery that is written the way feeds write theirs is decoded as what it was. References and
names are objects with a `value`, the journeys stand right in the service delivery, and a missing
value is left out or null. The members of an object may come in any order, behind the name that
counts there may be others, and the layout of the text is free.

What a document holds is one delivery at most, so it is enough that the document holds the delivery
that it has been written from, and that nothing in it is missing or of a wrong type.

Main definitions: `WritesFields`, `WritesDocument`, `ServiceDelivery.Sendable`. Main statements:
`WritesDelivery.deliveryOf`, `DeliveryOf.unique`, `decode_print`.
-/

namespace TimetableFeed

section Lists

variable {α β : Type} {R : α → β → Prop} {xs : List α} {ys : List β}

theorem exists_right_of_forall₂ (h : List.Forall₂ R xs ys) {x : α} (hx : x ∈ xs) :
    ∃ y ∈ ys, R x y := by
  induction h with
  | nil => cases hx
  | cons hxy _ ih =>
      rcases List.mem_cons.mp hx with rfl | hx
      · exact ⟨_, List.mem_cons_self, hxy⟩
      · obtain ⟨y, hy, hxy⟩ := ih hx
        exact ⟨y, List.mem_cons_of_mem _ hy, hxy⟩

theorem exists_left_of_forall₂ (h : List.Forall₂ R xs ys) {y : β} (hy : y ∈ ys) :
    ∃ x ∈ xs, R x y :=
  exists_right_of_forall₂ (R := fun y x => R x y) h.flip hy

theorem forall₂_of_mem {S : α → β → Prop} (h : List.Forall₂ R xs ys)
    (hRS : ∀ x, ∀ y ∈ ys, R x y → S x y) : List.Forall₂ S xs ys := by
  induction h with
  | nil => exact .nil
  | cons hxy _ ih =>
      refine .cons (hRS _ _ List.mem_cons_self hxy) (ih fun x y hy => ?_)
      exact hRS x y (List.mem_cons_of_mem _ hy)

theorem exists_forall₂ (h : ∀ y, ∃ x, R x y) (ys : List β) : ∃ xs, List.Forall₂ R xs ys := by
  induction ys with
  | nil => exact ⟨[], .nil⟩
  | cons y rest ih =>
      obtain ⟨x, hxy⟩ := h y
      obtain ⟨xs, hrest⟩ := ih
      exact ⟨x :: xs, .cons hxy hrest⟩

end Lists

/-! ## Objects by their fields -/

/-- Fields with their values, as far as they have one. -/
abbrev Fields := List (Field × Option Json)

/-- The object has the fields with these values, in any order, and nothing else. A field without a
value is left out or null. -/
inductive WritesFields (fields : Fields) : Json → Prop where
  | object {ms : Members Json} (distinct : (fields.map (·.1)).Nodup)
      (holds : ∀ field ∈ fields, ∀ value ∈ field.2, (field.1.camel, value) ∈ ms)
      (only : ∀ member ∈ ms, ∃ field ∈ fields, member = (field.1.camel, field.2.getD .null)) :
      WritesFields fields (.object ms)

theorem exists_writesFields {fields : Fields} (distinct : (fields.map (·.1)).Nodup) :
    ∃ json, WritesFields fields json := by
  -- all fields are written, those without a value as nulls
  refine ⟨.object (fields.map fun field => (field.1.camel, field.2.getD .null)), distinct, ?_, ?_⟩
  · intro field hfield value hvalue
    refine List.mem_map.mpr ⟨field, hfield, ?_⟩
    rw [Option.mem_def.mp hvalue, Option.getD_some]
  · intro member hmember
    obtain ⟨field, hfield, rfl⟩ := List.mem_map.mp hmember
    exact ⟨field, hfield, rfl⟩

theorem writes_one (f : Field) (value : Json) :
    WritesFields [(f, some value)] (.object [(f.camel, value)]) := by
  refine .object (List.nodup_singleton f) ?_ ?_
  · intro field hfield value hvalue
    cases List.mem_singleton.mp hfield
    cases hvalue
    exact List.mem_singleton_self _
  · intro member hmember
    exact ⟨_, List.mem_singleton_self _, List.mem_singleton.mp hmember⟩

/-- The node fits the shape, so that the first pass over a document takes it, and it is plain enough
to be read back from its text. -/
structure Suits (s : Shape) (depth : Nat) (json : Json) : Prop where
  fits : s.Fits json
  plain : json.PlainTo depth

theorem Suits.not_null {s : Shape} {depth : Nat} {json : Json} (h : Suits s depth json) :
    json.isNull = false := by
  have hholds : s.type.Holds json := h.fits [] s json (.here s json)
  cases json with
  | null =>
      cases s with
      | text => cases hholds
      | array item =>
          obtain ⟨items, heq⟩ := hholds
          cases heq
      | object fields =>
          obtain ⟨ms, heq⟩ := hholds
          cases heq
  | _ => rfl

theorem suits_text (depth : Nat) (s : String) : Suits .text depth (.text s) := by
  refine ⟨?_, .text depth s⟩
  rintro inner t node ⟨⟩
  rfl

theorem suits_array {s : Shape} {depth : Nat} {items : List Json}
    (h : ∀ item ∈ items, Suits s depth item) : Suits (.array s) (depth + 1) (.array items) := by
  refine ⟨?_, .array fun item hitem => (h item hitem).plain⟩
  intro inner t node hnode
  cases hnode with
  | here => exact ⟨items, rfl⟩
  | item hx hnode => exact (h _ (List.mem_of_getElem? hx)).fits _ _ _ hnode

namespace WritesFields

variable {fields : Fields} {json : Json} {f : Field}

theorem not_null (h : WritesFields fields json) : json.isNull = false := by
  cases h
  rfl

/-- What is found in a field is what has been written there. -/
theorem node?_eq (h : WritesFields fields json) {value? : Option Json} (hf : (f, value?) ∈ fields)
    (hvalue : ∀ value ∈ value?, value.isNull = false) : json.node? f = value? := by
  obtain ⟨distinct, holds, only⟩ := h
  rename_i ms
  -- a name in either spelling is that of no other field
  have hfound : ∀ name x, f.find? ms = some (name, x) → x = value?.getD .null := by
    intro name x hx
    obtain ⟨hmem, hname⟩ := Field.mem_of_find hx
    obtain ⟨⟨g, other?⟩, hg, heq⟩ := only _ hmem
    obtain ⟨rfl, rfl⟩ := Prod.mk.inj heq
    have hgf : g = f := hname.elim (Field.camel_injective g f) (Field.eq_of_camel_eq_snake g f)
    have hfield : (g, other?) = (f, value?) := List.inj_on_of_nodup_map distinct hg hf hgf
    obtain ⟨-, rfl⟩ := Prod.mk.inj hfield
    rfl
  show (Json.member? ms f).map (·.2) = value?
  unfold Json.member?
  cases hx : f.find? ms with
  | none =>
      cases value? with
      | none => rfl
      | some value => exact absurd hx (Field.find_ne_none (.inl rfl) (holds _ hf value rfl))
  | some m =>
      obtain ⟨name, x⟩ := m
      rw [hfound name x hx]
      cases value? with
      | none => rfl
      | some value => simp [hvalue value rfl]

/-- The shapes of the values make up the shape of the object. -/
theorem suits {shapes : List (Field × Shape)} {depth : Nat} (h : WritesFields fields json)
    (hvalues : List.Forall₂ (fun shaped field => field.1 = shaped.1 ∧
      ∀ value ∈ field.2, Suits shaped.2 depth value) shapes fields) :
    Suits (.object shapes) (depth + 1) json := by
  have hnode : ∀ f s, (f, s) ∈ shapes → ∀ x, json.node? f = some x → Suits s depth x := by
    intro f s hs x hx
    obtain ⟨⟨_, value?⟩, hf, rfl, hvalue⟩ := exists_right_of_forall₂ hvalues hs
    rw [h.node?_eq hf fun value hmem => (hvalue value hmem).not_null] at hx
    exact hvalue x hx
  obtain ⟨-, -, only⟩ := h
  constructor
  · intro inner t node hrec
    cases hrec with
    | here => exact ⟨_, rfl⟩
    | field hs hx hrec =>
        refine (hnode _ _ hs _ ?_).fits _ _ _ hrec
        rw [Json.node?, hx, Option.map_some]
  · refine .object fun member hmember => ?_
    obtain ⟨⟨f, value?⟩, hf, rfl⟩ := only member hmember
    cases value? with
    | none => exact .null depth
    | some value =>
        obtain ⟨shaped, -, -, hvalue⟩ := exists_left_of_forall₂ hvalues hf
        exact (hvalue value rfl).plain

end WritesFields

/-! ## Times, references and names -/

def timeNode (t : Timestamp) : Json := .text t.write

theorem refTo_text (s : String) : (refTo (.text s)).textAt .value = some s := by
  have hnode : (refTo (.text s)).node? .value = some (.text s) :=
    (writes_one .value (.text s)).node?_eq (List.mem_singleton_self _) (by rintro _ ⟨⟩; rfl)
  rw [Json.textAt, hnode]
  rfl

theorem suits_ref (depth : Nat) (s : String) : Suits .ref (depth + 1) (refTo (.text s)) := by
  refine (writes_one .value (.text s)).suits (.cons ⟨rfl, ?_⟩ .nil)
  rintro _ ⟨⟩
  exact suits_text depth s

/-- The names of something: the one that counts, and perhaps others behind it. -/
inductive WritesNames : Option Json → Option String → Prop where
  | none : WritesNames none none
  | some (name : String) (others : List String) :
      WritesNames (some (.array ((name :: others).map fun s => refTo (.text s)))) (some name)

theorem exists_writesNames (given : Option String) : ∃ names, WritesNames names given := by
  cases given with
  | none => exact ⟨_, .none⟩
  | some name => exact ⟨_, .some name []⟩

theorem WritesNames.suits {names : Option Json} {given : Option String}
    (h : WritesNames names given) (depth : Nat) : ∀ value ∈ names, Suits (.array .ref) (depth + 2) value := by
  cases h with
  | none => nofun
  | some name others =>
      rintro _ ⟨⟩
      refine suits_array fun item hitem => ?_
      obtain ⟨s, -, rfl⟩ := List.mem_map.mp hitem
      exact suits_ref depth s

theorem suits_time (depth : Nat) (t : Option Timestamp) :
    ∀ value ∈ t.map timeNode, Suits .text depth value := by
  rintro value hvalue
  obtain ⟨t, -, rfl⟩ := Option.map_eq_some_iff.mp hvalue
  exact suits_text depth _

theorem suits_some {s : Shape} {depth : Nat} {json : Json} (h : Suits s depth json) :
    ∀ value ∈ some json, Suits s depth value := by
  rintro _ ⟨⟩
  exact h

/-! ## Calls, journeys, deliveries -/

def callFields (c : EstimatedCall) : Fields :=
  [(.stopPointRef, some (refTo (.text c.stopPointRef.text))),
    (.aimedArrivalTime, c.aimedArrivalTime.map timeNode),
    (.aimedDepartureTime, c.aimedDepartureTime.map timeNode),
    (.expectedArrivalTime, c.expectedArrivalTime.map timeNode),
    (.expectedDepartureTime, c.expectedDepartureTime.map timeNode)]

def journeyFields (j : EstimatedVehicleJourney) (lineName destination : Option Json)
    (calls : Json) : Fields :=
  [(.recordedAtTime, j.recordedAtTime.map timeNode),
    (.datedVehicleJourneyRef, some (refTo (.text j.datedVehicleJourneyRef.text))),
    (.destinationRef, some (refTo (.text j.destinationRef.text))),
    (.directionRef, some (refTo (.text j.directionRef.text))),
    (.lineRef, some (refTo (.text j.lineRef.text))),
    (.publishedLineName, lineName), (.destinationName, destination),
    (.estimatedCalls, some calls)]

def deliveryFields (d : ServiceDelivery) (journeys : List Json) : Fields :=
  [(.responseTimestamp, some (timeNode d.responseTimestamp)),
    (.producerRef, some (.text d.producerRef.text)),
    (.estimatedTimetableDelivery, some (.array journeys))]

def WritesCall (json : Json) (c : EstimatedCall) : Prop := WritesFields (callFields c) json

/-- The object is a journey as feeds write it, its calls one level further down. -/
inductive WritesJourney (json : Json) (j : EstimatedVehicleJourney) : Prop where
  | intro {lineName destination : Option Json} {calls : List Json} {node : Json}
      (hline : WritesNames lineName j.publishedLineName)
      (hdestination : WritesNames destination j.destinationName)
      (hcalls : List.Forall₂ WritesCall calls j.estimatedCalls)
      (hnode : WritesFields [(.estimatedCall, some (.array calls))] node)
      (h : WritesFields (journeyFields j lineName destination node) json)

inductive WritesDelivery (json : Json) (d : ServiceDelivery) : Prop where
  | intro {journeys : List Json} (hjourneys : List.Forall₂ WritesJourney journeys d.journeys)
      (h : WritesFields (deliveryFields d journeys) json)

/-- The document holds the delivery as feeds write it. -/
def WritesDocument (json : Json) (d : ServiceDelivery) : Prop :=
  ∃ siri delivery, WritesFields [(.siri, some siri)] json ∧
    WritesFields [(.serviceDelivery, some delivery)] siri ∧ WritesDelivery delivery d

/-! Every delivery can be written. -/

theorem exists_writesCall (c : EstimatedCall) : ∃ json, WritesCall json c :=
  exists_writesFields (by simp [callFields])

theorem exists_writesJourney (j : EstimatedVehicleJourney) : ∃ json, WritesJourney json j := by
  obtain ⟨lineName, hline⟩ := exists_writesNames j.publishedLineName
  obtain ⟨destination, hdestination⟩ := exists_writesNames j.destinationName
  obtain ⟨calls, hcalls⟩ := exists_forall₂ exists_writesCall j.estimatedCalls
  have hnode := writes_one .estimatedCall (.array calls)
  have hdistinct : ∀ node, ((journeyFields j lineName destination node).map (·.1)).Nodup := by
    simp [journeyFields]
  obtain ⟨json, hjson⟩ := exists_writesFields (hdistinct _)
  exact ⟨json, .intro hline hdestination hcalls hnode hjson⟩

theorem exists_writesDocument (d : ServiceDelivery) : ∃ json, WritesDocument json d := by
  obtain ⟨journeys, hjourneys⟩ := exists_forall₂ exists_writesJourney d.journeys
  have hdistinct : ((deliveryFields d journeys).map (·.1)).Nodup := by simp [deliveryFields]
  obtain ⟨delivery, hdelivery⟩ := exists_writesFields hdistinct
  exact ⟨_, _, delivery, writes_one .siri _, writes_one .serviceDelivery _,
    .intro hjourneys hdelivery⟩

/-! ## The first pass

References are one level deep, and each kind of object stands inside the next. -/

theorem WritesCall.suits {json : Json} {c : EstimatedCall} (h : WritesCall json c) :
    Suits .call 2 json := by
  refine WritesFields.suits h ?_
  refine .cons ⟨rfl, suits_some (suits_ref 0 _)⟩ ?_
  refine .cons ⟨rfl, suits_time 1 _⟩ ?_
  refine .cons ⟨rfl, suits_time 1 _⟩ ?_
  refine .cons ⟨rfl, suits_time 1 _⟩ ?_
  exact .cons ⟨rfl, suits_time 1 _⟩ .nil

theorem suits_items {α : Type} {R : Json → α → Prop} {s : Shape} {depth : Nat}
    (hR : ∀ json x, R json x → Suits s depth json) {items : List Json} {xs : List α}
    (h : List.Forall₂ R items xs) : Suits (.array s) (depth + 1) (.array items) := by
  refine suits_array fun item hitem => ?_
  obtain ⟨x, -, hx⟩ := exists_right_of_forall₂ h hitem
  exact hR item x hx

theorem suits_calls {calls : List Json} {cs : List EstimatedCall} {node : Json}
    (hcalls : List.Forall₂ WritesCall calls cs)
    (hnode : WritesFields [(.estimatedCall, some (.array calls))] node) : Suits .calls 4 node :=
  hnode.suits (.cons ⟨rfl, suits_some (suits_items (fun _ _ => WritesCall.suits) hcalls)⟩ .nil)

theorem WritesJourney.suits {json : Json} {j : EstimatedVehicleJourney}
    (h : WritesJourney json j) : Suits .journey 5 json := by
  obtain ⟨hline, hdestination, hcalls, hnode, h⟩ := h
  refine h.suits ?_
  refine .cons ⟨rfl, suits_time 4 _⟩ ?_
  refine .cons ⟨rfl, suits_some (suits_ref 3 _)⟩ ?_
  refine .cons ⟨rfl, suits_some (suits_ref 3 _)⟩ ?_
  refine .cons ⟨rfl, suits_some (suits_ref 3 _)⟩ ?_
  refine .cons ⟨rfl, suits_some (suits_ref 3 _)⟩ ?_
  refine .cons ⟨rfl, hline.suits 2⟩ ?_
  refine .cons ⟨rfl, hdestination.suits 2⟩ ?_
  exact .cons ⟨rfl, suits_some (suits_calls hcalls hnode)⟩ .nil

theorem WritesDelivery.suits {json : Json} {d : ServiceDelivery} (h : WritesDelivery json d) :
    Suits .delivery 7 json := by
  obtain ⟨hjourneys, h⟩ := h
  refine h.suits ?_
  refine .cons ⟨rfl, suits_some (suits_text 6 _)⟩ ?_
  refine .cons ⟨rfl, suits_some (suits_text 6 _)⟩ ?_
  exact .cons ⟨rfl, suits_some (suits_items (fun _ _ => WritesJourney.suits) hjourneys)⟩ .nil

theorem WritesDocument.suits {json : Json} {d : ServiceDelivery} (h : WritesDocument json d) :
    Suits .document 9 json := by
  obtain ⟨siri, delivery, hjson, hsiri, hdelivery⟩ := h
  have hsuits : Suits .siri 8 siri := hsiri.suits (.cons ⟨rfl, suits_some hdelivery.suits⟩ .nil)
  exact hjson.suits (.cons ⟨rfl, suits_some hsuits⟩ .nil)

/-! ## What can be sent -/

/-- Some text is read as the timestamp. -/
def Timestamp.IsRead (t : Timestamp) : Prop := ∃ s, Timestamp.read? s = .ok t

theorem Timestamp.isRead_iff (t : Timestamp) : t.IsRead ↔ t.offset.IsReadable := by
  constructor
  · rintro ⟨s, hs⟩
    exact offset_of_read hs
  · intro h
    exact ⟨t.write, read_write h⟩

/-- The stop is not blank, and the times are some that can be read. -/
structure EstimatedCall.Sendable (c : EstimatedCall) : Prop where
  stopPointRef : Text.isBlank c.stopPointRef.text = false
  aimedArrivalTime : ∀ t ∈ c.aimedArrivalTime, t.IsRead
  aimedDepartureTime : ∀ t ∈ c.aimedDepartureTime, t.IsRead
  expectedArrivalTime : ∀ t ∈ c.expectedArrivalTime, t.IsRead
  expectedDepartureTime : ∀ t ∈ c.expectedDepartureTime, t.IsRead

/-- The references are not blank, the names not empty, and the time is one that can be read. -/
structure EstimatedVehicleJourney.Sendable (j : EstimatedVehicleJourney) : Prop where
  recordedAtTime : ∀ t ∈ j.recordedAtTime, t.IsRead
  datedVehicleJourneyRef : Text.isBlank j.datedVehicleJourneyRef.text = false
  destinationRef : Text.isBlank j.destinationRef.text = false
  directionRef : Text.isBlank j.directionRef.text = false
  lineRef : Text.isBlank j.lineRef.text = false
  publishedLineName : ∀ name ∈ j.publishedLineName, name ≠ ""
  destinationName : ∀ name ∈ j.destinationName, name ≠ ""
  estimatedCalls : ∀ c ∈ j.estimatedCalls, c.Sendable

/-- The delivery is one that feeds can send: one timetable in one version. -/
structure ServiceDelivery.Sendable (d : ServiceDelivery) : Prop where
  oneFrame : ∃ journeys, d.estimatedTimetableDeliveries = [⟨[⟨journeys⟩]⟩]
  responseTimestamp : d.responseTimestamp.IsRead
  producerRef : Text.isBlank d.producerRef.text = false
  journeys : ∀ j ∈ d.journeys, j.Sendable

/-! ## The second pass -/

section Nodes

variable {fields : Fields} {json : Json} {f : Field}

theorem WritesFields.textAt_eq (h : WritesFields fields json) {t : Option Timestamp}
    (hf : (f, t.map timeNode) ∈ fields) : json.textAt f = t.map Timestamp.write := by
  rw [Json.textAt, h.node?_eq hf fun value hvalue => (suits_time 0 t value hvalue).not_null]
  cases t <;> rfl

theorem WritesFields.timeOf (h : WritesFields fields json) {t : Option Timestamp}
    (hf : (f, t.map timeNode) ∈ fields) (ht : ∀ given ∈ t, given.IsRead) : TimeOf json f t := by
  rw [TimeOf, h.textAt_eq hf]
  cases t with
  | none => rfl
  | some t =>
      have hreadable := t.isRead_iff.mp (ht t rfl)
      rw [Option.map_some, Option.map_some, Timestamp.read_write hreadable, Option.map_some]

theorem WritesFields.valueAt_eq (h : WritesFields fields json) {s : String}
    (hf : (f, some (refTo (.text s))) ∈ fields) : json.valueAt f = some s := by
  rw [Json.valueAt, Json.refAt,
    h.node?_eq hf fun value hvalue => (suits_some (suits_ref 0 s) value hvalue).not_null,
    Option.map_some, refTo_text]
  rfl

theorem WritesFields.nameAt_eq (h : WritesFields fields json) {names : Option Json}
    {given : Option String} (hf : (f, names) ∈ fields) (hnames : WritesNames names given)
    (hgiven : ∀ name ∈ given, name ≠ "") : json.nameAt f = given := by
  have hnode : json.node? f = names :=
    h.node?_eq hf fun value hvalue => (hnames.suits 0 value hvalue).not_null
  rw [Json.nameAt, Json.itemsAt, hnode]
  cases hnames with
  | none => rfl
  | some name others =>
      show ((refTo (.text name)).textAt .value).filter (· ≠ "") = some name
      rw [refTo_text, Option.filter_some_pos (by simpa using hgiven name rfl)]

theorem WritesFields.itemsAt_eq (h : WritesFields fields json) {items : List Json}
    (hf : (f, some (.array items)) ∈ fields) : json.itemsAt f = items := by
  rw [Json.itemsAt, h.node?_eq hf (by rintro _ ⟨⟩; rfl)]

end Nodes

theorem WritesCall.callOf {json : Json} {c : EstimatedCall} (h : WritesCall json c)
    (hc : c.Sendable) : CallOf json c where
  stopPointRef := WritesFields.valueAt_eq h (by simp [callFields])
  aimedArrivalTime := WritesFields.timeOf h (by simp [callFields]) hc.aimedArrivalTime
  aimedDepartureTime := WritesFields.timeOf h (by simp [callFields]) hc.aimedDepartureTime
  expectedArrivalTime := WritesFields.timeOf h (by simp [callFields]) hc.expectedArrivalTime
  expectedDepartureTime := WritesFields.timeOf h (by simp [callFields]) hc.expectedDepartureTime

theorem calls_eq {json node : Json} {calls : List Json} {fields : Fields}
    (h : WritesFields fields json) (hf : (Field.estimatedCalls, some node) ∈ fields)
    (hnode : WritesFields [(.estimatedCall, some (.array calls))] node) : json.calls = calls := by
  rw [Json.calls, h.node?_eq hf (by rintro _ ⟨⟩; exact hnode.not_null), Option.map_some,
    hnode.itemsAt_eq (List.mem_singleton_self _), Option.getD_some]

theorem WritesJourney.journeyOf {json : Json} {j : EstimatedVehicleJourney}
    (h : WritesJourney json j) (hj : j.Sendable) : JourneyOf json j := by
  obtain ⟨hline, hdestination, hcalls, hnode, h⟩ := h
  -- each field of the journey is found under its own name
  constructor
  case recordedAtTime => exact h.timeOf (by simp [journeyFields]) hj.recordedAtTime
  case datedVehicleJourneyRef => exact h.valueAt_eq (by simp [journeyFields])
  case destinationRef => exact h.valueAt_eq (by simp [journeyFields])
  case directionRef => exact h.valueAt_eq (by simp [journeyFields])
  case lineRef => exact h.valueAt_eq (by simp [journeyFields])
  case publishedLineName =>
    exact (h.nameAt_eq (by simp [journeyFields]) hline hj.publishedLineName).symm
  case destinationName =>
    exact (h.nameAt_eq (by simp [journeyFields]) hdestination hj.destinationName).symm
  case estimatedCalls =>
    rw [calls_eq h (by simp [journeyFields]) hnode]
    exact forall₂_of_mem hcalls fun _ c hc hcall => hcall.callOf (hj.estimatedCalls c hc)

theorem ServiceDelivery.Sendable.frames {d : ServiceDelivery} (h : d.Sendable) :
    d.estimatedTimetableDeliveries = [⟨[⟨d.journeys⟩]⟩] := by
  obtain ⟨journeys, hframe⟩ := h.oneFrame
  rw [ServiceDelivery.journeys, hframe]
  simp [journeysOf]

theorem WritesDelivery.deliveryOf {json : Json} {d : ServiceDelivery} (h : WritesDelivery json d)
    (hd : d.Sendable) : DeliveryOf json d := by
  obtain ⟨hjourneys, h⟩ := h
  constructor
  case responseTimestamp =>
    refine h.timeOf (by simp [deliveryFields]) ?_
    rintro _ ⟨⟩
    exact hd.responseTimestamp
  case producerRef =>
    have hnode : json.node? .producerRef = some (.text d.producerRef.text) :=
      h.node?_eq (by simp [deliveryFields]) (by rintro _ ⟨⟩; rfl)
    rw [Json.textAt, hnode]
    rfl
  case journeys =>
    refine ⟨d.journeys, hd.frames, ?_⟩
    rename_i journeys
    have hitems : json.itemsAt .estimatedTimetableDelivery = journeys :=
      h.itemsAt_eq (by simp [deliveryFields])
    rw [hitems]
    exact forall₂_of_mem hjourneys fun _ j hj hjourney => hjourney.journeyOf (hd.journeys j hj)

/-! ### Nothing is missing -/

theorem TimeOf.readable {json : Json} {f : Field} {t : Option Timestamp} (h : TimeOf json f t) :
    Readable (json.textAt f) := by
  intro s hs
  rw [TimeOf, hs, Option.map_some] at h
  obtain ⟨t, -, heq⟩ := Option.map_eq_some_iff.mp h.symm
  exact ⟨t, heq.symm⟩

theorem CallOf.complete {json : Json} {c : EstimatedCall} (h : CallOf json c)
    (hc : c.Sendable) : CompleteCall json where
  stopPointRef := ⟨_, h.stopPointRef, hc.stopPointRef⟩
  aimedArrivalTime := h.aimedArrivalTime.readable
  aimedDepartureTime := h.aimedDepartureTime.readable
  expectedArrivalTime := h.expectedArrivalTime.readable
  expectedDepartureTime := h.expectedDepartureTime.readable

theorem JourneyOf.complete {json : Json} {j : EstimatedVehicleJourney} (h : JourneyOf json j)
    (hj : j.Sendable) : CompleteJourney json where
  recordedAtTime := h.recordedAtTime.readable
  datedVehicleJourneyRef := ⟨_, h.datedVehicleJourneyRef, hj.datedVehicleJourneyRef⟩
  destinationRef := ⟨_, h.destinationRef, hj.destinationRef⟩
  directionRef := ⟨_, h.directionRef, hj.directionRef⟩
  lineRef := ⟨_, h.lineRef, hj.lineRef⟩
  calls := by
    intro call hcall
    obtain ⟨c, hc, hof⟩ := exists_right_of_forall₂ h.estimatedCalls hcall
    exact hof.complete (hj.estimatedCalls c hc)

theorem write_not_blank (t : Timestamp) : Text.isBlank t.write = false := by
  unfold Text.isBlank Timestamp.write
  rw [String.toList_ofList, List.all_eq_false]
  refine ⟨'T', ?_, by decide⟩
  unfold Timestamp.chars
  simp

theorem WritesDelivery.complete {json : Json} {d : ServiceDelivery} (h : WritesDelivery json d)
    (hd : d.Sendable) : CompleteDelivery json := by
  have hof := h.deliveryOf hd
  obtain ⟨-, h⟩ := h
  have htext : json.textAt .responseTimestamp = some d.responseTimestamp.write :=
    WritesFields.textAt_eq (t := some d.responseTimestamp) h List.mem_cons_self
  refine ⟨⟨_, htext, write_not_blank _⟩, hof.responseTimestamp.readable,
    ⟨_, hof.producerRef, hd.producerRef⟩, ?_⟩
  intro journey hjourney
  obtain ⟨journeys, hframe, hjourneys⟩ := hof.journeys
  obtain rfl : d.journeys = journeys := by
    simpa using hd.frames.symm.trans hframe
  obtain ⟨j, hj, hof⟩ := exists_right_of_forall₂ hjourneys hjourney
  exact hof.complete (hd.journeys j hj)

/-! ## The delivery in a document -/

theorem TimeOf.unique {json : Json} {f : Field} {t t' : Option Timestamp} (h : TimeOf json f t)
    (h' : TimeOf json f t') : t = t' := by
  refine Option.map_injective (fun _ _ => ?_) (h.symm.trans h')
  exact Except.ok.inj

theorem NonEmptyText.eq_of_given {given : Option String} {s t : NonEmptyText}
    (h : given = some s.text) (h' : given = some t.text) : s = t := by
  obtain ⟨s, hs⟩ := s
  obtain ⟨t, ht⟩ := t
  obtain rfl : s = t := Option.some.inj (h.symm.trans h')
  rfl

open NonEmptyText (eq_of_given)

theorem CallOf.unique : Relator.RightUnique CallOf := by
  rintro json ⟨⟩ ⟨⟩ h h'
  rw [EstimatedCall.mk.injEq]
  exact ⟨eq_of_given h.stopPointRef h'.stopPointRef, h.aimedArrivalTime.unique h'.aimedArrivalTime,
    h.aimedDepartureTime.unique h'.aimedDepartureTime,
    h.expectedArrivalTime.unique h'.expectedArrivalTime,
    h.expectedDepartureTime.unique h'.expectedDepartureTime⟩

theorem JourneyOf.unique : Relator.RightUnique JourneyOf := by
  rintro json ⟨⟩ ⟨⟩ h h'
  rw [EstimatedVehicleJourney.mk.injEq]
  exact ⟨h.recordedAtTime.unique h'.recordedAtTime,
    eq_of_given h.datedVehicleJourneyRef h'.datedVehicleJourneyRef,
    eq_of_given h.destinationRef h'.destinationRef, eq_of_given h.directionRef h'.directionRef,
    eq_of_given h.lineRef h'.lineRef, h.publishedLineName.trans h'.publishedLineName.symm,
    h.destinationName.trans h'.destinationName.symm,
    CallOf.unique.forall₂ h.estimatedCalls h'.estimatedCalls⟩

/-- What a document holds is one delivery at most. -/
theorem DeliveryOf.unique : Relator.RightUnique DeliveryOf := by
  rintro json ⟨time, producer, _⟩ ⟨time', producer', _⟩ h h'
  obtain ⟨journeys, rfl, hjourneys⟩ := h.journeys
  obtain ⟨journeys', rfl, hjourneys'⟩ := h'.journeys
  obtain rfl := JourneyOf.unique.forall₂ hjourneys hjourneys'
  obtain rfl := Option.some.inj (h.responseTimestamp.unique h'.responseTimestamp)
  obtain rfl : producer = producer' := eq_of_given h.producerRef h'.producerRef
  rfl

theorem WritesDocument.delivery?_eq {json : Json} {d : ServiceDelivery}
    (h : WritesDocument json d) : ∃ delivery, json.delivery? = some delivery ∧ WritesDelivery delivery d := by
  obtain ⟨siri, delivery, hjson, hsiri, hdelivery⟩ := h
  have hroot : json.node? .siri = some siri := by
    refine hjson.node?_eq (List.mem_singleton_self _) ?_
    rintro _ ⟨⟩
    exact hsiri.not_null
  have hnode : siri.node? .serviceDelivery = some delivery := by
    refine hsiri.node?_eq (List.mem_singleton_self _) ?_
    rintro _ ⟨⟩
    exact hdelivery.suits.not_null
  refine ⟨delivery, ?_, hdelivery⟩
  rw [Json.delivery?, hroot, Option.bind_some, hnode]

/-- **A delivery is read back** from any document that writes it as feeds do, in any layout; and
there is such a document. -/
theorem decode_print (d : ServiceDelivery) (hd : d.Sendable) :
    (∃ json, WritesDocument json d) ∧
      ∀ json, WritesDocument json d → ∀ layout : Json.Layout,
        decode? (Utf8.encode (json.print layout)) = .ok d := by
  refine ⟨exists_writesDocument d, fun json h layout => ?_⟩
  have hread : Json.read? bodyLimits (Utf8.encode (json.print layout)) = .ok json := by
    rw [Utf8.encode, Json.print, String.toList_ofList]
    exact Json.read_print h.suits.plain (by decide) layout
  -- nothing is wrong with the document, so decoding gives what it holds, and that is unique
  obtain ⟨delivery, hdelivery, hwrites⟩ := h.delivery?_eq
  have hjudged := decode_judged hread
  have hfaults : json.faults = [] :=
    (faults_iff json).mpr ⟨h.suits.fits, delivery, hdelivery, hwrites.complete hd⟩
  obtain ⟨d', hd'⟩ := hjudged.succeeds_iff.mpr hfaults
  rw [hd'] at hjudged
  obtain ⟨delivery', hdelivery', hof⟩ := hjudged.good
  obtain rfl : delivery' = delivery := Option.some.inj (hdelivery'.symm.trans hdelivery)
  rw [hd', DeliveryOf.unique hof (hwrites.deliveryOf hd)]

/-! A document with its members out of order, a null, a second name, and a clock that is some
minutes and a fraction of a second behind. -/

def tramTime : Timestamp := onMonday 605 ⟨-690250000, by decide, by decide⟩

def tramCalls : List EstimatedCall :=
  [⟨⟨"𝄞", by decide⟩, none, none, some tramTime, none⟩,
    ⟨⟨" s\t", by decide⟩, none, none, none, none⟩]

def tramJourney : EstimatedVehicleJourney :=
  { mixedJourney with destinationName := some "\"Zoë\"", estimatedCalls := tramCalls }

def tramDelivery : ServiceDelivery :=
  ⟨onMonday 600 .utc, ⟨"p", by decide⟩, [⟨[⟨[tramJourney]⟩]⟩]⟩

def tramCallNodes : List Json :=
  [.object [("expectedArrivalTime", .text "2024-05-06T10:05:00-00:11:30.250000"),
      ("stopPointRef", refTo (.text "𝄞")), ("aimedArrivalTime", .null)],
    .object [("stopPointRef", refTo (.text " s\t"))]]

def tramJourneyNode : Json :=
  .object [("datedVehicleJourneyRef", refTo (.text "j")), ("destinationRef", refTo (.text "d")),
    ("directionRef", refTo (.text "1")), ("lineRef", refTo (.text "42")),
    ("estimatedCalls", .object [("estimatedCall", .array tramCallNodes)]),
    ("destinationName", .array [refTo (.text "\"Zoë\""), refTo (.text "")]),
    ("recordedAtTime", .null)]

def tramDeliveryNode : Json :=
  .object [("producerRef", .text "p"), ("responseTimestamp", .text "2024-05-06T10:00:00+00:00"),
    ("estimatedTimetableDelivery", .array [tramJourneyNode])]

def tramFeed : Json := .object [("Siri", .object [("serviceDelivery", tramDeliveryNode)])]

theorem tramCalls_written : List.Forall₂ WritesCall tramCallNodes tramCalls := by
  have htime : tramTime.write = "2024-05-06T10:05:00-00:11:30.250000" := by decide +kernel
  refine .cons (.object ?_ ?_ ?_) (.cons (.object ?_ ?_ ?_) .nil)
  all_goals simp [callFields, timeNode, htime, Field.camel]

theorem tramJourney_written : WritesJourney tramJourneyNode tramJourney := by
  refine .intro .none (.some "\"Zoë\"" [""]) tramCalls_written (writes_one .estimatedCall _)
    (.object ?_ ?_ ?_)
  all_goals simp [journeyFields, tramJourney, mixedJourney, Field.camel]

theorem tramFeed_written : WritesDocument tramFeed tramDelivery := by
  have htime : (onMonday 600 .utc).write = "2024-05-06T10:00:00+00:00" := by decide +kernel
  refine ⟨_, tramDeliveryNode, writes_one .siri _, writes_one .serviceDelivery _, ?_⟩
  refine .intro (.cons tramJourney_written .nil) (.object ?_ ?_ ?_)
  all_goals simp [deliveryFields, tramDelivery, timeNode, htime, Field.camel]

theorem tramDelivery_sendable : tramDelivery.Sendable := by
  have hread : ∀ t ∈ some tramTime, t.IsRead := by
    rintro _ ⟨⟩
    exact tramTime.isRead_iff.mpr (.inr (by decide))
  have hnow : (onMonday 600 .utc).IsRead := (Timestamp.isRead_iff _).mpr (.inl rfl)
  have hnone : ∀ t ∈ (none : Option Timestamp), t.IsRead := by simp
  have hcalls : ∀ c ∈ tramCalls, c.Sendable := by
    refine List.forall_mem_cons.mpr ⟨?_, List.forall_mem_singleton.mpr ?_⟩
    · exact ⟨by decide +kernel, hnone, hnone, hread, hnone⟩
    · exact ⟨by decide +kernel, hnone, hnone, hnone, hnone⟩
  have hname : ∀ name ∈ some "\"Zoë\"", name ≠ "" := by
    rintro _ ⟨⟩
    decide
  refine ⟨⟨_, rfl⟩, hnow, by decide +kernel, List.forall_mem_singleton.mpr ?_⟩
  exact ⟨hnone, by decide +kernel, by decide +kernel, by decide +kernel, by decide +kernel, nofun,
    hname, hcalls⟩

theorem decode_print_tram : tramDelivery.Sendable ∧ WritesDocument tramFeed tramDelivery ∧
    decode? (Utf8.encode (tramFeed.print .line)) = .ok tramDelivery := by
  obtain ⟨-, hdecodes⟩ := decode_print tramDelivery tramDelivery_sendable
  exact ⟨tramDelivery_sendable, tramFeed_written, hdecodes tramFeed tramFeed_written .line⟩

end TimetableFeed
