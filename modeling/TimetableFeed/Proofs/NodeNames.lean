import TimetableFeed.Proofs.Locations

/-!
# Names of nodes

A node can be wrong in two ways, and each way has its own error: the first pass finds that it has a
wrong type, the second one that it is missing, blank or no timestamp. The first pass names a node by
the path inside its journey, the second one by the path inside the object that it belongs to. These
are the same for a node of a journey; in the name of a node of a call the path to the call comes in
front, and in that of a node of the delivery the path to the delivery.

Main definitions: `Rejected`, `DecodeError.lead`. Main statement: `passes_name_node`.
-/

namespace TimetableFeed

/-- The body holds a document, which is rejected with the error, about the node that the path leads
to. -/
def Rejected (bytes : List UInt8) (e : DecodeError) (path : Path) : Prop :=
  ∃ json, Json.read? bodyLimits bytes = .ok json ∧ decode? bytes = .error e ∧ e.At json path

/-! ## Paths in camel case -/

/-- The part inside the journey of the way to the object of the place. -/
def Place.inner : Place → Path
  | .delivery => [.key Field.siri.camel, .key Field.serviceDelivery.camel]
  | .journey _ => []
  | .call _ j => .key Field.estimatedCalls.camel :: Path.itemOf .estimatedCall j

def Place.path (place : Place) : Path :=
  match place.journey? with
  | none => place.inner
  | some i => Place.delivery.inner ++ Path.itemOf .estimatedTimetableDelivery i ++ place.inner

/-- The way to the node from the object that it belongs to. -/
def Node.path : Node → Path
  | .field f => [.key f.camel]
  | .valueOf f => [.key f.camel, .key Field.value.camel]

theorem Path.InCamel.append {p q : Path} (h : Path.InCamel (p ++ q)) : p.InCamel ∧ q.InCamel := by
  constructor
  · intro name hname
    exact h name (List.mem_append_left _ hname)
  · intro name hname
    exact h name (List.mem_append_right _ hname)

theorem Json.nameOf_in_camel {json : Json} {f : Field} {path : Path} (hcamel : path.InCamel)
    (hmem : .key (json.nameOf f) ∈ path) : json.nameOf f = f.camel := by
  unfold nameOf at hmem ⊢
  cases hfound : json.found? f with
  | none => rfl
  | some found =>
      rw [hfound] at hmem
      exact found_in_camel hcamel hfound hmem

theorem Located.path_eq {document home : Json} {place : Place} {front : Path}
    (h : Located document place front home) (hcamel : front.InCamel) : front = place.path := by
  induction h with
  | delivery hsiri hdelivery =>
      rw [Json.found_in_camel hcamel hsiri (by simp),
        Json.found_in_camel hcamel hdelivery (by simp)]
      rfl
  | journey _ hitems _ ih =>
      rw [Json.found_in_camel hcamel hitems (by simp), ih hcamel.append.1]
      rfl
  | call _ haround hitems _ ih =>
      rw [Json.found_in_camel hcamel haround (by simp), Json.found_in_camel hcamel hitems (by simp),
        ih hcamel.append.1]
      rfl

/-! ## What both passes know of a node -/

/-- What the first pass writes in front of the name that the second one has for a node of the
place. -/
def Place.lead : Place → String
  | .delivery => Field.siri.camel ++ "." ++ Field.serviceDelivery.camel ++ "."
  | .journey _ => ""
  | .call _ j =>
    Field.estimatedCalls.camel ++ "." ++ Field.estimatedCall.camel ++ "[" ++ integerText j ++ "]."

/-- The same for the node of an error of the second pass. -/
def DecodeError.lead : DecodeError → String
  | .missing _ place => place.lead
  | .invalidTimestamp _ _ place => place.lead
  | _ => ""

theorem Field.camel_ne_empty (f : Field) : f.camel ≠ "" := by
  cases f <;> decide

theorem Path.locate_node (place : Place) (node : Node) :
    Path.locate (place.path ++ node.path) =
      ⟨place.journey?, place.call?, place.inner ++ node.path⟩ := by
  have hcalls : Field.estimatedCall.camel ≠ Field.estimatedTimetableDelivery.camel := by decide
  cases place <;> cases node <;>
    simp [locate, locateFrom, Place.path, Place.inner, Place.journey?, Place.call?, Node.path,
      itemOf, hcalls]

theorem Path.write_node (place : Place) (node : Node) :
    Path.write (place.inner ++ node.path) = place.lead ++ node.name := by
  cases place <;> cases node <;>
    simp [write, writeStep, Place.inner, Place.lead, Node.path, Node.name, itemOf,
      Field.camel_ne_empty, String.append_assoc]

/-- The error knows the node by a name of its own, which is that of the path less the lead, and by
the indices of journey and call on the path. -/
structure DecodeError.Knows (e : DecodeError) (path : Path) (name : String) : Prop where
  field : e.blame.field? = some name
  written : path.locate.inner.write = e.lead ++ name
  named : path.locate.inner.write ≠ ""
  journey : e.blame.journey? = path.locate.journey?.map Int.ofNat
  call : e.blame.call? = path.locate.call?.map Int.ofNat

theorem Node.name_ne_empty (node : Node) : node.name ≠ "" := by
  cases node with
  | field f => exact f.camel_ne_empty
  | valueOf f => simp [name, f.camel_ne_empty]

/-- An error that blames a node of a place knows it. -/
theorem DecodeError.knows_of_blame {e : DecodeError} {kind : ErrorKind} {path : Path}
    (place : Place) (node : Node) (hblame : e.blame = place.blame kind node.name)
    (hlead : e.lead = place.lead) (hpath : path = place.path ++ node.path) :
    e.Knows path node.name := by
  have hwritten : path.locate.inner.write = e.lead ++ node.name := by
    rw [hpath, Path.locate_node, Path.write_node, hlead]
  refine ⟨by rw [hblame]; rfl, hwritten, ?_, ?_, ?_⟩
  · rw [hwritten]
    simp [node.name_ne_empty]
  · rw [hblame, hpath, Path.locate_node]
    rfl
  · rw [hblame, hpath, Path.locate_node]
    rfl

/-- Every error of the second pass knows its node. -/
theorem DecodeError.At.known {document : Json} {e : DecodeError} {path : Path}
    (h : e.At document path) (hsecond : ∀ m, e ≠ .wrongType m) (hcamel : path.InCamel) :
    ∃ name, e.Knows path name := by
  cases h with
  | wrongType => exact absurd rfl (hsecond _)
  | noRoot =>
      rw [Json.nameOf_in_camel hcamel (by simp)]
      exact ⟨_, ⟨rfl, rfl, by decide, rfl, rfl⟩⟩
  | noServiceDelivery hsiri =>
      rw [Json.found_in_camel hcamel hsiri (by simp), Json.nameOf_in_camel hcamel (by simp)]
      exact ⟨_, ⟨rfl, rfl, by decide, rfl, rfl⟩⟩
  | @missing place front home f hhome =>
      refine ⟨_, DecodeError.knows_of_blame place (.field f) rfl rfl ?_⟩
      rw [hhome.path_eq hcamel.append.1, Json.nameOf_in_camel hcamel (by simp)]
      rfl
  | @noValue place front home ref f name hhome href =>
      refine ⟨_, DecodeError.knows_of_blame place (.valueOf f) rfl rfl ?_⟩
      rw [hhome.path_eq hcamel.append.1, Json.found_in_camel hcamel href (by simp),
        Json.nameOf_in_camel hcamel (by simp)]
      rfl
  | @unreadable place front home f text hhome =>
      refine ⟨_, DecodeError.knows_of_blame place (.field f) rfl rfl ?_⟩
      rw [hhome.path_eq hcamel.append.1, Json.nameOf_in_camel hcamel (by simp)]
      rfl

/-! ## Both passes -/

/-- **How the passes name a node.** Of two bodies one is rejected because a node has a wrong type,
the other because the same node is missing, blank or no timestamp. If the way to the node is in
camel case, the errors agree on the journey and the call, and the name in the first one is the lead
and then that in the second one: the fields are the same just where there is no lead. -/
theorem passes_name_node {bytes bytes' : List UInt8} {m : Mismatch} {e : DecodeError} {path : Path}
    (h : Rejected bytes (.wrongType m) path) (h' : Rejected bytes' e path)
    (hsecond : ∀ m', e ≠ .wrongType m') (hcamel : path.InCamel) :
    (DecodeError.wrongType m).blame.journey? = e.blame.journey? ∧
      (DecodeError.wrongType m).blame.call? = e.blame.call? ∧
      (∃ name, e.blame.field? = some name ∧
        (DecodeError.wrongType m).blame.field? = some (e.lead ++ name)) ∧
      ((DecodeError.wrongType m).blame.field? = e.blame.field? ↔ e.lead = "") := by
  obtain ⟨json, -, -, hat⟩ := h
  obtain ⟨json', -, -, hat'⟩ := h'
  obtain ⟨name, hknown⟩ := hat'.known hsecond hcamel
  have hfield : (DecodeError.wrongType m).blame.field? = some (e.lead ++ name) := by
    rw [← hknown.written, hat.wrongType_path]
    exact if_neg (hat.wrongType_path ▸ hknown.named)
  refine ⟨?_, ?_, ⟨name, hknown.field, hfield⟩, ?_⟩
  · rw [hknown.journey, hat.wrongType_path]
    rfl
  · rw [hknown.call, hat.wrongType_path]
    rfl
  · rw [hfield, hknown.field, Option.some_inj]
    simp

def deliveryFeed (delivery : Members Json) : Json :=
  .object [("Siri", .object [("serviceDelivery", .object delivery)])]

/-- One journey with one call, all of which is in order but for the members of the call. -/
def callFeed (call : Members Json) : Json :=
  deliveryFeed [("responseTimestamp", .text "2023-01-01T10:00Z"), ("producerRef", .text "A"),
    ("estimatedTimetableDelivery", .array [.object [
      ("datedVehicleJourneyRef", .object [("value", .text "1")]),
      ("destinationRef", .object [("value", .text "2")]),
      ("directionRef", .object [("value", .text "3")]),
      ("lineRef", .object [("value", .text "4")]),
      ("estimatedCalls", .object [("estimatedCall", .array [.object call])])]])]

def stopPath : Path := (Place.call 0 0).path ++ (Node.field .stopPointRef).path

set_option maxRecDepth 10000 in
theorem passes_name_node_stop :
    Rejected (printed (callFeed [("stopPointRef", .text "S")])) (.wrongType ⟨stopPath, .object⟩)
        stopPath ∧
      Rejected (printed (callFeed [])) (.missing (.field .stopPointRef) (.call 0 0)) stopPath ∧
      (DecodeError.wrongType ⟨stopPath, .object⟩).blame.journey? = some 0 ∧
      (DecodeError.wrongType ⟨stopPath, .object⟩).blame.call? = some 0 ∧
      (DecodeError.wrongType ⟨stopPath, .object⟩).blame.field? =
        some "estimatedCalls.estimatedCall[0].stopPointRef" := by
  have hread : Json.read? bodyLimits (printed (callFeed [("stopPointRef", .text "S")])) =
      .ok (callFeed [("stopPointRef", .text "S")]) := by rfl
  have hread' : Json.read? bodyLimits (printed (callFeed [])) = .ok (callFeed []) := by rfl
  have hfails : decode? (printed (callFeed [("stopPointRef", .text "S")])) =
      .error (.wrongType ⟨stopPath, .object⟩) := by
    rw [decode?_eq hread]
    rfl
  have hfails' : decode? (printed (callFeed [])) =
      .error (.missing (.field .stopPointRef) (.call 0 0)) := by
    rw [decode?_eq hread']
    rfl
  have hhome : ∀ call,
      Located (callFeed call) (.call 0 0) (Place.call 0 0).path (.object call) := by
    intro call
    have hdelivery : Located (callFeed call) .delivery _ _ := .delivery rfl rfl
    have hjourney : Located (callFeed call) (.journey 0) _ _ := .journey hdelivery rfl rfl
    exact .call hjourney rfl rfl rfl
  have hstop : (Field.stopPointRef, Shape.ref) ∈ Shape.call.fields := List.mem_cons_self
  have hat : (DecodeError.wrongType ⟨stopPath, .object⟩).At
      (callFeed [("stopPointRef", .text "S")]) stopPath := by
    refine .wrongType ((hhome _).recognised.append (.of_found hstop rfl (.here _ _))) ?_
    rintro ⟨ms, hms⟩
    cases hms
  have hat' : (DecodeError.missing (.field .stopPointRef) (.call 0 0)).At (callFeed [])
      stopPath := .missing (hhome []) (Or.inl rfl)
  have hcamel : stopPath.InCamel := by
    simp [stopPath, Place.path, Place.inner, Place.journey?, Node.path, Path.itemOf]
  have hrejected : Rejected _ (.wrongType ⟨stopPath, .object⟩) stopPath := ⟨_, hread, hfails, hat⟩
  have hrejected' : Rejected _ (.missing (.field .stopPointRef) (.call 0 0)) stopPath :=
    ⟨_, hread', hfails', hat'⟩
  obtain ⟨hjourney, hcall, ⟨name, hname, hfield⟩, -⟩ :=
    passes_name_node hrejected hrejected' (by rintro m ⟨⟩) hcamel
  cases hname
  exact ⟨hrejected, hrejected', hjourney, hcall, hfield⟩

def timestampPath : Path := Place.delivery.path ++ (Node.field .responseTimestamp).path

set_option maxRecDepth 10000 in
/-- The passes have two names for the response timestamp. -/
theorem passes_differ_on_timestamp :
    timestampPath.InCamel ∧
      Rejected (printed (deliveryFeed [("responseTimestamp", .object [])]))
        (.wrongType ⟨timestampPath, .text⟩) timestampPath ∧
      Rejected (printed (deliveryFeed [])) (.missing (.field .responseTimestamp) .delivery)
        timestampPath ∧
      (DecodeError.wrongType ⟨timestampPath, .text⟩).blame.field? =
        some "Siri.serviceDelivery.responseTimestamp" ∧
      (DecodeError.missing (.field .responseTimestamp) .delivery).blame.field? =
        some "responseTimestamp" := by
  have hread : Json.read? bodyLimits (printed (deliveryFeed [("responseTimestamp", .object [])])) =
      .ok (deliveryFeed [("responseTimestamp", .object [])]) := by rfl
  have hread' : Json.read? bodyLimits (printed (deliveryFeed [])) = .ok (deliveryFeed []) := by rfl
  have hhome : ∀ delivery, Located (deliveryFeed delivery) .delivery Place.delivery.path
      (.object delivery) := fun delivery => .delivery rfl rfl
  have hfield : (Field.responseTimestamp, Shape.text) ∈ Shape.delivery.fields := List.mem_cons_self
  refine ⟨?_, ⟨_, hread, ?_, ?_⟩, ⟨_, hread', ?_, ?_⟩, rfl, rfl⟩
  · simp [timestampPath, Place.path, Place.inner, Place.journey?, Node.path]
  · rw [decode?_eq hread]
    rfl
  · have hnode : Shape.document.Recognises (deliveryFeed [("responseTimestamp", .object [])])
        timestampPath .text (.object []) :=
      (hhome _).recognised.append (.of_found hfield rfl (.here _ _))
    refine .wrongType hnode ?_
    rintro ⟨⟩
  · rw [decode?_eq hread']
    rfl
  · exact .missing (hhome []) (Or.inl rfl)

end TimetableFeed
