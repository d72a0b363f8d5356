import TimetableFeed.Proofs.Precedence

/-!
# Places in documents

The nodes that errors are about. A place has an object in the document, and a path leads to it under
the names that the document uses. An error of the first pass is about a recognised node of a wrong
type; one of the second pass is about a node in the object of its place, where a check has failed.

Main definitions: `Located`, `DecodeError.At`. Main statements: `Check.exists_located`,
`Check.at_of_fails`.
-/

namespace TimetableFeed

/-! ## Fields and their names -/

namespace Json

/-- The name and the value of a field of a node; a null counts as missing. -/
def found? (json : Json) (f : Field) : Option (String × Json) :=
  match json with
  | .object ms => member? ms f
  | _ => none

/-- The name under which a field stands, or by which it is missed. -/
def nameOf (json : Json) (f : Field) : String := ((json.found? f).map (·.1)).getD f.camel

theorem node?_eq_found (json : Json) (f : Field) : json.node? f = (json.found? f).map (·.2) := by
  cases json <;> rfl

theorem exists_found {json node : Json} {f : Field} (h : json.node? f = some node) :
    ∃ name, json.found? f = some (name, node) := by
  rw [node?_eq_found] at h
  obtain ⟨⟨name, found⟩, hfound, rfl⟩ := Option.map_eq_some_iff.mp h
  exact ⟨name, hfound⟩

theorem found?_name {json x : Json} {f : Field} {name : String}
    (h : json.found? f = some (name, x)) : ∃ spelling, name = f.name spelling := by
  cases json with
  | object ms => exact Shape.member?_name h
  | _ => cases h

/-- A name in camel case is found for one field only. -/
theorem eq_of_found_camel {json x : Json} {f g : Field} (h : json.found? g = some (f.camel, x)) :
    f = g := by
  obtain ⟨spelling, hname⟩ := found?_name h
  exact Field.eq_of_camel_eq_name hname

/-- The field is missing, or it holds a blank text. -/
def Lacks (json : Json) (f : Field) : Prop :=
  json.node? f = none ∨ ∃ s, json.textAt f = some s ∧ Text.isBlank s = true

/-- Where a text can only be missing or be one, a check for more than white space fails exactly on
what is lacking. -/
theorem lacks_of_fails {json : Json} {f : Field}
    (htype : ∀ node, json.node? f = some node → node.scalar?.isSome)
    (hfails : ((json.textAt f).any fun s => !Text.isBlank s) = false) : json.Lacks f := by
  cases hnode : json.node? f with
  | none => exact Or.inl hnode
  | some node =>
      obtain ⟨s, hs⟩ := Option.isSome_iff_exists.mp (htype node hnode)
      have htext : json.textAt f = some s := by
        unfold textAt
        rw [hnode, Option.bind_some, hs]
      rw [htext] at hfails
      exact Or.inr ⟨s, htext, by simpa using hfails⟩

end Json

namespace Shape

variable {s t u : Shape} {json node x : Json} {p q : Path}

/-! ## Following paths -/

def fields : Shape → List (Field × Shape)
  | .object fields => fields
  | _ => []

theorem Recognises.of_found {f : Field} {name : String} (hf : (f, u) ∈ s.fields)
    (hx : json.found? f = some (name, x)) (h : u.Recognises x p t node) :
    s.Recognises json (.key name :: p) t node := by
  cases s with
  | object fields =>
      cases json with
      | object ms => exact .field hf hx h
      | _ => cases hx
  | _ => cases hf

theorem Recognises.append (h : s.Recognises json p t node) (h' : t.Recognises node q u x) :
    s.Recognises json (p ++ q) u x := by
  induction h with
  | here => exact h'
  | item hx _ ih => exact .item hx (ih h')
  | field hf hx _ ih => exact .field hf hx (ih h')

/-- Along a path each node in between is recognised too. -/
theorem Recognises.split (h : s.Recognises json p t node) :
    ∀ front rest, p = front ++ rest →
      ∃ u mid, s.Recognises json front u mid ∧ u.Recognises mid rest t node := by
  induction h with
  | here s json =>
      intro front rest hp
      obtain ⟨rfl, rfl⟩ := List.nil_eq_append_iff.mp hp
      exact ⟨s, json, .here s json, .here s json⟩
  | @item s t items i x node path hx hrest ih =>
      intro front rest hp
      cases front with
      | nil =>
          cases hp
          exact ⟨_, _, .here _ _, .item hx hrest⟩
      | cons step front =>
          obtain ⟨rfl, rfl⟩ := List.cons.inj hp
          obtain ⟨u, mid, hfront, hmid⟩ := ih front rest rfl
          exact ⟨u, mid, .item hx hfront, hmid⟩
  | @field fields f s t ms name x node path hf hx hrest ih =>
      intro front rest hp
      cases front with
      | nil =>
          cases hp
          exact ⟨_, _, .here _ _, .field hf hx hrest⟩
      | cons step front =>
          obtain ⟨rfl, rfl⟩ := List.cons.inj hp
          obtain ⟨u, mid, hfront, hmid⟩ := ih front rest rfl
          exact ⟨u, mid, .field hf hx hfront, hmid⟩

theorem Recognises.key_cases {step : PathStep} {fields : List (Field × Shape)}
    (h : (Shape.object fields).Recognises json (step :: p) t node) :
    ∃ f s name x, (f, s) ∈ fields ∧ json.found? f = some (name, x) ∧ step = .key name ∧
      s.Recognises x p t node := by
  cases h with
  | field hf hx h => exact ⟨_, _, _, _, hf, hx, rfl, h⟩

theorem Recognises.index_cases {step : PathStep}
    (h : (Shape.array s).Recognises json (step :: p) t node) :
    ∃ items i x, json = .array items ∧ items[i]? = some x ∧ step = .index i ∧
      s.Recognises x p t node := by
  cases h with
  | item hx h => exact ⟨_, _, _, rfl, hx, rfl, h⟩

/-- Where a path goes through a name and an index, an array stands under the name. -/
theorem Recognises.item_cases {name : String} {i : Nat}
    (h : s.Recognises json (.key name :: .index i :: p) t node) :
    ∃ fields f item items x, s = .object fields ∧ (f, .array item) ∈ fields ∧
      json.found? f = some (name, .array items) ∧ items[i]? = some x := by
  cases h with
  | field hf hx h =>
      cases h with
      | item hi _ => exact ⟨_, _, _, _, _, rfl, hf, hx, hi⟩

/-! ## The fields of a shape -/

mutual

/-- All fields that are declared somewhere in the shape. -/
def declared : Shape → List Field
  | .text => []
  | .array item => item.declared
  | .object fields => declaredIn fields

def declaredIn : List (Field × Shape) → List Field
  | [] => []
  | (f, s) :: rest => f :: (s.declared ++ declaredIn rest)

end

theorem mem_declaredIn {fields : List (Field × Shape)} {f : Field} (hf : (f, s) ∈ fields) :
    f ∈ declaredIn fields ∧ ∀ g ∈ s.declared, g ∈ declaredIn fields := by
  induction fields with
  | nil => cases hf
  | cons first rest ih =>
      obtain ⟨g, t⟩ := first
      rw [declaredIn]
      rcases List.mem_cons.mp hf with heq | hrest
      · cases heq
        exact ⟨List.mem_cons_self, fun k hk =>
          List.mem_cons_of_mem _ (List.mem_append_left _ hk)⟩
      · obtain ⟨hmem, hall⟩ := ih hrest
        exact ⟨List.mem_cons_of_mem _ (List.mem_append_right _ hmem), fun k hk =>
          List.mem_cons_of_mem _ (List.mem_append_right _ (hall k hk))⟩

theorem Recognises.declared (h : s.Recognises json p t node) {f : Field} (hf : f ∈ t.declared) :
    f ∈ s.declared := by
  induction h with
  | here => exact hf
  | item _ _ ih => exact ih hf
  | field hmem _ _ ih => exact (mem_declaredIn hmem).2 f (ih hf)

end Shape

/-! ## Places -/

def Place.shape : Place → Shape
  | .delivery => .delivery
  | .journey _ => .journey
  | .call _ _ => .call

/-- The object of a place, and the path to it under the names that the document uses. -/
inductive Located (document : Json) : Place → Path → Json → Prop where
  | delivery {a b : String} {siri delivery : Json} (hsiri : document.found? .siri = some (a, siri))
      (hdelivery : siri.found? .serviceDelivery = some (b, delivery)) :
      Located document .delivery [.key a, .key b] delivery
  | journey {front : Path} {delivery journey : Json} {name : String} {items : List Json} {i : Nat}
      (h : Located document .delivery front delivery)
      (hitems : delivery.found? .estimatedTimetableDelivery = some (name, .array items))
      (hi : items[i]? = some journey) :
      Located document (.journey i) (front ++ [.key name, .index i]) journey
  | call {front : Path} {journey around call : Json} {a name : String} {items : List Json}
      {i j : Nat} (h : Located document (.journey i) front journey)
      (haround : journey.found? .estimatedCalls = some (a, around))
      (hitems : around.found? .estimatedCall = some (name, .array items))
      (hj : items[j]? = some call) :
      Located document (.call i j) (front ++ [.key a, .key name, .index j]) call

namespace Located

variable {document home : Json} {place : Place} {front path inner : Path} {i j : Nat}

theorem recognised (h : Located document place front home) :
    Shape.document.Recognises document front place.shape home := by
  have hsiri : (Field.siri, Shape.siri) ∈ Shape.document.fields := List.mem_cons_self
  have hservice : (Field.serviceDelivery, Shape.delivery) ∈ Shape.siri.fields := List.mem_cons_self
  have hjourneys : (Field.estimatedTimetableDelivery, Shape.array .journey) ∈
      Shape.delivery.fields := by simp [Shape.fields, Shape.delivery]
  have hcalls : (Field.estimatedCalls, Shape.calls) ∈ Shape.journey.fields := by
    simp [Shape.fields, Shape.journey]
  have hcall : (Field.estimatedCall, Shape.array .call) ∈ Shape.calls.fields := List.mem_cons_self
  induction h with
  | delivery hfound hfound' => exact .of_found hsiri hfound (.of_found hservice hfound' (.here _ _))
  | journey _ hitems hi ih => exact ih.append (.of_found hjourneys hitems (.item hi (.here _ _)))
  | call _ haround hitems hj ih =>
      refine ih.append ?_
      exact .of_found hcalls haround (.of_found hcall hitems (.item hj (.here _ _)))

theorem length_delivery (h : Located document .delivery front home) : front.length = 2 := by
  cases h with
  | delivery => rfl

/-- The fourth step of the path to a journey is its index. -/
theorem index_journey (h : Located document (.journey i) front home) :
    front.length = 4 ∧ front[3]? = some (.index i) := by
  cases h with
  | journey h hitems hi =>
      have hlength := h.length_delivery
      refine ⟨by simp [hlength], ?_⟩
      rw [List.getElem?_append_right (by omega), hlength]
      rfl

/-- The seventh step of the path to a call is its index. -/
theorem index_call (h : Located document (.call i j) front home) :
    front.length = 7 ∧ front[6]? = some (.index j) := by
  cases h with
  | call h haround hitems hj =>
      have hlength := h.index_journey.1
      refine ⟨by simp [hlength], ?_⟩
      rw [List.getElem?_append_right (by omega), hlength]
      rfl

theorem journey_of_call (h : Located document (.call i j) front home) :
    ∃ journey before, Located document (.journey i) before journey ∧ before <+: front := by
  cases h with
  | call h haround hitems hj => exact ⟨_, _, h, List.prefix_append _ _⟩

theorem index_of_journey_prefix (h : Located document (.journey i) front home)
    (hpath : front <+: path) : path[3]? = some (.index i) := by
  obtain ⟨hlength, hindex⟩ := h.index_journey
  obtain ⟨rest, rfl⟩ := hpath
  rw [List.getElem?_append_left (by omega), hindex]

theorem index_of_call_prefix (h : Located document (.call i j) front home)
    (hpath : front <+: path) : path[6]? = some (.index j) := by
  obtain ⟨hlength, hindex⟩ := h.index_call
  obtain ⟨rest, rfl⟩ := hpath
  rw [List.getElem?_append_left (by omega), hindex]

end Located

/-! ## What errors are about -/

/-- The error is about the node that the path leads to, and the node is at fault: it has a wrong
type, or in the place that the error names it is missing, blank or no timestamp. -/
inductive DecodeError.At (document : Json) : DecodeError → Path → Prop where
  | wrongType {path : Path} {s : Shape} {node : Json}
      (h : Shape.document.Recognises document path s node) (hwrong : ¬ s.type.Holds node) :
      At document (.wrongType ⟨path, s.type⟩) path
  | noRoot (h : document.node? .siri = none) : At document .noRoot [.key (document.nameOf .siri)]
  | noServiceDelivery {a : String} {siri : Json} (hsiri : document.found? .siri = some (a, siri))
      (h : siri.node? .serviceDelivery = none) :
      At document .noServiceDelivery [.key a, .key (siri.nameOf .serviceDelivery)]
  | missing {place : Place} {front : Path} {home : Json} {f : Field}
      (h : Located document place front home) (hlacks : home.Lacks f) :
      At document (.missing (.field f) place) (front ++ [.key (home.nameOf f)])
  | noValue {place : Place} {front : Path} {home ref : Json} {f : Field} {name : String}
      (h : Located document place front home) (href : home.found? f = some (name, ref))
      (hlacks : ref.Lacks .value) :
      At document (.missing (.valueOf f) place) (front ++ [.key name, .key (ref.nameOf .value)])
  | unreadable {place : Place} {front : Path} {home : Json} {f : Field} {text : String}
      (h : Located document place front home) (htext : home.textAt f = some text)
      (hread : ∀ t, Timestamp.read? text ≠ .ok t) :
      At document (.invalidTimestamp text f place) (front ++ [.key (home.nameOf f)])

theorem DecodeError.At.wrongType_path {document : Json} {m : Mismatch} {path : Path}
    (h : (DecodeError.wrongType m).At document path) : path = m.path := by
  generalize he : DecodeError.wrongType m = e at h
  cases h <;> cases he
  rfl

/-- There are only names on the path, no indices. -/
def Path.HasNamesOnly (path : Path) : Prop := ∀ step ∈ path, ∃ name, step = .key name

theorem Path.HasNamesOnly.not_index {path : Path} (h : path.HasNamesOnly) (k i : Nat) :
    path[k]? ≠ some (.index i) := by
  intro hk
  obtain ⟨name, hname⟩ := h _ (List.mem_of_getElem? hk)
  cases hname

namespace Check

/-- The check is about a field of the object of its place, and the document holds nothing else than
what is checked. -/
inductive Of (home : Json) : Check → Prop where
  | text {f : Field} {place : Place} (hf : (f, .text) ∈ place.shape.fields) :
      Of home (.text f place (home.textAt f))
  | ref {f : Field} {place : Place} (hf : (f, .ref) ∈ place.shape.fields) :
      Of home (.ref f place (home.refAt f))
  | time (f : Field) (place : Place) : Of home (.time f place (home.textAt f))

end Check

/-! ## The second pass -/

namespace Json

theorem exists_item {json x : Json} {f : Field} {i : Nat} (h : (json.itemsAt f)[i]? = some x) :
    ∃ name items, json.found? f = some (name, .array items) ∧ items[i]? = some x := by
  unfold itemsAt at h
  cases hnode : json.node? f with
  | none =>
      rw [hnode] at h
      cases h
  | some node =>
      obtain ⟨name, hfound⟩ := exists_found hnode
      rw [hnode] at h
      cases node with
      | array items => exact ⟨name, items, hfound, h⟩
      | _ => cases h

theorem exists_call {journey call : Json} {j : Nat} (h : journey.calls[j]? = some call) :
    ∃ a around name items, journey.found? .estimatedCalls = some (a, around) ∧
      around.found? .estimatedCall = some (name, .array items) ∧ items[j]? = some call := by
  unfold calls at h
  cases hnode : journey.node? .estimatedCalls with
  | none =>
      rw [hnode] at h
      cases h
  | some around =>
      obtain ⟨a, haround⟩ := exists_found hnode
      rw [hnode] at h
      obtain ⟨name, items, hitems, hj⟩ := exists_item h
      exact ⟨a, around, name, items, haround, hitems, hj⟩

end Json

theorem Shape.Fits.scalar {document home node : Json} {front : Path} {s : Shape} {f : Field}
    (hfits : Shape.document.Fits document) (h : Shape.document.Recognises document front s home)
    (hf : (f, .text) ∈ s.fields) (hnode : home.node? f = some node) : node.scalar?.isSome := by
  obtain ⟨name, hfound⟩ := Json.exists_found hnode
  have hrecognised : s.Recognises home [.key name] .text node := .of_found hf hfound (.here _ _)
  exact hfits _ _ _ (h.append hrecognised)

namespace Check

/-- The error of a check that fails is about a node in the object of its place. -/
theorem at_of_fails {document home : Json} {front : Path} {c : Check}
    (hfits : Shape.document.Fits document) (hhome : Located document c.place front home)
    (hof : c.Of home) (hfails : c.passes = false) :
    ∃ inner : Path, inner.HasNamesOnly ∧ c.error.At document (front ++ inner) := by
  cases hof with
  | @text f place hf =>
      refine ⟨[.key (home.nameOf f)], by simp [Path.HasNamesOnly], .missing hhome ?_⟩
      exact Json.lacks_of_fails (fun node hnode => hfits.scalar hhome.recognised hf hnode) hfails
  | @ref f place hf =>
      cases hnode : home.node? f with
      | none =>
          refine ⟨[.key (home.nameOf f)], by simp [Path.HasNamesOnly], ?_⟩
          have hgiven : home.refAt f = none := by
            unfold Json.refAt
            rw [hnode, Option.map_none]
          rw [hgiven]
          exact .missing hhome (Or.inl hnode)
      | some ref =>
          obtain ⟨name, hfound⟩ := Json.exists_found hnode
          refine ⟨[.key name, .key (ref.nameOf .value)], by simp [Path.HasNamesOnly], ?_⟩
          have hgiven : home.refAt f = some (ref.textAt .value) := by
            unfold Json.refAt
            rw [hnode, Option.map_some]
          rw [hgiven] at hfails ⊢
          have href : Shape.document.Recognises document (front ++ [.key name]) .ref ref :=
            hhome.recognised.append (.of_found hf hfound (.here _ _))
          refine .noValue hhome hfound (Json.lacks_of_fails ?_ hfails)
          exact fun node hvalue => hfits.scalar href List.mem_cons_self hvalue
  | time f place =>
      refine ⟨[.key (home.nameOf f)], by simp [Path.HasNamesOnly], ?_⟩
      cases htext : home.textAt f with
      | none =>
          -- a time that is missing passes
          rw [htext] at hfails
          cases hfails
      | some text =>
          rw [htext] at hfails
          exact .unreadable hhome htext (time_fails_iff.mp hfails)

/-- Every check of a delivery is about the object of its place. -/
theorem exists_located {document delivery : Json} (hdelivery : document.delivery? = some delivery)
    {c : Check} (hc : c ∈ delivery.deliveryChecks) :
    ∃ front home, Located document c.place front home ∧ c.Of home := by
  obtain ⟨siri, hsiri, hservice⟩ := Option.bind_eq_some_iff.mp hdelivery
  obtain ⟨a, ha⟩ := Json.exists_found hsiri
  obtain ⟨b, hb⟩ := Json.exists_found hservice
  have hhome : Located document .delivery [.key a, .key b] delivery := .delivery ha hb
  unfold Json.deliveryChecks at hc
  rcases List.mem_cons.mp hc with rfl | hc
  · exact ⟨_, _, hhome, .text (by simp [Place.shape, Shape.delivery, Shape.fields])⟩
  rcases List.mem_cons.mp hc with rfl | hc
  · exact ⟨_, _, hhome, .time _ _⟩
  rcases List.mem_cons.mp hc with rfl | hc
  · exact ⟨_, _, hhome, .text (by simp [Place.shape, Shape.delivery, Shape.fields])⟩
  obtain ⟨⟨journey, i⟩, hjourney, hc⟩ := List.mem_flatMap.mp hc
  obtain ⟨name, items, hitems, hi⟩ :=
    Json.exists_item (List.mk_mem_zipIdx_iff_getElem?.mp hjourney)
  have hhome : Located document (.journey i) _ journey := .journey hhome hitems hi
  unfold Json.journeyChecks at hc
  simp only [List.mem_cons] at hc
  rcases hc with rfl | rfl | rfl | rfl | rfl | hc
  · exact ⟨_, _, hhome, .time _ _⟩
  iterate 4 exact ⟨_, _, hhome, .ref (by simp [Place.shape, Shape.journey, Shape.fields])⟩
  obtain ⟨⟨call, j⟩, hcall, hc⟩ := List.mem_flatMap.mp hc
  obtain ⟨a, around, name, items, haround, hitems, hj⟩ :=
    Json.exists_call (List.mk_mem_zipIdx_iff_getElem?.mp hcall)
  have hhome : Located document (.call i j) _ call := .call hhome haround hitems hj
  unfold Json.callChecks at hc
  simp only [List.mem_cons, List.not_mem_nil, or_false] at hc
  rcases hc with rfl | rfl | rfl | rfl | rfl
  · exact ⟨_, _, hhome, .ref (by simp [Place.shape, Shape.call, Shape.fields])⟩
  iterate 4 exact ⟨_, _, hhome, .time _ _⟩

end Check

end TimetableFeed
