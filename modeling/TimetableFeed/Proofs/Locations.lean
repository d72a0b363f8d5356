import TimetableFeed.Proofs.Places

/-!
# Where errors are

An error blames a node by the index of a journey and that of a call. The node has a place of its own
in the document: it lies inside a journey if the path to it begins with the path to that journey.
Both passes tell the indices of the journey and the call that the node lies in, and none if it lies
in none, with one exception: the first pass knows an array by its name in camel case only, although
it reads the other spelling as well.

Main definitions: `Inside`, `Blame.TrueOf`. Main statement: `blame_locates_node`.
-/

namespace TimetableFeed

/-! ## Indices -/

/-- The index that has been found is that of the one element with the property; none has been found
if there is no such element. -/
def Tells (found : Option Int) (P : Nat → Prop) : Prop :=
  (∀ i : Nat, found = some (i : Int) ↔ P i) ∧ (found = none ↔ ∀ i, ¬ P i)

theorem tells_some {P : Nat → Prop} {i : Nat} (hi : P i) (hunique : ∀ j, P j → j = i) :
    Tells (some (i : Int)) P := by
  constructor
  · intro j
    constructor
    · intro hj
      rw [← Int.ofNat_inj.mp (Option.some.inj hj)]
      exact hi
    · intro hj
      rw [hunique j hj]
  · constructor
    · intro hnone
      cases hnone
    · intro hnone
      exact absurd hi (hnone i)

theorem tells_none {P : Nat → Prop} (h : ∀ i, ¬ P i) : Tells none P := by
  constructor
  · intro i
    constructor
    · intro hi
      cases hi
    · intro hi
      exact absurd hi (h i)
  · exact ⟨fun _ => h, fun _ => rfl⟩

/-- The path leads to the object of the place, or into it. -/
def Inside (document : Json) (place : Place) (path : Path) : Prop :=
  ∃ front home, Located document place front home ∧ front <+: path

/-- The same, and the array of the place stands under its name in camel case. -/
def InsideNamed (document : Json) (place : Place) (f : Field) (i : Nat) (path : Path) : Prop :=
  ∃ front home, Located document place front home ∧ Path.itemOf f i <:+ front ∧ front <+: path

theorem InsideNamed.inside {document : Json} {place : Place} {f : Field} {i : Nat} {path : Path}
    (h : InsideNamed document place f i path) : Inside document place path := by
  obtain ⟨front, home, hlocated, -, hpath⟩ := h
  exact ⟨front, home, hlocated, hpath⟩

namespace Inside

variable {document : Json} {place : Place} {path : Path} {i i' j j' : Nat}

theorem journey_unique (h : Inside document (.journey i) path)
    (h' : Inside document (.journey i') path) : i' = i := by
  obtain ⟨front, home, hlocated, hpath⟩ := h
  obtain ⟨front', home', hlocated', hpath'⟩ := h'
  have hindex := hlocated.index_of_journey_prefix hpath
  rw [hlocated'.index_of_journey_prefix hpath'] at hindex
  cases hindex
  rfl

theorem call_unique (h : Inside document (.call i j) path)
    (h' : Inside document (.call i' j') path) : j' = j := by
  obtain ⟨front, home, hlocated, hpath⟩ := h
  obtain ⟨front', home', hlocated', hpath'⟩ := h'
  have hindex := hlocated.index_of_call_prefix hpath
  rw [hlocated'.index_of_call_prefix hpath'] at hindex
  cases hindex
  rfl

theorem journey_of_call (h : Inside document (.call i j) path) :
    Inside document (.journey i) path := by
  obtain ⟨front, home, hlocated, hpath⟩ := h
  obtain ⟨journey, before, hjourney, hbefore⟩ := hlocated.journey_of_call
  exact ⟨before, journey, hjourney, hbefore.trans hpath⟩

/-- What lies in the object of a place, and in no array inside it, lies in no other element than
that of the place. -/
theorem tells {home : Json} {front inner : Path} (h : Located document place front home)
    (hinner : inner.HasNamesOnly) :
    Tells (place.journey?.map Int.ofNat) (fun i => Inside document (.journey i) (front ++ inner)) ∧
      Tells (place.call?.map Int.ofNat)
        (fun j => ∃ i, Inside document (.call i j) (front ++ inner)) := by
  have hself : Inside document place (front ++ inner) := ⟨front, home, h, List.prefix_append _ _⟩
  -- an index behind the path to the object would stand among the names
  have hbehind : ∀ k i, front.length ≤ k → (front ++ inner)[k]? ≠ some (.index i) := by
    intro k i hk
    rw [List.getElem?_append_right hk]
    exact hinner.not_index _ i
  have hnocall : front.length ≤ 6 → ∀ j, ¬ ∃ i, Inside document (.call i j) (front ++ inner) := by
    rintro hlength j ⟨i, before, call, hcall, hpath⟩
    exact hbehind 6 j hlength (hcall.index_of_call_prefix hpath)
  cases place with
  | delivery =>
      have hlength := h.length_delivery
      refine ⟨tells_none ?_, tells_none (hnocall (by omega))⟩
      rintro i ⟨before, journey, hjourney, hpath⟩
      exact hbehind 3 i (by omega) (hjourney.index_of_journey_prefix hpath)
  | journey i =>
      have hlength := h.index_journey.1
      refine ⟨tells_some hself fun i' hi' => ?_, tells_none (hnocall (by omega))⟩
      exact hself.journey_unique hi'
  | call i j =>
      refine ⟨tells_some hself.journey_of_call fun i' hi' => ?_, tells_some ⟨i, hself⟩ ?_⟩
      · exact hself.journey_of_call.journey_unique hi'
      · rintro j' ⟨i', hi'⟩
        exact hself.call_unique hi'

end Inside

/-! ## The first pass -/

namespace Shape

variable {document json home : Json} {front : Path} {inner : List (Field × Shape)} {g : Field}

theorem mem_declared_of_mem (hg : g ∈ inner.map (·.1)) : g ∈ (Shape.object inner).declared := by
  obtain ⟨⟨f, s⟩, hf, rfl⟩ := List.mem_map.mp hg
  exact (mem_declaredIn hf).1

/-- The way to an object with a field goes through fields inside which that one is declared. -/
theorem Recognises.descend {fields : List (Field × Shape)}
    (h : (Shape.object fields).Recognises json front (.object inner) home)
    (hg : g ∈ inner.map (·.1)) :
    (front = [] ∧ inner = fields ∧ home = json) ∨
      ∃ f s name x rest, (f, s) ∈ fields ∧ g ∈ s.declared ∧ json.found? f = some (name, x) ∧
        front = .key name :: rest ∧ s.Recognises x rest (.object inner) home := by
  cases front with
  | nil =>
      cases h with
      | here => exact Or.inl ⟨rfl, rfl, rfl⟩
  | cons step rest =>
      obtain ⟨f, s, name, x, hf, hx, rfl, hrest⟩ := h.key_cases
      have hdeclared : g ∈ s.declared := hrest.declared (mem_declared_of_mem hg)
      exact Or.inr ⟨f, s, name, x, rest, hf, hdeclared, hx, rfl, hrest⟩

theorem Recognises.descend_item {item : Shape}
    (h : (Shape.array item).Recognises json front (.object inner) home) :
    ∃ items i x rest, json = .array items ∧ items[i]? = some x ∧ front = .index i :: rest ∧
      item.Recognises x rest (.object inner) home := by
  cases front with
  | nil => cases h
  | cons step rest =>
      obtain ⟨items, i, x, rfl, hx, rfl, hrest⟩ := h.index_cases
      exact ⟨items, i, x, rest, rfl, hx, rfl, hrest⟩

/-- The way to any but the two outermost objects goes through the service delivery. -/
theorem Recognises.through_delivery
    (h : Shape.document.Recognises document front (.object inner) home)
    (hg : g ∈ inner.map (·.1)) (hroot : g ≠ .siri) (hservice : g ≠ .serviceDelivery) :
    ∃ before rest delivery, Located document .delivery before delivery ∧ front = before ++ rest ∧
      Shape.delivery.Recognises delivery rest (.object inner) home := by
  rcases h.descend hg with ⟨-, rfl, -⟩ | ⟨f, s, a, siri, rest, hf, -, ha, rfl, h⟩
  · exact absurd (List.mem_singleton.mp hg) hroot
  cases List.mem_singleton.mp hf
  rcases h.descend hg with ⟨-, rfl, -⟩ | ⟨f, s, b, delivery, rest, hf, -, hb, rfl, h⟩
  · exact absurd (List.mem_singleton.mp hg) hservice
  cases List.mem_singleton.mp hf
  exact ⟨_, rest, delivery, .delivery ha hb, rfl, h⟩

/-- Only the delivery has a field for the journeys. -/
theorem Recognises.located_delivery
    (h : Shape.document.Recognises document front (.object inner) home)
    (hg : .estimatedTimetableDelivery ∈ inner.map (·.1)) :
    Located document .delivery front home := by
  obtain ⟨before, rest, delivery, hdelivery, rfl, hrest⟩ :=
    h.through_delivery hg (by decide) (by decide)
  rcases hrest.descend hg with ⟨rfl, -, rfl⟩ | ⟨f, s, name, x, rest, hf, hdeclared, -⟩
  · rw [List.append_nil]
    exact hdelivery
  · -- inside its fields there is no other one of this name
    exfalso
    simp only [List.mem_cons, List.not_mem_nil, or_false, Prod.mk.injEq] at hf
    rcases hf with ⟨-, rfl⟩ | ⟨-, rfl⟩ | ⟨-, rfl⟩
    all_goals exact absurd hdeclared (by decide)

/-- Only the object around the calls of a journey has a field for them. -/
theorem Recognises.located_calls
    (h : Shape.document.Recognises document front (.object inner) home)
    (hg : .estimatedCall ∈ inner.map (·.1)) :
    ∃ i before journey a, Located document (.journey i) before journey ∧
      journey.found? .estimatedCalls = some (a, home) ∧ front = before ++ [.key a] := by
  obtain ⟨before, rest, delivery, hdelivery, rfl, hrest⟩ :=
    h.through_delivery hg (by decide) (by decide)
  rcases hrest.descend hg with ⟨-, rfl, -⟩ | ⟨f, s, name, x, rest, hf, hin, hname, rfl, harray⟩
  · exact absurd hg (by decide)
  simp only [List.mem_cons, List.not_mem_nil, or_false, Prod.mk.injEq] at hf
  rcases hf with ⟨-, rfl⟩ | ⟨-, rfl⟩ | ⟨rfl, rfl⟩
  · exact absurd hin (by decide)
  · exact absurd hin (by decide)
  obtain ⟨items, i, journey, rest, rfl, hi, rfl, hjourney⟩ := harray.descend_item
  have hlocated := Located.journey hdelivery hname hi
  rcases hjourney.descend hg with ⟨-, rfl, -⟩ | ⟨f, s, a, around, rest, hf, hin, ha, rfl, haround⟩
  · exact absurd hg (by decide)
  -- of the fields of a journey only the last one leads to calls
  have hcalls : f = .estimatedCalls ∧ s = .calls := by
    simp only [List.mem_cons, List.not_mem_nil, or_false, Prod.mk.injEq] at hf
    rcases hf with ⟨-, rfl⟩ | ⟨-, rfl⟩ | ⟨-, rfl⟩ | ⟨-, rfl⟩ | ⟨-, rfl⟩ | ⟨-, rfl⟩ | ⟨-, rfl⟩ | hf
    iterate 7 exact absurd hin (by decide)
    exact hf
  obtain ⟨rfl, rfl⟩ := hcalls
  rcases haround.descend hg with ⟨rfl, -, rfl⟩ | ⟨f, s, name, x, rest, hf, hin, -⟩
  · exact ⟨i, _, journey, a, hlocated, ha, by simp⟩
  · cases List.mem_singleton.mp hf
    exact absurd hin (by decide)

/-- Before the name of the journeys a path leads to the delivery, which holds them in an array. -/
theorem Recognises.before_journeys {t : Shape} {node : Json} {before rest : Path} {i : Nat}
    (h : Shape.document.Recognises document
      (before ++ Path.itemOf .estimatedTimetableDelivery i ++ rest) t node) :
    ∃ delivery items journey, Located document .delivery before delivery ∧
      delivery.found? .estimatedTimetableDelivery =
        some (Field.estimatedTimetableDelivery.camel, .array items) ∧ items[i]? = some journey := by
  obtain ⟨u, mid, hfront, hmid⟩ := h.split before _ (List.append_assoc _ _ _)
  obtain ⟨inner, g, item, items, x, rfl, hg, hitems, hi⟩ := hmid.item_cases
  obtain rfl := Json.eq_of_found_camel hitems
  exact ⟨mid, items, x, hfront.located_delivery (List.mem_map.mpr ⟨_, hg, rfl⟩), hitems, hi⟩

/-- A path that enters an array under the name of the journeys leads into a journey. -/
theorem Recognises.inside_journey {t : Shape} {node : Json} {before rest : Path} {i : Nat}
    (h : Shape.document.Recognises document
      (before ++ Path.itemOf .estimatedTimetableDelivery i ++ rest) t node) :
    InsideNamed document (.journey i) .estimatedTimetableDelivery i
      (before ++ Path.itemOf .estimatedTimetableDelivery i ++ rest) := by
  obtain ⟨delivery, items, journey, hdelivery, hitems, hi⟩ := h.before_journeys
  refine ⟨_, journey, .journey hdelivery hitems hi, List.suffix_append _ _, ?_⟩
  exact List.prefix_append _ _

theorem Recognises.inside_call {t : Shape} {node : Json} {before rest : Path} {j : Nat}
    (h : Shape.document.Recognises document
      (before ++ Path.itemOf .estimatedCall j ++ rest) t node) :
    ∃ i, InsideNamed document (.call i j) .estimatedCall j
      (before ++ Path.itemOf .estimatedCall j ++ rest) := by
  obtain ⟨u, mid, hfront, hmid⟩ := h.split before _ (List.append_assoc _ _ _)
  obtain ⟨inner, g, item, items, x, rfl, hg, hitems, hj⟩ := hmid.item_cases
  obtain rfl := Json.eq_of_found_camel hitems
  obtain ⟨i, front, journey, a, hjourney, ha, rfl⟩ :=
    hfront.located_calls (List.mem_map.mpr ⟨_, hg, rfl⟩)
  refine ⟨i, _, x, .call hjourney ha hitems hj, ⟨front ++ [.key a], ?_⟩, ?_⟩
  · rw [List.append_assoc]
    rfl
  · refine ⟨rest, ?_⟩
    simp [Path.itemOf]

end Shape

theorem InsideNamed.enters {document : Json} {place : Place} {f : Field} {i : Nat} {path : Path}
    (h : InsideNamed document place f i path) : path.Enters f := by
  obtain ⟨front, home, -, ⟨before, rfl⟩, rest, rfl⟩ := h
  exact ⟨before, rest, i, rfl⟩

/-- The first pass tells the indices of the elements whose arrays are named in camel case. -/
theorem wrongType_tells {document node : Json} {m : Mismatch} {t : Shape}
    (h : Shape.document.Recognises document m.path t node) :
    Tells (DecodeError.wrongType m).blame.journey?
        (fun i => InsideNamed document (.journey i) .estimatedTimetableDelivery i m.path) ∧
      Tells (DecodeError.wrongType m).blame.call?
        (fun j => ∃ i, InsideNamed document (.call i j) .estimatedCall j m.path) := by
  obtain ⟨hfield, hcall⟩ := wrongType_blame m
  constructor
  · rcases hfield with ⟨hnot, hjourney, -⟩ | ⟨i, inner, ⟨⟨before, hpath⟩, -⟩, hjourney, -⟩
    · rw [hjourney]
      exact tells_none fun i hi => hnot hi.enters
    · rw [hjourney]
      have hself : InsideNamed document (.journey i) .estimatedTimetableDelivery i m.path := by
        rw [hpath] at h ⊢
        exact h.inside_journey
      exact tells_some hself fun i' hi' => hself.inside.journey_unique hi'.inside
  · rcases hcall with ⟨hnot, hcall⟩ | ⟨j, inner, ⟨⟨before, hpath⟩, -⟩, hcall⟩
    · rw [hcall]
      refine tells_none ?_
      rintro j ⟨i, hi⟩
      exact hnot hi.enters
    · rw [hcall]
      have hself : ∃ i, InsideNamed document (.call i j) .estimatedCall j m.path := by
        rw [hpath] at h ⊢
        exact h.inside_call
      refine tells_some hself ?_
      rintro j' ⟨i', hi'⟩
      obtain ⟨i, hi⟩ := hself
      exact hi.inside.call_unique hi'.inside

/-! ## Both passes -/

/-- All names on the path are in camel case. -/
def Path.InCamel (path : Path) : Prop := ∀ name, .key name ∈ path → ∃ f : Field, name = f.camel

@[simp]
theorem Path.inCamel_nil : Path.InCamel [] := by
  rintro name ⟨⟩

@[simp]
theorem Path.inCamel_index (i : Nat) (path : Path) :
    Path.InCamel (.index i :: path) ↔ path.InCamel := by
  simp [InCamel]

@[simp]
theorem Path.inCamel_camel (f : Field) (path : Path) :
    Path.InCamel (.key f.camel :: path) ↔ path.InCamel := by
  simp [InCamel]

/-- The path leads to the object of the place or into it, in a way that the error can tell: one of a
wrong type knows the array of the place by its name in camel case only. -/
def DecodeError.Finds (e : DecodeError) (document : Json) (place : Place) (f : Field) (i : Nat)
    (path : Path) : Prop :=
  match e with
  | .wrongType _ => InsideNamed document place f i path
  | _ => Inside document place path

/-- The indices are those of the journey and the call that the node at the end of the path lies in,
and there are none if it lies in none. -/
structure Blame.TrueOf (b : Blame) (document : Json) (path : Path) : Prop where
  journey : Tells b.journey? fun i => Inside document (.journey i) path
  call : Tells b.call? fun j => ∃ i, Inside document (.call i j) path
  nested : b.call? ≠ none → b.journey? ≠ none

theorem Blame.trueOf_of_tells {b : Blame} {document : Json} {path : Path}
    (hjourney : Tells b.journey? fun i => Inside document (.journey i) path)
    (hcall : Tells b.call? fun j => ∃ i, Inside document (.call i j) path) :
    b.TrueOf document path := by
  refine ⟨hjourney, hcall, fun hsome hnone => hsome ?_⟩
  rw [hcall.2]
  rintro j ⟨i, hi⟩
  exact hjourney.2.mp hnone i hi.journey_of_call

theorem Json.found_in_camel {json x : Json} {f : Field} {name : String} {path : Path}
    (hcamel : path.InCamel) (hfound : json.found? f = some (name, x)) (hmem : .key name ∈ path) :
    name = f.camel := by
  obtain ⟨g, rfl⟩ := hcamel name hmem
  rw [Json.eq_of_found_camel hfound]

theorem Inside.named_journey {document : Json} {path : Path} {i : Nat} (hcamel : path.InCamel)
    (h : Inside document (.journey i) path) :
    InsideNamed document (.journey i) .estimatedTimetableDelivery i path := by
  obtain ⟨front, home, hlocated, hpath⟩ := h
  refine ⟨front, home, hlocated, ?_, hpath⟩
  cases hlocated with
  | journey h hitems hi =>
      rw [Json.found_in_camel hcamel hitems (hpath.subset (by simp))]
      exact List.suffix_append _ _

theorem Inside.named_call {document : Json} {path : Path} {i j : Nat} (hcamel : path.InCamel)
    (h : Inside document (.call i j) path) :
    InsideNamed document (.call i j) .estimatedCall j path := by
  obtain ⟨front, home, hlocated, hpath⟩ := h
  refine ⟨front, home, hlocated, ?_, hpath⟩
  cases hlocated with
  | @call before journey around call a name items i j h haround hitems hj =>
      rw [Json.found_in_camel hcamel hitems (hpath.subset (by simp))]
      refine ⟨before ++ [.key a], ?_⟩
      rw [List.append_assoc]
      rfl

namespace DecodeError

variable {document : Json} {e : DecodeError} {path : Path}

/-- What an error finds of the second pass, or of a document in camel case, is all there is. -/
theorem finds_iff_inside {place : Place} {f : Field} {i : Nat}
    (hnamed : ∀ m, e = .wrongType m → Inside document place path →
      InsideNamed document place f i path) :
    e.Finds document place f i path ↔ Inside document place path := by
  cases e with
  | wrongType m =>
      constructor
      · exact InsideNamed.inside
      · exact hnamed m rfl
  | _ => exact Iff.rfl

/-- Both passes tell what they can find, so all of it where all names are in camel case. -/
theorem trueOf_of_finds
    (hjourney : Tells e.blame.journey? fun i =>
      e.Finds document (.journey i) .estimatedTimetableDelivery i path)
    (hcall : Tells e.blame.call? fun j => ∃ i, e.Finds document (.call i j) .estimatedCall j path)
    (hcamel : ∀ m, e = .wrongType m → path.InCamel) : e.blame.TrueOf document path := by
  have hjourneys : ∀ i, e.Finds document (.journey i) .estimatedTimetableDelivery i path ↔
      Inside document (.journey i) path := fun i =>
    finds_iff_inside fun m hm => Inside.named_journey (hcamel m hm)
  have hcalls : ∀ i j, e.Finds document (.call i j) .estimatedCall j path ↔
      Inside document (.call i j) path := fun i j =>
    finds_iff_inside fun m hm => Inside.named_call (hcamel m hm)
  simp only [hjourneys] at hjourney
  simp only [hcalls] at hcall
  exact Blame.trueOf_of_tells hjourney hcall

/-- An error about what is missing around the journeys is inside none of them. -/
theorem tells_outside (hlength : path.length ≤ 2) :
    Tells none (fun i => Inside document (.journey i) path) ∧
      Tells none (fun j => ∃ i, Inside document (.call i j) path) := by
  have hnone : ∀ i, ¬ Inside document (.journey i) path := by
    rintro i ⟨front, journey, hjourney, hpath⟩
    have hfront := hpath.length_le
    rw [hjourney.index_journey.1] at hfront
    omega
  refine ⟨tells_none hnone, tells_none ?_⟩
  rintro j ⟨i, hi⟩
  exact hnone i hi.journey_of_call

/-- The error of a check tells the journey and the call of the object that the check is about. -/
theorem check_tells {c : Check} {front inner : Path} {home : Json}
    (hhome : Located document c.place front home) (hinner : inner.HasNamesOnly) :
    Tells c.error.blame.journey?
        (fun i => c.error.Finds document (.journey i) .estimatedTimetableDelivery i
          (front ++ inner)) ∧
      Tells c.error.blame.call?
        (fun j => ∃ i, c.error.Finds document (.call i j) .estimatedCall j (front ++ inner)) := by
  have hfinds : ∀ place f i, c.error.Finds document place f i (front ++ inner) ↔
      Inside document place (front ++ inner) := by
    intro place f i
    refine finds_iff_inside fun m hm => ?_
    -- no check is about a type
    rcases c with _ | ⟨f, place, _ | _⟩ | _ <;> cases hm
  rw [Check.error_blame]
  simp only [hfinds]
  exact Inside.tells hhome hinner

end DecodeError

/-- **Where errors are.** An error is about one node of the document, and it tells the index of the
journey and of the call that the node lies in, as far as their arrays stand under the names by which
the pass that reports it knows them. These are all names for the second pass, and those in camel
case for the first one; where the path has no other names, the indices are true of the document. -/
theorem blame_locates_node {bytes : List UInt8} {json : Json} {e : DecodeError}
    (h : Json.read? bodyLimits bytes = .ok json) (he : decode? bytes = .error e) :
    ∃ path, e.At json path ∧
      Tells e.blame.journey?
        (fun i => e.Finds json (.journey i) .estimatedTimetableDelivery i path) ∧
      Tells e.blame.call? (fun j => ∃ i, e.Finds json (.call i j) .estimatedCall j path) ∧
      ((∀ m, e = .wrongType m → path.InCamel) → e.blame.TrueOf json path) := by
  suffices hfound : ∃ path, e.At json path ∧
      Tells e.blame.journey?
        (fun i => e.Finds json (.journey i) .estimatedTimetableDelivery i path) ∧
      Tells e.blame.call? (fun j => ∃ i, e.Finds json (.call i j) .estimatedCall j path) by
    obtain ⟨path, hat, hjourney, hcall⟩ := hfound
    exact ⟨path, hat, hjourney, hcall, DecodeError.trueOf_of_finds hjourney hcall⟩
  have hhead := (decode_fails_iff h e).mp he
  by_cases hfits : Shape.document.Fits json
  · rw [Json.faults_of_fits hfits] at hhead
    cases hsiri : json.node? .siri with
    | none =>
        simp only [Json.contentFaults, hsiri] at hhead
        cases hhead
        exact ⟨_, .noRoot hsiri, DecodeError.tells_outside (by simp)⟩
    | some siri =>
        obtain ⟨a, ha⟩ := Json.exists_found hsiri
        cases hservice : siri.node? .serviceDelivery with
        | none =>
            simp only [Json.contentFaults, hsiri, hservice] at hhead
            cases hhead
            exact ⟨_, .noServiceDelivery ha hservice, DecodeError.tells_outside (by simp)⟩
        | some delivery =>
            have hdelivery : json.delivery? = some delivery :=
              Option.bind_eq_some_iff.mpr ⟨siri, hsiri, hservice⟩
            rw [Json.contentFaults_of_delivery hdelivery] at hhead
            obtain ⟨before, c, after, hchecks, -, hfails, rfl⟩ := Check.exists_first hhead
            have hmem : c ∈ delivery.deliveryChecks := by
              rw [hchecks]
              simp
            obtain ⟨front, home, hhome, hof⟩ := Check.exists_located hdelivery hmem
            obtain ⟨inner, hinner, hat⟩ := Check.at_of_fails hfits hhome hof hfails
            exact ⟨_, hat, DecodeError.check_tells hhome hinner⟩
  · obtain ⟨m, rest, hlist, hfirst⟩ := Shape.firstMisfit_of_not_fits hfits
    rw [Json.faults_of_misfits hlist] at hhead
    cases hhead
    obtain ⟨path, s, node, hnode, hwrong, rfl⟩ := hfirst.misfit
    exact ⟨path, .wrongType hnode hwrong, wrongType_tells hnode⟩

/-- Two journeys, the first one empty; the only call of the second one has a text for a reference.
The array of the journeys has its name in either spelling. -/
def textRefFeed (spelling : Spelling) : Json :=
  .object [("Siri", .object [("serviceDelivery", .object [
    (Field.estimatedTimetableDelivery.name spelling, .array [.object [],
      .object [("estimatedCalls", .object [("estimatedCall",
        .array [.object [("stopPointRef", .text "S")]])])]])])])]

def textRefPath (spelling : Spelling) : Path :=
  [.key Field.siri.camel, .key Field.serviceDelivery.camel,
    .key (Field.estimatedTimetableDelivery.name spelling), .index 1,
    .key Field.estimatedCalls.camel, .key Field.estimatedCall.camel, .index 0,
    .key Field.stopPointRef.camel]

set_option maxRecDepth 10000 in
theorem blame_locates_node_nested :
    decode? (printed (textRefFeed .camel)) = .error (.wrongType ⟨textRefPath .camel, .object⟩) ∧
      ∃ path, (DecodeError.wrongType ⟨textRefPath .camel, .object⟩).At (textRefFeed .camel) path ∧
        Blame.TrueOf ⟨.malformedEnvelope, some "estimatedCalls.estimatedCall[0].stopPointRef",
          some 1, some 0⟩ (textRefFeed .camel) path := by
  have hread : Json.read? bodyLimits (printed (textRefFeed .camel)) = .ok (textRefFeed .camel) := by
    rfl
  have hfails : decode? (printed (textRefFeed .camel)) =
      .error (.wrongType ⟨textRefPath .camel, .object⟩) := by
    rw [decode?_eq hread]
    rfl
  obtain ⟨path, hat, -, -, htrue⟩ := blame_locates_node hread hfails
  refine ⟨hfails, path, hat, htrue fun m hm => ?_⟩
  rw [hat.wrongType_path]
  simp [textRefPath, Field.name]

set_option maxRecDepth 10000 in
/-- The first pass reads journeys under their name in snake case, but does not tell in which one it
has found an error; of the call it tells the index. -/
theorem blame_misses_snake_journey :
    ∃ e : DecodeError, decode? (printed (textRefFeed .snake)) = .error e ∧
      e.blame.journey? = none ∧ e.blame.call? = some 0 ∧
      ∀ path, e.At (textRefFeed .snake) path →
        Inside (textRefFeed .snake) (.call 1 0) path ∧
          ¬ e.blame.TrueOf (textRefFeed .snake) path := by
  have hread : Json.read? bodyLimits (printed (textRefFeed .snake)) = .ok (textRefFeed .snake) := by
    rfl
  refine ⟨.wrongType ⟨textRefPath .snake, .object⟩, ?_, rfl, rfl, ?_⟩
  · rw [decode?_eq hread]
    rfl
  · intro path hat
    constructor
    · have hdelivery : Located (textRefFeed .snake) .delivery _ _ := .delivery rfl rfl
      have hjourney : Located _ (.journey 1) _ _ := .journey hdelivery rfl rfl
      have hcall : Located _ (.call 1 0) _ _ := .call hjourney rfl rfl rfl
      rw [hat.wrongType_path]
      exact ⟨_, _, hcall, [.key Field.stopPointRef.camel], rfl⟩
    · intro htrue
      exact htrue.nested (by decide) rfl

end TimetableFeed
