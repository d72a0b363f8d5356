import TimetableFeed.Proofs.Drafts

/-!
# Readings of documents

What of a document its draft depends on: below each recognised node only the type, the text, the
items, and the fields with the names they stand under. Two documents that have all this in common
have one draft, or one first mismatch.

Main definition: `Shape.SameReading`. Main statement: `Draft.document_same`.
-/

namespace TimetableFeed

/-! ## Values under a key -/

/-- A new value under a key: either it is what is read in the field, as the old one was, or what is
read there is another value. -/
theorem Json.member?_replace {key : String} {x x' : Json} (hnull : x.isNull = false)
    (hnull' : x'.isNull = false) (f : Field) (before after : Members Json) :
    (member? (before ++ (key, x) :: after) f = some (key, x) ∧
      member? (before ++ (key, x') :: after) f = some (key, x')) ∨
    member? (before ++ (key, x) :: after) f = member? (before ++ (key, x') :: after) f := by
  unfold member?
  rcases Field.find?_replace f key x x' before after with ⟨hfound, hfound'⟩ | heq
  · left
    rw [hfound, hfound', Option.filter_some_pos (by simp [hnull]),
      Option.filter_some_pos (by simp [hnull'])]
    exact ⟨rfl, rfl⟩
  · right
    rw [heq]

namespace Shape

theorem mem_of_lookup {fields : List (Field × Shape)} {f : Field} {s : Shape}
    (h : fields.lookup f = some s) : (f, s) ∈ fields := by
  obtain ⟨before, after, rfl, -⟩ := List.lookup_eq_some_iff.mp h
  exact List.mem_append_right _ List.mem_cons_self

/-! ## Nodes that give the same reading -/

/-- Nothing that is read in a node of the shape differs. -/
inductive SameReading : Shape → Json → Json → Prop where
  | same (s : Shape) (json : Json) : SameReading s json json
  | wrong {s : Shape} {json json' : Json} (h : ¬ s.type.Holds json) (h' : ¬ s.type.Holds json') :
      SameReading s json json'
  | text {t : String} {json json' : Json} (h : json.scalar? = some t)
      (h' : json'.scalar? = some t) : SameReading .text json json'
  | array {s : Shape} {items items' : List Json} (hlength : items.length = items'.length)
      (h : ∀ (i : Nat) (hi : i < items.length) (hi' : i < items'.length),
        SameReading s items[i] items'[i]) :
      SameReading (.array s) (.array items) (.array items')
  | object {fields : List (Field × Shape)} {ms ms' : Members Json}
      (hkeys : ∀ d ∈ fields,
        (Json.member? ms d.1).map (·.1) = (Json.member? ms' d.1).map (·.1))
      (h : ∀ f s key x x', fields.lookup f = some s → Json.member? ms f = some (key, x) →
        Json.member? ms' f = some (key, x') → SameReading s x x') :
      SameReading (.object fields) (.object ms) (.object ms')

/-- A new item, if it reads like the old one, leaves the reading of an array the same. -/
theorem SameReading.of_item {s : Shape} {x x' : Json} (h : s.SameReading x x')
    (before after : List Json) :
    (Shape.array s).SameReading (.array (before ++ x :: after))
      (.array (before ++ x' :: after)) := by
  have hsame : ∀ items, List.Forall₂ s.SameReading items items :=
    fun _ => List.forall₂_same.mpr fun _ _ => .same s _
  obtain ⟨hlength, hitems⟩ := List.forall₂_iff_get.mp
    (List.rel_append (hsame before) (.cons h (hsame after)))
  exact .array hlength hitems

/-- A new value under a key leaves the reading of an object the same, if it reads like the old one
in each field that is found under the key. -/
theorem SameReading.of_member {fields : List (Field × Shape)} {key : String} {x x' : Json}
    (hnull : x.isNull = false) (hnull' : x'.isNull = false) {before after : Members Json}
    (h : ∀ f s, fields.lookup f = some s →
      Json.member? (before ++ (key, x) :: after) f = some (key, x) → s.SameReading x x') :
    (Shape.object fields).SameReading (.object (before ++ (key, x) :: after))
      (.object (before ++ (key, x') :: after)) := by
  refine .object ?_ ?_
  · intro d _
    rcases Json.member?_replace hnull hnull' d.1 before after with ⟨hx, hx'⟩ | heq
    · rw [hx, hx', Option.map_some, Option.map_some]
    · rw [heq]
  · intro f s name y y' hf hy hy'
    rcases Json.member?_replace hnull hnull' f before after with ⟨hx, hx'⟩ | heq
    · rw [hx] at hy
      rw [hx'] at hy'
      cases hy
      cases hy'
      exact h f s hf hx
    · rw [heq, hy'] at hy
      cases hy
      exact .same s _

end Shape

/-! ## Readers -/

namespace Draft

variable {α : Type}

/-- The result depends on nothing but what is read in a node of the shape. -/
def Respects (read : NodeReader α) (s : Shape) : Prop :=
  ∀ path json json', s.SameReading json json' → read path json = read path json'

theorem text_respects : Respects text .text := by
  intro path json json' h
  have htext : ∀ json : Json, text path json =
      match json.scalar? with
      | some t => .ok t
      | none => .error ⟨path, .text⟩ := by
    intro json
    cases json <;> rfl
  rw [htext, htext]
  cases h with
  | same => rfl
  | wrong hwrong hwrong' =>
      have hnone : ∀ json : Json, ¬ NodeType.text.Holds json → json.scalar? = none := by
        intro json hwrong
        exact Option.not_isSome_iff_eq_none.mp hwrong
      rw [hnone json hwrong, hnone json' hwrong']
  | text h h' => rw [h, h']

theorem items_respects {read : NodeReader α} {s : Shape} (hread : Respects read s) :
    Respects (items read) (.array s) := by
  intro path json json' h
  cases h with
  | same => rfl
  | wrong hwrong hwrong' =>
      have herror : ∀ json : Json, ¬ NodeType.array.Holds json →
          items read path json = .error ⟨path, .array⟩ := by
        intro json hwrong
        cases json with
        | array list => exact absurd ⟨list, rfl⟩ hwrong
        | _ => rfl
      rw [herror json hwrong, herror json' hwrong']
  | @array _ list list' hlength h =>
      have halong : List.Forall₂ s.SameReading list list' :=
        List.forall₂_iff_get.mpr ⟨hlength, h⟩
      have hitems : ∀ index, itemsFrom read path index list = itemsFrom read path index list' := by
        clear hlength h
        induction halong with
        | nil => exact fun _ => rfl
        | cons hx _ ih =>
            intro index
            rw [itemsFrom, itemsFrom, hread _ _ _ hx, ih]
      exact hitems 0

/-- A field of an object is part of what is read in it. -/
theorem field_respects {read : NodeReader α} {s : Shape} (hread : Respects read s)
    {fields : List (Field × Shape)} {ms ms' : Members Json} {f : Field}
    (hf : fields.lookup f = some s)
    (h : (Shape.object fields).SameReading (.object ms) (.object ms')) (path : Path) :
    field read path ms f = field read path ms' f := by
  cases h with
  | same => rfl
  | wrong hwrong _ => exact absurd ⟨ms, rfl⟩ hwrong
  | object hkeys h =>
      have hkey := hkeys _ (Shape.mem_of_lookup hf)
      have hvalue := h f s
      rw [field_eq, field_eq]
      cases hx : Json.member? ms f with
      | none =>
          rw [hx, Option.map_none, eq_comm, Option.map_eq_none_iff] at hkey
          rw [hkey]
      | some m =>
          obtain ⟨m', hx', hkey⟩ : ∃ m', Json.member? ms' f = some m' ∧ m'.1 = m.1 := by
            rw [hx, Option.map_some, eq_comm, Option.map_eq_some_iff] at hkey
            exact hkey
          obtain ⟨key, x⟩ := m
          obtain ⟨key', x'⟩ := m'
          cases hkey
          rw [hx']
          simp only [hread _ _ _ (hvalue _ x x' hf hx hx')]

theorem arrayField_respects {read : NodeReader α} {s : Shape} (hread : Respects read s)
    {fields : List (Field × Shape)} {ms ms' : Members Json} {f : Field}
    (hf : fields.lookup f = some (.array s))
    (h : (Shape.object fields).SameReading (.object ms) (.object ms')) (path : Path) :
    arrayField read path ms f = arrayField read path ms' f := by
  unfold arrayField
  rw [field_respects (items_respects hread) hf h]

/-- What is read from objects is read from their members. -/
theorem object_respects {fields : List (Field × Shape)}
    {k : Path → Members Json → Except Mismatch α}
    (h : ∀ path ms ms', (Shape.object fields).SameReading (.object ms) (.object ms') →
      k path ms = k path ms') :
    Respects (fun path json => members path json >>= k path) (.object fields) := by
  intro path json json' hsame
  cases hsame with
  | same => rfl
  | wrong hwrong hwrong' =>
      have herror : ∀ json : Json, ¬ NodeType.object.Holds json →
          members path json = .error ⟨path, .object⟩ := by
        intro json hwrong
        cases json with
        | object ms => exact absurd ⟨ms, rfl⟩ hwrong
        | _ => rfl
      simp only [herror json hwrong, herror json' hwrong']
  | object hkeys hvalues => exact h path _ _ (.object hkeys hvalues)

theorem ref_respects : Respects ref .ref := by
  refine object_respects fun path ms ms' h => ?_
  rw [field_respects text_respects rfl h]

theorem call_respects : Respects call .call := by
  refine object_respects fun path ms ms' h => ?_
  rw [field_respects ref_respects rfl h, field_respects text_respects rfl h,
    field_respects text_respects rfl h, field_respects text_respects rfl h,
    field_respects text_respects rfl h]

theorem calls_respects : Respects calls .calls := by
  refine object_respects fun path ms ms' h => ?_
  exact arrayField_respects call_respects rfl h path

theorem journey_respects : Respects journey .journey := by
  refine object_respects fun path ms ms' h => ?_
  rw [field_respects text_respects rfl h, field_respects ref_respects rfl h,
    field_respects ref_respects rfl h, field_respects ref_respects rfl h,
    field_respects ref_respects rfl h, arrayField_respects ref_respects rfl h,
    arrayField_respects ref_respects rfl h, field_respects calls_respects rfl h]

theorem delivery_respects : Respects delivery .delivery := by
  refine object_respects fun path ms ms' h => ?_
  rw [field_respects text_respects rfl h, field_respects text_respects rfl h,
    arrayField_respects journey_respects rfl h]

theorem siri_respects : Respects siri .siri := by
  refine object_respects fun path ms ms' h => ?_
  rw [field_respects delivery_respects rfl h]

/-- **The draft of a document** depends on nothing but what is read in it, and so does the first
mismatch. -/
theorem document_same {json json' : Json} (h : Shape.document.SameReading json json') :
    document json = document json' := by
  have hreads : Respects (fun path json => do
      let ms ← members path json
      return Document.mk (← field siri path ms .siri)) .document := by
    refine object_respects fun path ms ms' h => ?_
    rw [field_respects siri_respects rfl h]
  exact hreads [] json json' h

end Draft

end TimetableFeed
