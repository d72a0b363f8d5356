import Mathlib.Logic.Relation
import TimetableFeed.Proofs.Decoding
import TimetableFeed.Proofs.Readings

/-!
# Order of keys and foreign members

What a document decodes to depends neither on the order of the keys in its objects nor on members
that are not fields of the object they stand in. A document is edited step by step, in any object at
any depth; each step keeps all that the schema reads.

Main definitions: `Shape.Edit`, `Shape.ReadAlike`. Main statements: `Shape.ReadAlike.edit`,
`Draft.document_alike`, `decode?_eq_of_edits`.
-/

namespace TimetableFeed

/-! ## Documents with distinct keys -/

namespace Json

mutual

/-- The keys of each object are distinct. -/
def hasDistinctKeys : Json → Bool
  | .array items => itemsHaveDistinctKeys items
  | .object ms => decide (ms.map (·.1)).Nodup && membersHaveDistinctKeys ms
  | _ => true

def itemsHaveDistinctKeys : List Json → Bool
  | [] => true
  | x :: rest => x.hasDistinctKeys && itemsHaveDistinctKeys rest

def membersHaveDistinctKeys : Members Json → Bool
  | [] => true
  | (_, x) :: rest => x.hasDistinctKeys && membersHaveDistinctKeys rest

end

theorem distinct_of_item {items : List Json} (h : itemsHaveDistinctKeys items = true) {x : Json}
    (hx : x ∈ items) : x.hasDistinctKeys = true := by
  induction items with
  | nil => cases hx
  | cons y rest ih =>
      rw [itemsHaveDistinctKeys, Bool.and_eq_true] at h
      rcases List.mem_cons.mp hx with rfl | hx
      · exact h.1
      · exact ih h.2 hx

theorem distinct_of_member {ms : Members Json} (h : membersHaveDistinctKeys ms = true)
    {key : String} {x : Json} (hx : (key, x) ∈ ms) : x.hasDistinctKeys = true := by
  induction ms with
  | nil => cases hx
  | cons m rest ih =>
      obtain ⟨name, y⟩ := m
      rw [membersHaveDistinctKeys, Bool.and_eq_true] at h
      rcases List.mem_cons.mp hx with heq | hx
      · cases heq
        exact h.1
      · exact ih h.2 hx

theorem mem_of_member? {ms : Members Json} {f : Field} {key : String} {x : Json}
    (h : member? ms f = some (key, x)) : (key, x) ∈ ms :=
  (Field.mem_of_find (Option.filter_eq_some_iff.mp h).1).1

end Json

/-! ## Edits -/

namespace Shape

/-- The fields that are read in a node. In a node of no shape nothing is read. -/
def fieldsOf : Option Shape → List (Field × Shape)
  | some (.object fields) => fields
  | _ => []

/-- The shape of the items in a node. -/
def itemOf : Option Shape → Option Shape
  | some (.array item) => some item
  | _ => none

/-- The key is no name of a field that is read in the node. -/
def Foreign (s? : Option Shape) (key : String) : Prop :=
  ∀ d ∈ fieldsOf s?, ∀ a, key ≠ d.1.name a

/-- One edit of a node, or of a node inside it: the members of an object change their order, or one
under a foreign key comes or goes. The node has the shape, or none if nothing in it is read. -/
inductive Edit : Option Shape → Json → Json → Prop where
  | reorder {s? : Option Shape} {ms ms' : Members Json} (hperm : ms.Perm ms') :
      Edit s? (.object ms) (.object ms')
  | insert {s? : Option Shape} {key : String} (x : Json) (before after : Members Json)
      (hkey : Foreign s? key) :
      Edit s? (.object (before ++ after)) (.object (before ++ (key, x) :: after))
  | remove {s? : Option Shape} {key : String} (x : Json) (before after : Members Json)
      (hkey : Foreign s? key) :
      Edit s? (.object (before ++ (key, x) :: after)) (.object (before ++ after))
  | inItem {s? : Option Shape} {x x' : Json} (before after : List Json)
      (h : Edit (itemOf s?) x x') :
      Edit s? (.array (before ++ x :: after)) (.array (before ++ x' :: after))
  | inField {s? : Option Shape} {t : Shape} {key : String} {x x' : Json} (f : Field)
      (before after : Members Json) (hf : (fieldsOf s?).lookup f = some t)
      (hfound : f.find? (before ++ (key, x) :: after) = some (key, x))
      (h : Edit (some t) x x') :
      Edit s? (.object (before ++ (key, x) :: after)) (.object (before ++ (key, x') :: after))
  | inUnread {s? : Option Shape} {key : String} {x x' : Json} (before after : Members Json)
      (hunread : ∀ d ∈ fieldsOf s?, d.1.find? (before ++ (key, x) :: after) ≠ some (key, x))
      (h : Edit none x x') :
      Edit s? (.object (before ++ (key, x) :: after)) (.object (before ++ (key, x') :: after))

/-- What is edited is no null, before and after. -/
theorem Edit.not_null {s? : Option Shape} {json json' : Json} (h : Edit s? json json') :
    json.isNull = false ∧ json'.isNull = false := by
  cases h <;> exact ⟨rfl, rfl⟩

/-! ## Nodes that read alike -/

/-- Nothing that is read in a node of the shape differs. In the second node no field stands twice
under one name. -/
inductive ReadAlike : Shape → Json → Json → Prop where
  | wrong {s : Shape} {json json' : Json} (h : ¬ s.type.Holds json) (h' : ¬ s.type.Holds json') :
      ReadAlike s json json'
  | text {t : String} {json json' : Json} (h : json.scalar? = some t)
      (h' : json'.scalar? = some t) : ReadAlike .text json json'
  | array {s : Shape} {items items' : List Json} (hlength : items.length = items'.length)
      (h : ∀ (i : Nat) (hi : i < items.length) (hi' : i < items'.length),
        ReadAlike s items[i] items'[i]) :
      ReadAlike (.array s) (.array items) (.array items')
  | object {fields : List (Field × Shape)} {ms ms' : Members Json}
      (hsingle : ∀ d ∈ fields, d.1.Single ms')
      (hkeys : ∀ d ∈ fields,
        (Json.member? ms d.1).map (·.1) = (Json.member? ms' d.1).map (·.1))
      (h : ∀ f s key x x', fields.lookup f = some s → Json.member? ms f = some (key, x) →
        Json.member? ms' f = some (key, x') → ReadAlike s x x') :
      ReadAlike (.object fields) (.object ms) (.object ms')

/-! A document with distinct keys reads like itself: by induction on the shape, with the fields of an
object as the second kind of tree. -/

mutual

theorem readAlike_self : ∀ (s : Shape) (json : Json), json.hasDistinctKeys = true →
    ReadAlike s json json
  | .text, json, _ => by
      cases hscalar : json.scalar? with
      | some t => exact .text hscalar hscalar
      | none =>
          have hwrong : ¬ NodeType.text.Holds json := by simp [NodeType.Holds, hscalar]
          exact .wrong hwrong hwrong
  | .array item, json, h => by
      by_cases hwrong : NodeType.array.Holds json
      · obtain ⟨items, rfl⟩ := hwrong
        rw [Json.hasDistinctKeys] at h
        refine .array rfl fun i hi _ => ?_
        exact readAlike_self item _ (Json.distinct_of_item h (List.getElem_mem hi))
      · exact .wrong hwrong hwrong
  | .object fields, json, h => by
      by_cases hwrong : NodeType.object.Holds json
      · obtain ⟨ms, rfl⟩ := hwrong
        rw [Json.hasDistinctKeys, Bool.and_eq_true, decide_eq_true_iff] at h
        obtain ⟨hnodup, hdistinct⟩ := h
        refine .object ?_ (fun _ _ => rfl) (readAlike_self_in fields ms hdistinct)
        intro d _ a
        exact List.nodup_iff_count.mp hnodup (d.1.name a)
      · exact .wrong hwrong hwrong

theorem readAlike_self_in : ∀ (fields : List (Field × Shape)) (ms : Members Json),
    Json.membersHaveDistinctKeys ms = true → ∀ f s key x x', fields.lookup f = some s →
      Json.member? ms f = some (key, x) → Json.member? ms f = some (key, x') → ReadAlike s x x'
  | [], _, _ => by nofun
  | (g, t) :: rest, ms, h => by
      intro f s key x x' hf hx hx'
      rw [hx] at hx'
      cases hx'
      rw [List.lookup_cons] at hf
      cases hfg : f == g with
      | true =>
          rw [hfg] at hf
          cases hf
          exact readAlike_self t x (Json.distinct_of_member h (Json.mem_of_member? hx))
      | false =>
          rw [hfg] at hf
          exact readAlike_self_in rest ms h f s key x x hf hx hx

end

/-- What keeps the fields of an object, each at its place, keeps all that is read in it. -/
theorem ReadAlike.object_congr {fields : List (Field × Shape)} {json₀ : Json}
    {ms ms' : Members Json}
    (h : ReadAlike (.object fields) json₀ (.object ms))
    (hsingle : ∀ d ∈ fields, d.1.Single ms → d.1.Single ms')
    (hfind : ∀ d ∈ fields, d.1.Single ms → d.1.find? ms = d.1.find? ms') :
    ReadAlike (.object fields) json₀ (.object ms') := by
  cases h with
  | wrong _ hwrong => exact absurd ⟨ms, rfl⟩ hwrong
  | object hs hkeys h =>
      have hmember : ∀ d ∈ fields, Json.member? ms' d.1 = Json.member? ms d.1 := by
        intro d hd
        unfold Json.member?
        rw [hfind d hd (hs d hd)]
      refine .object (fun d hd => hsingle d hd (hs d hd)) ?_ ?_
      · intro d hd
        rw [hkeys d hd, hmember d hd]
      · intro f s key x x' hf hx hx'
        rw [hmember _ (mem_of_lookup hf)] at hx'
        exact h f s key x x' hf hx hx'

/-- A new value under a key keeps all that is read in an object, if it reads like the old one to
each field that is found under the key. -/
theorem ReadAlike.object_replace {fields : List (Field × Shape)} {json₀ x x' : Json}
    {before after : Members Json} {key : String}
    (h : ReadAlike (.object fields) json₀ (.object (before ++ (key, x) :: after)))
    (hnull : x.isNull = false) (hnull' : x'.isNull = false)
    (halike : ∀ f s x₀, fields.lookup f = some s →
      f.find? (before ++ (key, x) :: after) = some (key, x) → ReadAlike s x₀ x →
      ReadAlike s x₀ x') :
    ReadAlike (.object fields) json₀ (.object (before ++ (key, x') :: after)) := by
  cases h with
  | wrong _ hwrong => exact absurd ⟨_, rfl⟩ hwrong
  | object hs hkeys h =>
      refine .object ?_ ?_ ?_
      · intro d hd a
        exact Members.single_replace.mp (hs d hd a)
      · intro d hd
        rw [hkeys d hd]
        rcases Json.member?_replace hnull hnull' d.1 before after with ⟨hx, hx'⟩ | heq
        · rw [hx, hx', Option.map_some, Option.map_some]
        · rw [heq]
      · intro f s name y y' hf hy hy'
        rcases Json.member?_replace hnull hnull' f before after with ⟨hx, hx'⟩ | heq
        · rw [hx'] at hy'
          cases hy'
          have hfound := (Option.filter_eq_some_iff.mp hx).1
          exact halike f s y hf hfound (h f s key y x hf hy hx)
        · rw [← heq] at hy'
          exact h f s name y y' hf hy hy'

/-- A new item keeps all that is read in an array, if it reads like the old one. -/
theorem ReadAlike.array_replace {s : Shape} {before after : List Json} {json₀ x x' : Json}
    (h : ReadAlike (.array s) json₀ (.array (before ++ x :: after)))
    (halike : ∀ x₀, ReadAlike s x₀ x → ReadAlike s x₀ x') :
    ReadAlike (.array s) json₀ (.array (before ++ x' :: after)) := by
  cases h with
  | wrong _ hwrong => exact absurd ⟨_, rfl⟩ hwrong
  | array hlength h =>
      have hlength' : (before ++ x :: after).length = (before ++ x' :: after).length := by
        rw [List.length_append, List.length_append, List.length_cons, List.length_cons]
      refine .array (hlength.trans hlength') fun i hi hi' => ?_
      have hitem := h i hi (by omega)
      rcases Nat.lt_trichotomy i before.length with hlt | rfl | hgt
      · rw [List.getElem_append_left hlt] at hitem ⊢
        exact hitem
      · rw [List.getElem_append_right (Nat.le_refl _)] at hitem ⊢
        simp only [Nat.sub_self, List.getElem_cons_zero] at hitem ⊢
        exact halike _ hitem
      · obtain ⟨k, rfl⟩ := Nat.exists_eq_add_of_lt hgt
        rw [List.getElem_append_right (by omega)] at hitem ⊢
        have hk : before.length + k + 1 - before.length = k + 1 := by omega
        simp only [hk, List.getElem_cons_succ] at hitem ⊢
        exact hitem

/-- An edit of an object matters only to the shape of an object. -/
theorem ReadAlike.of_object {s : Shape} {json₀ : Json} {ms ms' : Members Json}
    (h : ReadAlike s json₀ (.object ms))
    (hstep : ∀ fields, s = .object fields → ReadAlike (.object fields) json₀ (.object ms) →
      ReadAlike (.object fields) json₀ (.object ms')) : ReadAlike s json₀ (.object ms') := by
  cases s with
  | object fields => exact hstep fields rfl h
  | text =>
      cases h with
      | wrong hwrong _ => exact .wrong hwrong (by simp [type, NodeType.Holds, Json.scalar?])
      | text _ htext => cases htext
  | array item =>
      cases h with
      | wrong hwrong _ => exact .wrong hwrong (by simp [type, NodeType.Holds])

/-- An edit of an array matters only to the shape of an array. -/
theorem ReadAlike.of_array {s : Shape} {json₀ : Json} {items items' : List Json}
    (h : ReadAlike s json₀ (.array items))
    (hstep : ∀ item, s = .array item → ReadAlike (.array item) json₀ (.array items) →
      ReadAlike (.array item) json₀ (.array items')) : ReadAlike s json₀ (.array items') := by
  cases s with
  | array item => exact hstep item rfl h
  | text =>
      cases h with
      | wrong hwrong _ => exact .wrong hwrong (by simp [type, NodeType.Holds, Json.scalar?])
      | text _ htext => cases htext
  | object fields =>
      cases h with
      | wrong hwrong _ => exact .wrong hwrong (by simp [type, NodeType.Holds])

/-- **One edit** of a node keeps all that is read in it. -/
theorem ReadAlike.edit {s? : Option Shape} {json json' : Json} (hedit : Edit s? json json') :
    ∀ (s : Shape) (json₀ : Json), s? = some s → ReadAlike s json₀ json →
      ReadAlike s json₀ json' := by
  induction hedit with
  | reorder hperm =>
      intro s json₀ _ h
      refine h.of_object fun fields _ h => h.object_congr ?_ ?_
      · intro d _ hd
        exact hd.perm hperm
      · intro d _ hd
        exact hd.find?_perm hperm
  | insert x before after hkey =>
      intro s json₀ hs h
      subst hs
      refine h.of_object fun fields hs h => h.object_congr ?_ ?_
      · intro d hd hsingle a
        subst hs
        exact (Members.single_insert (hkey d hd a)).mpr (hsingle a)
      · intro d hd _
        subst hs
        exact (Field.find?_insert (hkey d hd)).symm
  | remove x before after hkey =>
      intro s json₀ hs h
      subst hs
      refine h.of_object fun fields hs h => h.object_congr ?_ ?_
      · intro d hd hsingle a
        subst hs
        exact (Members.single_insert (hkey d hd a)).mp (hsingle a)
      · intro d hd _
        subst hs
        exact Field.find?_insert (hkey d hd)
  | inItem before after hedit ih =>
      intro s json₀ hs h
      subst hs
      refine h.of_array fun item hs h => h.array_replace ?_
      subst hs
      intro x₀ hx
      exact ih item x₀ rfl hx
  | inField f before after hf hfound hedit ih =>
      intro s json₀ hs h
      subst hs
      refine h.of_object fun fields hs h => h.object_replace hedit.not_null.1 hedit.not_null.2 ?_
      subst hs
      intro g t x₀ hg hfound' hx
      -- the field under the key is the edited one, so the shapes agree
      obtain rfl := Field.eq_of_found hfound' hfound
      rw [fieldsOf, hg] at hf
      cases hf
      exact ih _ x₀ rfl hx
  | inUnread before after hunread hedit _ =>
      intro s json₀ hs h
      subst hs
      refine h.of_object fun fields hs h => h.object_replace hedit.not_null.1 hedit.not_null.2 ?_
      subst hs
      intro g t x₀ hg hfound _
      exact absurd hfound (hunread _ (mem_of_lookup hg))

/-- **Any edits** of a document with distinct keys keep all that is read in it. -/
theorem ReadAlike.edits {s : Shape} {json json' : Json} (hkeys : json.hasDistinctKeys = true)
    (hedits : Relation.ReflTransGen (Edit (some s)) json json') : ReadAlike s json json' := by
  induction hedits with
  | refl => exact readAlike_self s json hkeys
  | tail _ hedit ih => exact ReadAlike.edit hedit s json rfl ih

/-- Nodes that read alike give the same reading. -/
theorem ReadAlike.sameReading {s : Shape} {json json' : Json} (h : ReadAlike s json json') :
    s.SameReading json json' := by
  induction h with
  | wrong h h' => exact .wrong h h'
  | text h h' => exact .text h h'
  | array hlength _ ih => exact .array hlength ih
  | object _ hkeys _ ih => exact .object hkeys ih

end Shape

theorem Draft.document_alike {json json' : Json} (h : Shape.document.ReadAlike json json') :
    document json = document json' :=
  document_same h.sameReading

/-! ## Edited documents -/

/-- **Order of keys and foreign members do not count.** A document with distinct keys and one that
any number of edits make of it decode to the same delivery, or fail with the same error. -/
theorem decode?_eq_of_edits {bytes bytes' : List UInt8} {json json' : Json}
    (h : Json.read? bodyLimits bytes = .ok json) (h' : Json.read? bodyLimits bytes' = .ok json')
    (hkeys : json.hasDistinctKeys = true)
    (hedits : Relation.ReflTransGen (Shape.Edit (some .document)) json json') :
    decode? bytes' = decode? bytes := by
  have halike : Shape.document.ReadAlike json json' := Shape.ReadAlike.edits hkeys hedits
  rw [decode?_eq h, decode?_eq h']
  unfold decodeJson?
  rw [Draft.document_alike halike]

def withDelivery (ms : Members Json) : Json :=
  .object [("Siri", .object [("serviceDelivery", .object ms)])]

/-- Two nodes of a wrong type, one of them an object. -/
def misfeed : Json :=
  withDelivery [("responseTimestamp", .object [("lang", .text "no")]), ("producerRef", .array [])]

/-- The same two in the other order, with a foreign member in the object. -/
def shuffledMisfeed : Json :=
  withDelivery [("producerRef", .array []),
    ("responseTimestamp", .object [("value", .null), ("lang", .text "no")])]

theorem misfeed_edits :
    Relation.ReflTransGen (Shape.Edit (some .document)) misfeed shuffledMisfeed := by
  have hlift : ∀ {ms ms' : Members Json}, Shape.Edit (some .delivery) (.object ms) (.object ms') →
      Shape.Edit (some .document) (withDelivery ms) (withDelivery ms') := by
    intro ms ms' h
    exact .inField .siri [] [] rfl rfl (.inField .serviceDelivery [] [] rfl rfl h)
  have hswap := hlift (.reorder (.swap ("producerRef", .array [])
    ("responseTimestamp", .object [("lang", .text "no")]) []))
  refine (Relation.ReflTransGen.single hswap).tail (hlift ?_)
  refine .inField .responseTimestamp [("producerRef", .array [])] [] rfl rfl ?_
  exact .insert .null [] [("lang", .text "no")] nofun

set_option maxRecDepth 10000 in
theorem decode?_eq_of_edits_misfeed :
    Json.read? bodyLimits (printed misfeed) = .ok misfeed ∧
      Json.read? bodyLimits (printed shuffledMisfeed) = .ok shuffledMisfeed ∧
      misfeed.hasDistinctKeys = true ∧
      Relation.ReflTransGen (Shape.Edit (some .document)) misfeed shuffledMisfeed ∧
      decode? (printed shuffledMisfeed) = decode? (printed misfeed) ∧
      decode? (printed misfeed) = .error (.wrongType
        ⟨[.key "Siri", .key "serviceDelivery", .key "responseTimestamp"], .text⟩) := by
  have hread : Json.read? bodyLimits (printed misfeed) = .ok misfeed := by rfl
  have hread' : Json.read? bodyLimits (printed shuffledMisfeed) = .ok shuffledMisfeed := by rfl
  have hkeys : misfeed.hasDistinctKeys = true := by decide
  have herror : decode? (printed misfeed) = .error (.wrongType
      ⟨[.key "Siri", .key "serviceDelivery", .key "responseTimestamp"], .text⟩) := by
    rw [decode?_eq hread]
    rfl
  exact ⟨hread, hread', hkeys, misfeed_edits,
    decode?_eq_of_edits hread hread' hkeys misfeed_edits, herror⟩

end TimetableFeed
