import TimetableFeed.Delivery.Draft
import TimetableFeed.Proofs.Results

/-!
# The schema of documents

What type the nodes of a document should have, as a value: a shape for each kind of object. A node
counts only if one of its names is recognised, and if it is not null. `Shape.misfits` lists all the
recognised nodes of a wrong type.

Main definitions: `Shape.document`, `Shape.Recognises`, `Shape.Fits`, `Shape.misfits`. Main
statements: `Shape.mem_misfits_iff`, `Shape.misfits_eq_nil_iff`.
-/

namespace TimetableFeed

/-- The type of a node, and of the recognised nodes inside it. -/
inductive Shape where
  | text
  | array (item : Shape)
  | object (fields : List (Field × Shape))

namespace Json

/-- The text of a node where a text is wanted; a number counts as its digits. -/
def scalar? : Json → Option String
  | .text s => some s
  | .integer i => some (integerText i)
  | .real x => some (x.write .plain)
  | _ => none

def isNull : Json → Bool
  | .null => true
  | _ => false

/-- The name and the value of a field; a null counts as missing. -/
def member? (ms : Members Json) (f : Field) : Option (String × Json) :=
  (f.find? ms).filter fun m => !m.2.isNull

def node? (json : Json) (f : Field) : Option Json :=
  match json with
  | .object ms => (member? ms f).map (·.2)
  | _ => none

/-- The text in a field. -/
def textAt (json : Json) (f : Field) : Option String := (json.node? f).bind scalar?

/-- The items in a field that holds an array; a missing one holds none. -/
def itemsAt (json : Json) (f : Field) : List Json :=
  match json.node? f with
  | some (.array items) => items
  | _ => []

def calls (journey : Json) : List Json :=
  ((journey.node? .estimatedCalls).map fun node => node.itemsAt .estimatedCall).getD []

end Json

/-- The node has the type. -/
def NodeType.Holds : NodeType → Json → Prop
  | .text, json => json.scalar?.isSome
  | .array, json => ∃ items, json = .array items
  | .object, json => ∃ ms, json = .object ms

namespace Shape

def type : Shape → NodeType
  | .text => .text
  | .array _ => .array
  | .object _ => .object

/-! ## The shapes of feeds -/

/-- References and names. -/
def ref : Shape := .object [(.value, .text)]

def call : Shape :=
  .object [(.stopPointRef, ref), (.aimedArrivalTime, .text), (.aimedDepartureTime, .text),
    (.expectedArrivalTime, .text), (.expectedDepartureTime, .text)]

def calls : Shape := .object [(.estimatedCall, .array call)]

def journey : Shape :=
  .object [(.recordedAtTime, .text), (.datedVehicleJourneyRef, ref), (.destinationRef, ref),
    (.directionRef, ref), (.lineRef, ref), (.publishedLineName, .array ref),
    (.destinationName, .array ref), (.estimatedCalls, calls)]

def delivery : Shape :=
  .object [(.responseTimestamp, .text), (.producerRef, .text),
    (.estimatedTimetableDelivery, .array journey)]

def siri : Shape := .object [(.serviceDelivery, delivery)]

def document : Shape := .object [(.siri, siri)]

/-! ## Recognised nodes -/

/-- In a node that should have the first shape, the path leads to one that should have the
second. -/
inductive Recognises : Shape → Json → Path → Shape → Json → Prop where
  | here (s : Shape) (json : Json) : Recognises s json [] s json
  | item {s t : Shape} {items : List Json} {i : Nat} {x node : Json} {path : Path}
      (hx : items[i]? = some x) (h : Recognises s x path t node) :
      Recognises (.array s) (.array items) (.index i :: path) t node
  | field {fields : List (Field × Shape)} {f : Field} {s t : Shape} {ms : Members Json}
      {name : String} {x node : Json} {path : Path} (hf : (f, s) ∈ fields)
      (hx : Json.member? ms f = some (name, x)) (h : Recognises s x path t node) :
      Recognises (.object fields) (.object ms) (.key name :: path) t node

/-- All recognised nodes have the right types. -/
def Fits (s : Shape) (json : Json) : Prop :=
  ∀ path t node, s.Recognises json path t node → t.type.Holds node

/-- The mismatch is a recognised node of a wrong type; its path begins where `path` ends. -/
def Misfit (s : Shape) (path : Path) (json : Json) (m : Mismatch) : Prop :=
  ∃ inner t node, s.Recognises json inner t node ∧ ¬ t.type.Holds node ∧
    m = ⟨path ++ inner, t.type⟩

mutual

/-- The recognised nodes of a wrong type: fields as they are declared, the items of an array by
their index, each with all that lies inside it before the next one. -/
def misfits : Shape → Path → Json → List Mismatch
  | .text, path, json => if json.scalar?.isSome then [] else [⟨path, .text⟩]
  | .array item, path, .array items =>
    items.zipIdx.flatMap fun x => item.misfits (path ++ [.index x.2]) x.1
  | .array _, path, _ => [⟨path, .array⟩]
  | .object fields, path, .object ms => misfitsIn fields path ms
  | .object _, path, _ => [⟨path, .object⟩]

/-- Those in the fields of an object. -/
def misfitsIn : List (Field × Shape) → Path → Members Json → List Mismatch
  | [], _, _ => []
  | (f, s) :: rest, path, ms =>
    ((Json.member? ms f).toList.flatMap fun m => s.misfits (path ++ [.key m.1]) m.2) ++
      misfitsIn rest path ms

end

/-- A node of a wrong type is the only misfit in it: nothing inside it is recognised. -/
theorem misfit_iff_of_wrong {s : Shape} {json : Json} (hwrong : ¬ s.type.Holds json)
    (hleaf : ∀ inner t node, s.Recognises json inner t node → inner = [] ∧ t = s ∧ node = json)
    (path : Path) (m : Mismatch) : s.Misfit path json m ↔ m = ⟨path, s.type⟩ := by
  constructor
  · rintro ⟨inner, t, node, h, -, rfl⟩
    obtain ⟨rfl, rfl, rfl⟩ := hleaf inner t node h
    rw [List.append_nil]
  · rintro rfl
    exact ⟨[], s, json, .here s json, hwrong, by rw [List.append_nil]⟩

/-! The misfits in the list are the recognised nodes of a wrong type: by induction on the shape, with
the fields of an object as the second kind of tree. -/

mutual

theorem mem_misfits_iff : ∀ (s : Shape) (path : Path) (json : Json) (m : Mismatch),
    m ∈ s.misfits path json ↔ s.Misfit path json m
  | .text, path, json, m => by
      rw [misfits]
      -- a text has no nodes inside, so only the node itself can be wrong
      have hleaf : ∀ inner t node, Shape.text.Recognises json inner t node →
          inner = [] ∧ t = .text ∧ node = json := by
        rintro inner t node ⟨⟩
        exact ⟨rfl, rfl, rfl⟩
      by_cases hscalar : json.scalar?.isSome = true
      · rw [if_pos hscalar]
        refine iff_of_false List.not_mem_nil ?_
        rintro ⟨inner, t, node, h, hwrong, -⟩
        obtain ⟨-, rfl, rfl⟩ := hleaf inner t node h
        exact hwrong hscalar
      · have hwrong : ¬ Shape.text.type.Holds json := hscalar
        rw [if_neg hscalar, List.mem_singleton, misfit_iff_of_wrong hwrong hleaf]
        rfl
  | .array item, path, json, m => by
      cases json with
      | array items =>
          rw [misfits, List.mem_flatMap]
          constructor
          · rintro ⟨⟨x, i⟩, hx, hm⟩
            obtain ⟨inner, t, node, h, hwrong, rfl⟩ := (mem_misfits_iff item _ x m).mp hm
            refine ⟨.index i :: inner, t, node, ?_, hwrong, ?_⟩
            · exact .item (List.mk_mem_zipIdx_iff_getElem?.mp hx) h
            · rw [List.append_assoc, List.singleton_append]
          · rintro ⟨inner, t, node, h, hwrong, rfl⟩
            cases h with
            | here =>
                -- the array itself is not among the misfits
                exact absurd ⟨items, rfl⟩ hwrong
            | item hx h =>
                refine ⟨(_, _), List.mk_mem_zipIdx_iff_getElem?.mpr hx, ?_⟩
                refine (mem_misfits_iff item _ _ _).mpr ⟨_, t, node, h, hwrong, ?_⟩
                rw [List.append_assoc, List.singleton_append]
      | _ =>
          rw [misfits, List.mem_singleton, misfit_iff_of_wrong]
          · rfl
          · rintro ⟨items, heq⟩
            cases heq
          · rintro inner t node ⟨⟩
            exact ⟨rfl, rfl, rfl⟩
          · intro items heq
            cases heq
  | .object fields, path, json, m => by
      cases json with
      | object ms =>
          rw [misfits, mem_misfitsIn_iff fields path ms m]
          constructor
          · rintro ⟨f, s, name, x, hf, hx, inner, t, node, h, hwrong, rfl⟩
            refine ⟨.key name :: inner, t, node, .field hf hx h, hwrong, ?_⟩
            rw [List.append_assoc, List.singleton_append]
          · rintro ⟨inner, t, node, h, hwrong, rfl⟩
            cases h with
            | here => exact absurd ⟨ms, rfl⟩ hwrong
            | field hf hx h =>
                refine ⟨_, _, _, _, hf, hx, _, t, node, h, hwrong, ?_⟩
                rw [List.append_assoc, List.singleton_append]
      | _ =>
          rw [misfits, List.mem_singleton, misfit_iff_of_wrong]
          · rfl
          · rintro ⟨ms, heq⟩
            cases heq
          · rintro inner t node ⟨⟩
            exact ⟨rfl, rfl, rfl⟩
          · intro ms heq
            cases heq

theorem mem_misfitsIn_iff : ∀ (fields : List (Field × Shape)) (path : Path) (ms : Members Json)
    (m : Mismatch), m ∈ misfitsIn fields path ms ↔
      ∃ f s name x, (f, s) ∈ fields ∧ Json.member? ms f = some (name, x) ∧
        s.Misfit (path ++ [.key name]) x m
  | [], path, ms, m => by simp [misfitsIn]
  | (f, s) :: rest, path, ms, m => by
      rw [misfitsIn, List.mem_append, List.mem_flatMap, mem_misfitsIn_iff rest path ms m]
      constructor
      · rintro (⟨⟨name, x⟩, hx, hm⟩ | ⟨g, t, name, x, hg, hx, hm⟩)
        · refine ⟨f, s, name, x, List.mem_cons_self, Option.mem_toList.mp hx, ?_⟩
          exact (mem_misfits_iff s _ x m).mp hm
        · exact ⟨g, t, name, x, List.mem_cons_of_mem _ hg, hx, hm⟩
      · rintro ⟨g, t, name, x, hg, hx, hm⟩
        rcases List.mem_cons.mp hg with heq | hg
        · cases heq
          refine Or.inl ⟨(name, x), Option.mem_toList.mpr hx, ?_⟩
          exact (mem_misfits_iff s _ x m).mpr hm
        · exact Or.inr ⟨g, t, name, x, hg, hx, hm⟩

end

theorem misfits_eq_nil_iff (s : Shape) (path : Path) (json : Json) :
    s.misfits path json = [] ↔ s.Fits json := by
  rw [List.eq_nil_iff_forall_not_mem]
  constructor
  · intro hnil inner t node h
    by_contra hwrong
    exact hnil _ ((mem_misfits_iff s path json _).mpr ⟨inner, t, node, h, hwrong, rfl⟩)
  · intro hfits m hm
    obtain ⟨inner, t, node, h, hwrong, -⟩ := (mem_misfits_iff s path json m).mp hm
    exact hwrong (hfits inner t node h)

end Shape

end TimetableFeed
