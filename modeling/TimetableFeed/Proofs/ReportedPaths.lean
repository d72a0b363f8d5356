import TimetableFeed.Proofs.JsonText
import TimetableFeed.Proofs.Locations
import TimetableFeed.Proofs.TextLengths

/-!
# Paths that are reported

The first pass rejects a body for one node, and tells the path to it. With all names in camel case,
the paths that it may tell are those that the schema declares, at any indices: none other is
recognised, and for each of them there is a body that has nothing in it but the way to a node of a
wrong type, behind as many blank items as the indices ask for.

Main definitions: `Shape.Declares`, `Mismatch.Reported`. Main statement: `reported_iff_declared`.
-/

namespace TimetableFeed

/-- Some body is rejected for this node, and the way to the node is in camel case. -/
structure Mismatch.Reported (m : Mismatch) : Prop where
  rejects : ∃ bytes, decode? bytes = .error (.wrongType m)
  inCamel : m.path.InCamel

namespace Shape

/-- Under a node of the first shape the schema declares one of the second shape, where the path leads
to: by the names of fields in camel case and by any indices. -/
inductive Declares : Shape → Path → Shape → Prop where
  | here (s : Shape) : Declares s [] s
  | item {s t : Shape} {path : Path} (i : Nat) (h : Declares s path t) :
      Declares (.array s) (.index i :: path) t
  | field {fields : List (Field × Shape)} {f : Field} {s t : Shape} {path : Path}
      (hf : (f, s) ∈ fields) (h : Declares s path t) :
      Declares (.object fields) (.key f.camel :: path) t

theorem Declares.inCamel {s t : Shape} {path : Path} (h : s.Declares path t) : path.InCamel := by
  induction h with
  | here => exact Path.inCamel_nil
  | item i _ ih => exact (Path.inCamel_index i _).mpr ih
  | field _ _ ih => exact (Path.inCamel_camel _ _).mpr ih

/-- What is recognised has been declared. -/
theorem Recognises.declares {s t : Shape} {json node : Json} {path : Path}
    (h : s.Recognises json path t node) (hcamel : path.InCamel) : s.Declares path t := by
  induction h with
  | here => exact .here _
  | item _ _ ih => exact .item _ (ih ((Path.inCamel_index _ _).mp hcamel))
  | @field fields f s t ms name x node path hf hx _ ih =>
      have hfound : (Json.object ms).found? f = some (name, x) := hx
      obtain rfl := Json.found_in_camel hcamel hfound List.mem_cons_self
      exact .field hf (ih ((Path.inCamel_camel _ _).mp hcamel))

/-! ## Shapes without repeated fields -/

mutual

/-- No object of the shape declares a field twice. -/
def isDistinct : Shape → Bool
  | .text => true
  | .array item => item.isDistinct
  | .object fields => decide (fields.map (·.1)).Nodup && areDistinct fields

/-- This holds for each field. -/
def areDistinct : List (Field × Shape) → Bool
  | [] => true
  | (_, s) :: rest => s.isDistinct && areDistinct rest

end

theorem distinct_of_field {fields : List (Field × Shape)} (h : areDistinct fields = true)
    {f : Field} {s : Shape} (hf : (f, s) ∈ fields) : s.isDistinct = true := by
  induction fields with
  | nil => cases hf
  | cons first rest ih =>
      obtain ⟨g, t⟩ := first
      rw [areDistinct, Bool.and_eq_true] at h
      rcases List.mem_cons.mp hf with heq | hf
      · cases heq
        exact h.1
      · exact ih h.2 hf

theorem document_distinct : document.isDistinct = true := by decide

/-! ## Bodies with one misfit -/

/-- A node of the shape that holds as little as it can. -/
def blank : Shape → Json
  | .text => .text ""
  | .array _ => .array []
  | .object _ => .object []

/-- A node that does not have the type of the shape. -/
def unfit : Shape → Json
  | .text => .array []
  | _ => .text ""

theorem misfitsIn_nil (fields : List (Field × Shape)) (path : Path) :
    misfitsIn fields path [] = [] := by
  induction fields with
  | nil => rfl
  | cons first rest ih =>
      rw [misfitsIn, ih]
      rfl

theorem misfits_blank (s : Shape) (path : Path) : s.misfits path s.blank = [] := by
  cases s with
  | text => rfl
  | array item => rfl
  | object fields => exact misfitsIn_nil fields path

theorem misfits_unfit (s : Shape) (path : Path) : s.misfits path s.unfit = [⟨path, s.type⟩] := by
  cases s <;> rfl

/-- Behind blank items the misfits are those of the last one. -/
theorem misfits_behind_blanks (s : Shape) (path : Path) (i : Nat) (x : Json) :
    (Shape.array s).misfits path (.array (List.replicate i s.blank ++ [x])) =
      s.misfits (path ++ [.index i]) x := by
  have hblank : (List.replicate i s.blank).zipIdx.flatMap
      (fun x => s.misfits (path ++ [.index x.2]) x.1) = [] := by
    refine List.flatMap_eq_nil_iff.mpr fun y hy => ?_
    rw [List.eq_of_mem_replicate (List.fst_mem_of_mem_zipIdx hy), misfits_blank]
  rw [misfits, List.zipIdx_append, List.flatMap_append, hblank, List.nil_append, List.zipIdx_cons,
    List.zipIdx_nil, List.flatMap_singleton, List.length_replicate, Nat.zero_add]

theorem member?_alone (f : Field) {x : Json} (hx : x.isNull = false) :
    Json.member? [(f.camel, x)] f = some (f.camel, x) := by
  have hfind : f.find? [(f.camel, x)] = some (f.camel, x) := by
    simp [Field.find?, Members.lookup]
  rw [Json.member?, hfind, Option.filter_some, if_pos (by simp [hx])]

theorem member?_other {f g : Field} (h : f ≠ g) (x : Json) :
    Json.member? [(f.camel, x)] g = none := by
  have hfind : g.find? ([] ++ (f.camel, x) :: []) = g.find? ([] ++ []) :=
    Field.find?_insert fun _ heq => h (Field.eq_of_camel_eq_name heq)
  rw [List.nil_append] at hfind
  rw [Json.member?, hfind]
  rfl

/-- A field that is not declared counts for nothing. -/
theorem misfitsIn_undeclared {fields : List (Field × Shape)} {f : Field}
    (hf : f ∉ fields.map (·.1)) (path : Path) (x : Json) :
    misfitsIn fields path [(f.camel, x)] = [] := by
  induction fields with
  | nil => rfl
  | cons first rest ih =>
      obtain ⟨g, t⟩ := first
      obtain ⟨hne, hrest⟩ := not_or.mp (mt List.mem_cons.mpr hf)
      rw [misfitsIn, member?_other hne, ih hrest]
      rfl

/-- Of a member that stands alone the misfits are those of its field. -/
theorem misfitsIn_alone {fields : List (Field × Shape)} (h : (fields.map (·.1)).Nodup) {f : Field}
    {s : Shape} (hf : (f, s) ∈ fields) (path : Path) {x : Json} (hx : x.isNull = false) :
    misfitsIn fields path [(f.camel, x)] = s.misfits (path ++ [.key f.camel]) x := by
  induction fields with
  | nil => cases hf
  | cons first rest ih =>
      obtain ⟨g, t⟩ := first
      obtain ⟨hfirst, hrest⟩ := List.nodup_cons.mp h
      rcases List.mem_cons.mp hf with heq | hmem
      · cases heq
        rw [misfitsIn, member?_alone f hx, misfitsIn_undeclared hfirst, List.append_nil,
          Option.toList_some, List.flatMap_singleton]
      · have hne : f ≠ g := by
          rintro rfl
          exact hfirst (List.mem_map.mpr ⟨_, hmem, rfl⟩)
        rw [misfitsIn, member?_other hne, ih hrest hmem]
        rfl

/-- For each path that is declared there is a document in which it leads to the only misfit. -/
theorem Declares.exists_misfit {s t : Shape} {path : Path} (h : s.Declares path t)
    (hdistinct : s.isDistinct = true) :
    ∃ json : Json, json.PlainTo (path.length + 1) ∧ json.isNull = false ∧
      ∀ front, s.misfits front json = [⟨front ++ path, t.type⟩] := by
  induction h with
  | here s =>
      refine ⟨s.unfit, ?_, ?_, fun front => ?_⟩
      · cases s with
        | text => exact .array (List.forall_mem_nil _)
        | _ => exact .text _ _
      · cases s <;> rfl
      · rw [misfits_unfit, List.append_nil]
  | @item s t path i _ ih =>
      obtain ⟨x, hplain, -, hx⟩ := ih hdistinct
      refine ⟨.array (List.replicate i s.blank ++ [x]), .array ?_, rfl, fun front => ?_⟩
      · intro y hy
        rcases List.mem_append.mp hy with hy | hy
        · rw [List.eq_of_mem_replicate hy]
          cases s with
          | text => exact .text _ _
          | array item => exact .array (List.forall_mem_nil _)
          | object fields => exact .object (List.forall_mem_nil _)
        · rwa [List.mem_singleton.mp hy]
      · rw [misfits_behind_blanks, hx, List.append_assoc, List.singleton_append]
  | @field fields f s t path hf _ ih =>
      rw [isDistinct, Bool.and_eq_true, decide_eq_true_eq] at hdistinct
      obtain ⟨x, hplain, hnull, hx⟩ := ih (distinct_of_field hdistinct.2 hf)
      refine ⟨.object [(f.camel, x)], .object ?_, rfl, fun front => ?_⟩
      · intro m hm
        rwa [List.mem_singleton.mp hm]
      · rw [misfits, misfitsIn_alone hdistinct.1 hf front hnull, hx, List.append_assoc,
          List.singleton_append]

end Shape

theorem Path.length_le_room (path : Path) : path.length ≤ path.room := by
  induction path with
  | nil => exact Nat.le_refl 0
  | cons step rest ih =>
      cases step <;> simp only [List.length_cons, room] <;> omega

/-- **What the first pass may report**, with all names in camel case: a node that the schema
declares, at any indices, and the type that it declares for it. -/
theorem reported_iff_declared (m : Mismatch) :
    m.Reported ↔ ∃ s, Shape.document.Declares m.path s ∧ m.expected = s.type := by
  constructor
  · rintro ⟨⟨bytes, h⟩, hcamel⟩
    obtain ⟨json, path, s, node, hnode, -, rfl⟩ := misfit_of_wrongType h
    exact ⟨s, hnode.declares hcamel, rfl⟩
  · obtain ⟨path, expected⟩ := m
    rintro ⟨s, hpath, rfl⟩
    refine ⟨?_, hpath.inCamel⟩
    obtain ⟨json, hplain, -, hmisfits⟩ := hpath.exists_misfit Shape.document_distinct
    have hlist : Shape.document.misfits [] json = [⟨path, s.type⟩] := hmisfits []
    have hroom : path.length + 1 ≤ bodyLimits.depth := by
      obtain ⟨inner, t, node, hnode, -, heq⟩ :=
        (Shape.mem_misfits_iff _ _ _ _).mp (hlist ▸ List.mem_singleton_self _)
      have hinner : path = inner := congrArg Mismatch.path heq
      have hreach := hnode.room_le
      have hlength := Path.length_le_room inner
      rw [Shape.reach_document] at hreach
      rw [hinner]
      show _ ≤ 200
      omega
    have hread := Json.read_print hplain hroom .line
    exact ⟨_, (decode_fails_iff hread _).mpr (Json.faults_of_misfits hlist)⟩

end TimetableFeed
