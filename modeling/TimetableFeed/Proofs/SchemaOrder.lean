import TimetableFeed.Proofs.Schema

/-!
# The order of the schema

The recognised nodes of a document stand in an order: the fields of an object as the schema declares
them, the items of an array by their index, and all that lies inside a node with the node itself.
The list of misfits is in this order, so its head is the first of them.

Main definitions: `Shape.Before`, `Shape.FirstMisfit`. Main statements: `Shape.misfits_pairwise`,
`Shape.firstMisfit_of_not_fits`.
-/

namespace TimetableFeed

namespace Shape

/-- Under nodes of the shape, the first path comes before the second: fields as they are declared,
items by their index. -/
inductive Before : Shape → Path → Path → Prop where
  | index {s : Shape} {i j : Nat} (p q : Path) (h : i < j) :
      Before (.array s) (.index i :: p) (.index j :: q)
  | item {s : Shape} {i : Nat} {p q : Path} (h : Before s p q) :
      Before (.array s) (.index i :: p) (.index i :: q)
  | declared {fields : List (Field × Shape)} {f g : Field} {a b : Spelling} (p q : Path)
      (h : [f, g].Sublist (fields.map (·.1))) :
      Before (.object fields) (.key (f.name a) :: p) (.key (g.name b) :: q)
  | field {fields : List (Field × Shape)} {f : Field} {s : Shape} {name : String} {p q : Path}
      (hf : (f, s) ∈ fields) (h : Before s p q) :
      Before (.object fields) (.key name :: p) (.key name :: q)

theorem Before.cons {first : Field × Shape} {rest : List (Field × Shape)} {p q : Path}
    (h : Before (.object rest) p q) : Before (.object (first :: rest)) p q := by
  cases h with
  | declared p q h => exact .declared p q (h.cons _)
  | field hf h => exact .field (List.mem_cons_of_mem _ hf) h

/-- Of two mismatches below `path`, the first comes before the second. -/
def Ascends (s : Shape) (path : Path) (m m' : Mismatch) : Prop :=
  ∃ p q, m.path = path ++ p ∧ m'.path = path ++ q ∧ s.Before p q

/-- What holds of two mismatches inside one node holds of them inside the node around it. -/
theorem Ascends.lift {s t : Shape} {path : Path} {step : PathStep} {m m' : Mismatch}
    (h : s.Ascends (path ++ [step]) m m')
    (hstep : ∀ p q, s.Before p q → t.Before (step :: p) (step :: q)) : t.Ascends path m m' := by
  obtain ⟨p, q, hp, hq, hbefore⟩ := h
  refine ⟨step :: p, step :: q, ?_, ?_, hstep p q hbefore⟩
  · rw [hp, List.append_assoc, List.singleton_append]
  · rw [hq, List.append_assoc, List.singleton_append]

/-- The path of a misfit goes on from the path of the node that it is searched in. -/
theorem path_of_mem_misfits {s : Shape} {path : Path} {json : Json} {m : Mismatch}
    (hm : m ∈ s.misfits path json) : ∃ inner, m.path = path ++ inner := by
  obtain ⟨inner, t, node, -, -, rfl⟩ := (mem_misfits_iff s path json m).mp hm
  exact ⟨inner, rfl⟩

theorem member?_name {ms : Members Json} {f : Field} {name : String} {x : Json}
    (h : Json.member? ms f = some (name, x)) : ∃ spelling, name = f.name spelling := by
  have hfind : f.find? ms = some (name, x) := (Option.filter_eq_some_iff.mp h).1
  rcases (Field.mem_of_find hfind).2 with rfl | rfl
  · exact ⟨.camel, rfl⟩
  · exact ⟨.snake, rfl⟩

/-! The misfits are listed in this order: by induction on the shape, as their membership is. -/

mutual

theorem misfits_pairwise : ∀ (s : Shape) (path : Path) (json : Json),
    (s.misfits path json).Pairwise (s.Ascends path)
  | .text, path, json => by
      rw [misfits]
      split
      · exact List.Pairwise.nil
      · exact List.pairwise_singleton _ _
  | .array item, path, json => by
      cases json with
      | array items =>
          rw [misfits, List.pairwise_flatMap]
          constructor
          · -- inside one item
            rintro ⟨x, i⟩ -
            exact (misfits_pairwise item _ x).imp fun h => h.lift fun _ _ => .item
          · -- from one item to a later one: the indices decide, whatever follows
            have hindices : (items.zipIdx).Pairwise fun x y => x.2 < y.2 := by
              rw [← List.pairwise_map, List.zipIdx_map_snd]
              exact List.pairwise_lt_range'
            refine hindices.imp fun {x y} hlt m hm m' hm' => ?_
            obtain ⟨p, hp⟩ := path_of_mem_misfits hm
            obtain ⟨q, hq⟩ := path_of_mem_misfits hm'
            refine ⟨.index x.2 :: p, .index y.2 :: q, ?_, ?_, .index p q hlt⟩
            · rw [hp, List.append_assoc, List.singleton_append]
            · rw [hq, List.append_assoc, List.singleton_append]
      | _ =>
          rw [misfits]
          · exact List.pairwise_singleton _ _
          · intro items heq
            cases heq
  | .object fields, path, json => by
      cases json with
      | object ms =>
          rw [misfits]
          exact misfitsIn_pairwise fields path ms
      | _ =>
          rw [misfits]
          · exact List.pairwise_singleton _ _
          · intro ms heq
            cases heq

theorem misfitsIn_pairwise : ∀ (fields : List (Field × Shape)) (path : Path) (ms : Members Json),
    (misfitsIn fields path ms).Pairwise ((Shape.object fields).Ascends path)
  | [], path, ms => by
      rw [misfitsIn]
      exact List.Pairwise.nil
  | (f, s) :: rest, path, ms => by
      rw [misfitsIn, List.pairwise_append]
      refine ⟨?_, ?_, ?_⟩
      · -- inside the first field
        cases Json.member? ms f with
        | none => exact List.Pairwise.nil
        | some found =>
            rw [Option.toList_some, List.flatMap_singleton]
            refine (misfits_pairwise s _ found.2).imp fun h => h.lift fun _ _ => ?_
            exact .field List.mem_cons_self
      · -- inside the later ones
        refine (misfitsIn_pairwise rest path ms).imp fun {m m'} h => ?_
        obtain ⟨p, q, hp, hq, hbefore⟩ := h
        exact ⟨p, q, hp, hq, hbefore.cons⟩
      · -- from the first one to a later one: declared in this order, in whichever spelling
        intro m hm m' hm'
        obtain ⟨⟨name, x⟩, hx, hm⟩ := List.mem_flatMap.mp hm
        obtain ⟨p, hp⟩ := path_of_mem_misfits hm
        obtain ⟨a, rfl⟩ := member?_name (Option.mem_toList.mp hx)
        obtain ⟨g, t, name', x', hg, hx', inner, u, node, -, -, rfl⟩ :=
          (mem_misfitsIn_iff rest path ms m').mp hm'
        obtain ⟨b, rfl⟩ := member?_name hx'
        have hmem : g ∈ rest.map (·.1) := List.mem_map.mpr ⟨_, hg, rfl⟩
        have hsub : [f, g].Sublist (((f, s) :: rest).map (·.1)) :=
          (List.singleton_sublist.mpr hmem).cons_cons f
        refine ⟨.key (f.name a) :: p, .key (g.name b) :: inner, ?_, ?_, .declared p inner hsub⟩
        · rw [hp, List.append_assoc, List.singleton_append]
        · rw [List.append_assoc, List.singleton_append]

end

/-- The first recognised node of a wrong type in a document. -/
structure FirstMisfit (s : Shape) (json : Json) (m : Mismatch) : Prop where
  misfit : s.Misfit [] json m
  first : ∀ path t node, s.Recognises json path t node → ¬ t.type.Holds node →
    m = ⟨path, t.type⟩ ∨ s.Before m.path path

/-- A document that does not fit has a first misfit, and it is the first one in the list. -/
theorem firstMisfit_of_not_fits {s : Shape} {json : Json} (h : ¬ s.Fits json) :
    ∃ m rest, s.misfits [] json = m :: rest ∧ s.FirstMisfit json m := by
  cases hlist : s.misfits [] json with
  | nil => exact absurd ((misfits_eq_nil_iff s [] json).mp hlist) h
  | cons m rest =>
      refine ⟨m, rest, rfl, (mem_misfits_iff s [] json m).mp (by rw [hlist]; simp), ?_⟩
      intro path t node hnode hwrong
      have hmem : ⟨path, t.type⟩ ∈ s.misfits [] json :=
        (mem_misfits_iff s [] json _).mpr ⟨path, t, node, hnode, hwrong, rfl⟩
      have hpairs := misfits_pairwise s [] json
      rw [hlist] at hmem hpairs
      rcases List.mem_cons.mp hmem with heq | hrest
      · exact Or.inl heq.symm
      · obtain ⟨p, q, hp, hq, hbefore⟩ := (List.pairwise_cons.mp hpairs).1 _ hrest
        rw [List.nil_append] at hp hq
        cases hq
        rw [← hp] at hbefore
        exact Or.inr hbefore

end Shape

end TimetableFeed
