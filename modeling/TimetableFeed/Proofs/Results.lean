import Mathlib.Data.List.Forall2

/-!
# Results of checks

Checks that are made one after the other give a value, or fail with the first fault. `Judged` ties
such a result to the list of *all* the faults, also of those behind the first one, which the checks
themselves never come to. The rules follow the shape of the checks: in sequence, through a map,
along a list.
-/

namespace TimetableFeed

variable {ε φ α β : Type}

theorem toOption_eq_some {r : Except ε α} {a : α} : r.toOption = some a ↔ r = .ok a := by
  cases r with
  | ok b => simp [Except.toOption]
  | error e => simp [Except.toOption]

theorem exists_of_bind_ok {r : Except ε α} {f : α → Except ε β} {b : β} (h : r >>= f = .ok b) :
    ∃ a, r = .ok a ∧ f a = .ok b := by
  cases r with
  | error e => cases h
  | ok a => exact ⟨a, rfl, h⟩

theorem eq_ok_of_mapError {r : Except ε α} {f : ε → φ} {a : α} (h : r.mapError f = .ok a) :
    r = .ok a := by
  cases r with
  | error e => cases h
  | ok b => exact congrArg Except.ok (Except.ok.inj h)

theorem eq_map_of_forall₂ {f : α → β} {xs : List α} {ys : List β}
    (h : List.Forall₂ (fun x y => y = f x) xs ys) : ys = xs.map f := by
  induction h with
  | nil => rfl
  | cons hx _ ih => rw [hx, ih, List.map_cons]

/-- Nothing comes from the items of a list if and only if each of them is good. -/
theorem flatMap_zipIdx_eq_nil_iff {f : Nat → α → List β} {Good : α → Prop}
    (h : ∀ index x, f index x = [] ↔ Good x) (xs : List α) :
    (xs.zipIdx.flatMap fun x => f x.2 x.1) = [] ↔ ∀ x ∈ xs, Good x := by
  rw [List.flatMap_eq_nil_iff]
  constructor
  · intro hnil x hx
    obtain ⟨index, hindex⟩ := List.mem_iff_getElem?.mp hx
    exact (h index x).mp (hnil (x, index) (List.mk_mem_zipIdx_iff_getElem?.mpr hindex))
  · intro hgood x hx
    exact (h x.2 x.1).mpr (hgood x.1 (List.fst_mem_of_mem_zipIdx hx))

/-- The result is the first of the faults, or if there are none a value that is good. -/
inductive Judged (Good : α → Prop) : List ε → Except ε α → Prop where
  | ok {a : α} (h : Good a) : Judged Good [] (.ok a)
  | error (e : ε) (rest : List ε) : Judged Good (e :: rest) (.error e)

namespace Judged

variable {faults more : List ε} {Good : α → Prop} {Fine : β → Prop} {r : Except ε α}

theorem good {a : α} (h : Judged Good faults (.ok a)) : Good a := by
  cases h with
  | ok h => exact h

theorem succeeds_iff (h : Judged Good faults r) : (∃ a, r = .ok a) ↔ faults = [] := by
  cases h with
  | ok h => simp
  | error e rest => simp

theorem fails_iff (h : Judged Good faults r) (e : ε) : r = .error e ↔ faults.head? = some e := by
  cases h with
  | ok h => simp
  | error e' rest => simp

theorem mono (h : Judged Good faults r) {Better : α → Prop} (hb : ∀ a, Good a → Better a) :
    Judged Better faults r := by
  cases h with
  | ok h => exact .ok (hb _ h)
  | error e rest => exact .error e rest

/-- In sequence: the faults of the second checks come behind those of the first. -/
theorem bind (h : Judged Good faults r) {k : α → Except ε β}
    (hk : ∀ a, Good a → Judged Fine more (k a)) : Judged Fine (faults ++ more) (r >>= k) := by
  cases h with
  | ok h => exact hk _ h
  | error e rest => exact .error e (rest ++ more)

theorem map (h : Judged Good faults r) {f : α → β} (hf : ∀ a, Good a → Fine (f a)) :
    Judged Fine faults (r.map f) := by
  cases h with
  | ok h => exact .ok (hf _ h)
  | error e rest => exact .error e rest

/-- The last checks of a sequence, and the value that is made of what they give. -/
theorem bind_pure (h : Judged Good faults r) {f : α → β} (hf : ∀ a, Good a → Fine (f a)) :
    Judged Fine faults (r >>= fun a => pure (f a)) := h.map hf

theorem mapError (h : Judged Good faults r) (f : ε → φ) :
    Judged Good (faults.map f) (r.mapError f) := by
  cases h with
  | ok h => exact .ok h
  | error e rest => exact .error (f e) (rest.map f)

/-- Along a list, the items of which are numbered from `index` on. `walk` is any recursion that
checks the first item and then the rest. -/
theorem along {check : Nat → α → Except ε β} (walk : Nat → List α → Except ε (List β))
    (hnil : ∀ index, walk index [] = .ok [])
    (hcons : ∀ index x rest, walk index (x :: rest) = (do
      let first ← check index x
      let others ← walk (index + 1) rest
      return first :: others))
    {faultsOf : Nat → α → List ε} {Matches : α → β → Prop}
    (h : ∀ index x, Judged (Matches x) (faultsOf index x) (check index x)) :
    ∀ (xs : List α) (index : Nat),
      Judged (List.Forall₂ Matches xs) ((xs.zipIdx index).flatMap fun x => faultsOf x.2 x.1)
        (walk index xs) := by
  intro xs
  induction xs with
  | nil =>
      intro index
      rw [hnil]
      exact ok .nil
  | cons x rest ih =>
      intro index
      rw [hcons, List.zipIdx_cons, List.flatMap_cons]
      refine (h index x).bind fun b hb => ?_
      exact (ih (index + 1)).bind_pure fun bs hbs => .cons hb hbs

end Judged

end TimetableFeed
