/-!
# Members

Values under names, in their order. Where a name is repeated, the last value counts.
-/

namespace TimetableFeed

/-- Values under names. -/
abbrev Members (α : Type) := List (String × α)

namespace Members

variable {α : Type} {name : String} {value : α} {ms : Members α}

/-- The last value with the name. -/
def lookup (name : String) : Members α → Option α
  | [] => none
  | (key, value) :: rest => (lookup name rest).or (if key = name then some value else none)

theorem lookup_append (name : String) (xs ys : Members α) :
    lookup name (xs ++ ys) = (lookup name ys).or (lookup name xs) := by
  induction xs with
  | nil => simp [lookup]
  | cons member rest ih =>
    obtain ⟨key, value⟩ := member
    simp [lookup, ih, Option.or_assoc]

theorem mem_of_lookup (h : lookup name ms = some value) : (name, value) ∈ ms := by
  induction ms with
  | nil => cases h
  | cons member rest ih =>
      obtain ⟨key, other⟩ := member
      rw [lookup, Option.or_eq_some_iff] at h
      rcases h with h | ⟨-, h⟩
      · exact List.mem_cons_of_mem _ (ih h)
      · obtain ⟨rfl, heq⟩ := Option.ite_none_right_eq_some.mp h
        cases heq
        exact List.mem_cons_self

theorem lookup_ne_none (h : (name, value) ∈ ms) : lookup name ms ≠ none := by
  induction ms with
  | nil => cases h
  | cons member rest ih =>
      obtain ⟨key, other⟩ := member
      rw [lookup, Ne, Option.or_eq_none_iff]
      rintro ⟨hrest, hfirst⟩
      rcases List.mem_cons.mp h with heq | h
      · cases heq
        rw [if_pos rfl] at hfirst
        cases hfirst
      · exact ih h hrest

/-! ## Members without order -/

variable {key : String} {x x' : α} {ms' before after : Members α}

/-- At most one member has the name. -/
def Single (name : String) (ms : Members α) : Prop := (ms.map (·.1)).count name ≤ 1

theorem Single.perm (h : Single name ms) (hperm : ms.Perm ms') : Single name ms' := by
  unfold Single at h ⊢
  rwa [← (hperm.map (·.1)).count_eq]

/-- A member under another name is not counted. -/
theorem single_insert (hkey : key ≠ name) :
    Single name (before ++ (key, x) :: after) ↔ Single name (before ++ after) := by
  unfold Single
  rw [List.map_append, List.map_cons, List.count_append, List.count_cons_of_ne hkey,
    List.map_append, List.count_append]

/-- The value does not count. -/
theorem single_replace :
    Single name (before ++ (key, x) :: after) ↔ Single name (before ++ (key, x') :: after) := by
  unfold Single
  rw [List.map_append, List.map_cons, List.map_append, List.map_cons]

/-- The members behind the single one do not have its name. -/
theorem Single.lookup_member (h : Single name (before ++ (name, x) :: after)) :
    lookup name (before ++ (name, x) :: after) = some x := by
  have hafter : lookup name after = none := by
    cases hlookup : lookup name after with
    | none => rfl
    | some value =>
        have hmem : name ∈ after.map (·.1) := List.mem_map.mpr ⟨_, mem_of_lookup hlookup, rfl⟩
        have hpos : 0 < (after.map (·.1)).count name := List.count_pos_iff.mpr hmem
        unfold Single at h
        rw [List.map_append, List.map_cons, List.count_append, List.count_cons_self] at h
        omega
  rw [lookup_append, lookup, hafter, if_pos rfl]
  rfl

theorem Single.lookup_eq_some_iff (h : Single name ms) :
    lookup name ms = some value ↔ (name, value) ∈ ms := by
  constructor
  · exact mem_of_lookup
  · intro hmem
    obtain ⟨before, after, rfl⟩ := List.append_of_mem hmem
    exact h.lookup_member

theorem Single.lookup_perm (h : Single name ms) (hperm : ms.Perm ms') :
    lookup name ms = lookup name ms' := by
  apply Option.ext
  intro value
  rw [h.lookup_eq_some_iff, (h.perm hperm).lookup_eq_some_iff, hperm.mem_iff]

/-- A member under another name is not looked at. -/
theorem lookup_insert (hkey : key ≠ name) :
    lookup name (before ++ (key, x) :: after) = lookup name (before ++ after) := by
  rw [lookup_append, lookup, if_neg hkey, Option.or_none, lookup_append]

/-- A new value under a key: either it is what counts under the name, as the old one was, or what
counts is another value. -/
theorem lookup_replace (name key : String) (x x' : α) (before after : Members α) :
    (key = name ∧ lookup name (before ++ (key, x) :: after) = some x ∧
      lookup name (before ++ (key, x') :: after) = some x') ∨
    lookup name (before ++ (key, x) :: after) = lookup name (before ++ (key, x') :: after) := by
  by_cases hkey : key = name
  · simp only [lookup_append, lookup, if_pos hkey]
    cases lookup name after with
    | none => exact .inl ⟨hkey, rfl, rfl⟩
    | some value => exact .inr rfl
  · right
    rw [lookup_insert hkey, lookup_insert hkey]

end Members

end TimetableFeed
