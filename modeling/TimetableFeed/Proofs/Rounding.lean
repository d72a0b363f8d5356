import Mathlib.Algebra.Order.Ring.Nat
import TimetableFeed.Time.Duration

/-!
# Bounds of rounded numbers

Rounding to the format keeps the order: what lies below a value of the format is not rounded above
it, and what lies above is not rounded below. The values that bound a number are given as
`k * 2 ^ j` units with `k` below 2⁵³. With such bounds follows which numbers of days make a duration,
although the microseconds are rounded twice.

Main definitions: `Rounded`, `Binary64.IsCountable`. Main statements: `Binary64.ofRatio_rounded`,
`Duration.ofDays_ok_iff`.
-/

namespace TimetableFeed

/-! ## Powers of two and quotients -/

theorem twoPow_pos (n : Nat) : 0 < twoPow n := Nat.pow_pos (by decide)

theorem twoPow_add (m n : Nat) : twoPow (m + n) = twoPow m * twoPow n := Nat.pow_add 2 m n

theorem twoPow_le {m n : Nat} (h : m ≤ n) : twoPow m ≤ twoPow n :=
  Nat.pow_le_pow_right (by decide) h

theorem twoPow_dvd {m n : Nat} (h : m ≤ n) : twoPow m ∣ twoPow n := Nat.pow_dvd_pow 2 h

theorem lt_of_twoPow_lt {m n : Nat} (h : twoPow m < twoPow n) : m < n :=
  (Nat.pow_lt_pow_iff_right (by decide)).mp h

theorem roundDiv_le {num den bound : Nat} (h : num ≤ bound * den) : roundDiv num den ≤ bound := by
  have hquotient : num / den ≤ bound := Nat.div_le_of_le_mul (by rwa [Nat.mul_comm])
  unfold roundDiv
  dsimp only
  split
  · exact hquotient
  · rename_i hup
    -- rounding up needs a remainder, so the quotient is less than the bound
    have hne : num / den ≠ bound := by
      rintro rfl
      have hsum := Nat.div_add_mod num den
      rw [Nat.mul_comm] at hsum
      have hzero : num % den = 0 := by omega
      rw [hzero] at hup
      rcases Nat.eq_zero_or_pos den with rfl | hpos
      · simp at hup
      · omega
    omega

theorem le_roundDiv {num den bound : Nat} (hden : 0 < den) (h : bound * den ≤ num) :
    bound ≤ roundDiv num den := by
  have hquotient : bound ≤ num / den := (Nat.le_div_iff_mul_le hden).mpr h
  unfold roundDiv
  dsimp only
  split <;> omega

/-! ## Rounding to the format -/

/-- The mantissa and the exponent are those of `units / den` rounded to the format: nothing of the
format lies between the two values. -/
structure Rounded (units den mantissa exponent : Nat) : Prop where
  mantissa_lt : mantissa < twoPow 53
  exponent_le : ∀ k j, k < twoPow 53 → units ≤ k * twoPow j * den → exponent ≤ j
  le : ∀ k j, k < twoPow 53 → units ≤ k * twoPow j * den → mantissa * twoPow exponent ≤ k * twoPow j
  ge : ∀ k j, k < twoPow 53 → k * twoPow j * den ≤ units → k * twoPow j ≤ mantissa * twoPow exponent

/-- The exponent that a quotient is rounded with at first. -/
def leastExponent (units den : Nat) : Nat := (units / den).log2 - 52

theorem le_units {units den : Nat} (h : 0 < leastExponent units den) :
    twoPow 52 * twoPow (leastExponent units den) ≤ units / den := by
  unfold leastExponent at h ⊢
  have hne : units / den ≠ 0 := by
    intro hzero
    rw [hzero] at h
    cases h
  have hpow : twoPow (units / den).log2 ≤ units / den := Nat.log2_self_le hne
  rw [← twoPow_add]
  exact Nat.le_trans (twoPow_le (by omega)) hpow

theorem units_lt {units den : Nat} (hden : 0 < den) :
    units < twoPow 53 * (den * twoPow (leastExponent units den)) := by
  unfold leastExponent
  have hquotient : units / den < twoPow ((units / den).log2 + 1) := Nat.lt_log2_self
  have hle : twoPow ((units / den).log2 + 1) ≤ twoPow (53 + ((units / den).log2 - 52)) :=
    twoPow_le (by omega)
  have hlt : units / den < twoPow 53 * twoPow ((units / den).log2 - 52) := by
    rw [← twoPow_add]
    exact Nat.lt_of_lt_of_le hquotient hle
  rw [Nat.div_lt_iff_lt_mul hden] at hlt
  rwa [Nat.mul_assoc, Nat.mul_comm _ den] at hlt

section Raw

variable {units den k j : Nat}

theorem mul_twoPow_lt (hk : k < twoPow 53) {i j : Nat} (h : j < i) :
    k * twoPow j < twoPow 52 * twoPow i := by
  have hi : twoPow (j + 1) ≤ twoPow i := twoPow_le h
  calc k * twoPow j < twoPow 53 * twoPow j := Nat.mul_lt_mul_of_pos_right hk (twoPow_pos j)
    _ = twoPow 52 * twoPow (j + 1) := by rw [← twoPow_add, ← twoPow_add]; congr 1; omega
    _ ≤ twoPow 52 * twoPow i := Nat.mul_le_mul_left _ hi

theorem leastExponent_le (hk : k < twoPow 53) (h : units ≤ k * twoPow j * den) :
    leastExponent units den ≤ j := by
  by_contra hlt
  rw [Nat.not_le] at hlt
  have hquotient : units / den ≤ k * twoPow j := Nat.div_le_of_le_mul (by rwa [Nat.mul_comm])
  have hunits := le_units (Nat.lt_of_le_of_lt (Nat.zero_le j) hlt)
  have hpow := mul_twoPow_lt hk hlt
  omega

/-- A bound in units of its own power of two, as a bound of the mantissa. -/
theorem bound_eq (k i e den : Nat) : k * twoPow i * (den * twoPow e) = k * twoPow (e + i) * den := by
  rw [twoPow_add]
  ac_rfl

/-- Before it is normalised, the mantissa is that of a value which the bounds hold for. -/
theorem raw_le (hk : k < twoPow 53) (h : units ≤ k * twoPow j * den) :
    roundDiv units (den * twoPow (leastExponent units den)) * twoPow (leastExponent units den) ≤
      k * twoPow j := by
  obtain ⟨i, hi⟩ := Nat.exists_eq_add_of_le (leastExponent_le hk h)
  generalize leastExponent units den = e at hi
  subst hi
  rw [← bound_eq] at h
  calc roundDiv units (den * twoPow e) * twoPow e ≤ k * twoPow i * twoPow e :=
        Nat.mul_le_mul_right _ (roundDiv_le h)
    _ = k * twoPow (e + i) := by rw [twoPow_add]; ac_rfl

theorem raw_ge (hden : 0 < den) (hk : k < twoPow 53) (h : k * twoPow j * den ≤ units) :
    k * twoPow j ≤
      roundDiv units (den * twoPow (leastExponent units den)) *
        twoPow (leastExponent units den) := by
  have hpos : 0 < den * twoPow (leastExponent units den) := Nat.mul_pos hden (twoPow_pos _)
  by_cases hle : leastExponent units den ≤ j
  · obtain ⟨i, hi⟩ := Nat.exists_eq_add_of_le hle
    generalize leastExponent units den = e at hi hpos
    subst hi
    rw [← bound_eq] at h
    calc k * twoPow (e + i) = k * twoPow i * twoPow e := by rw [twoPow_add]; ac_rfl
      _ ≤ roundDiv units (den * twoPow e) * twoPow e :=
          Nat.mul_le_mul_right _ (le_roundDiv hpos h)
  · -- the quotient has more than 52 bits, and so has the mantissa
    rw [Nat.not_le] at hle
    have hunits := le_units (Nat.lt_of_le_of_lt (Nat.zero_le j) hle)
    rw [Nat.le_div_iff_mul_le hden, Nat.mul_assoc, Nat.mul_comm _ den] at hunits
    calc k * twoPow j ≤ twoPow 52 * twoPow (leastExponent units den) :=
          Nat.le_of_lt (mul_twoPow_lt hk hle)
      _ ≤ _ := Nat.mul_le_mul_right _ (le_roundDiv hpos hunits)

/-- A mantissa of 2⁵³ is halved. -/
theorem rounded_carry (hden : 0 < den)
    (hcarry : roundDiv units (den * twoPow (leastExponent units den)) = twoPow 53) :
    Rounded units den (twoPow 52) (leastExponent units den + 1) := by
  have hvalue : twoPow 52 * twoPow (leastExponent units den + 1) =
      roundDiv units (den * twoPow (leastExponent units den)) *
        twoPow (leastExponent units den) := by
    rw [hcarry, ← twoPow_add, ← twoPow_add]
    congr 1
    omega
  refine ⟨by decide, ?_, ?_, ?_⟩
  · intro k j hk h
    have hle := raw_le hk h
    have hlt : k * twoPow j < twoPow 53 * twoPow j := Nat.mul_lt_mul_of_pos_right hk (twoPow_pos j)
    rw [hcarry] at hle
    have hpow : twoPow (leastExponent units den) < twoPow j :=
      Nat.lt_of_mul_lt_mul_left (Nat.lt_of_le_of_lt hle hlt)
    exact lt_of_twoPow_lt hpow
  · intro k j hk h
    rw [hvalue]
    exact raw_le hk h
  · intro k j hk h
    rw [hvalue]
    exact raw_ge hden hk h

theorem rounded_plain (hden : 0 < den)
    (hplain : roundDiv units (den * twoPow (leastExponent units den)) ≠ twoPow 53) :
    Rounded units den (roundDiv units (den * twoPow (leastExponent units den)))
      (leastExponent units den) := by
  have hmost : roundDiv units (den * twoPow (leastExponent units den)) ≤ twoPow 53 :=
    roundDiv_le (Nat.le_of_lt (units_lt hden))
  refine ⟨Nat.lt_of_le_of_ne hmost hplain, ?_, ?_, ?_⟩
  · intro k j hk h
    exact leastExponent_le hk h
  · intro k j hk h
    exact raw_le hk h
  · intro k j hk h
    exact raw_ge hden hk h

end Raw

namespace Binary64

/-- A value with this mantissa and this exponent, infinite if the exponent is too large. -/
def capped (negative : Bool) (mantissa exponent : Nat) : Binary64 :=
  if exponent > 2045 then .infinite negative else .finite negative mantissa exponent

/-- The value nearest to `units / den` units: as `ofRatio`, for a number of units that need not be
a multiple of `one`. -/
def ofUnits (negative : Bool) (units den : Nat) : Binary64 :=
  let exponent := (units / den).log2 - 52
  let mantissa := roundDiv units (den * twoPow exponent)
  let (mantissa, exponent) :=
    if mantissa = twoPow 53 then (twoPow 52, exponent + 1) else (mantissa, exponent)
  if exponent > 2045 then .infinite negative else .finite negative mantissa exponent

theorem ofRatio_eq (negative : Bool) (num den : Nat) :
    ofRatio negative num den = ofUnits negative (num * one) den := rfl

/-- Rounding in steps: the mantissa for the least exponent, the carry, and the limit. -/
theorem ofUnits_eq (negative : Bool) {units den m e : Nat} (he : leastExponent units den = e)
    (hm : roundDiv units (den * twoPow e) = m) :
    ofUnits negative units den =
      if m = twoPow 53 then capped negative (twoPow 52) (e + 1) else capped negative m e := by
  unfold leastExponent at he
  unfold ofUnits capped
  dsimp only
  rw [he, hm]
  by_cases hcarry : m = twoPow 53
  · rw [if_pos hcarry, if_pos hcarry]
  · rw [if_neg hcarry, if_neg hcarry]

theorem ofUnits_capped (negative : Bool) (units : Nat) {den : Nat} (hden : 0 < den) :
    ∃ mantissa exponent, Rounded units den mantissa exponent ∧
      ofUnits negative units den = capped negative mantissa exponent := by
  rw [ofUnits_eq negative rfl rfl]
  by_cases hcarry : roundDiv units (den * twoPow (leastExponent units den)) = twoPow 53
  · refine ⟨_, _, rounded_carry hden hcarry, ?_⟩
    rw [if_pos hcarry]
  · refine ⟨_, _, rounded_plain hden hcarry, ?_⟩
    rw [if_neg hcarry]

/-- **Rounding keeps the order.** A quotient that a value of the format bounds is rounded to a finite
value, and all bounds of the quotient in the format hold for it. -/
theorem ofRatio_rounded (negative : Bool) {num den k j : Nat} (hden : 0 < den) (hk : k < twoPow 53)
    (hj : j ≤ 2045) (h : num * one ≤ k * twoPow j * den) :
    ∃ mantissa exponent, ofRatio negative num den = .finite negative mantissa exponent ∧
      Rounded (num * one) den mantissa exponent := by
  obtain ⟨mantissa, exponent, hrounded, hratio⟩ := ofUnits_capped negative (num * one) hden
  have hexponent : ¬ exponent > 2045 := by
    have hle := hrounded.exponent_le k j hk h
    omega
  rw [capped, if_neg hexponent, ← ofRatio_eq] at hratio
  exact ⟨mantissa, exponent, hratio, hrounded⟩

/-- The mantissa of a finite value is one of the format. -/
def HasMantissa : Binary64 → Prop
  | .finite _ mantissa _ => mantissa < twoPow 53
  | _ => True

theorem hasMantissa_ofRatio (negative : Bool) (num : Nat) {den : Nat} (hden : 0 < den) :
    (ofRatio negative num den).HasMantissa := by
  obtain ⟨mantissa, exponent, hrounded, hratio⟩ := ofUnits_capped negative (num * one) hden
  rw [ofRatio_eq, hratio, capped]
  split
  · trivial
  · exact hrounded.mantissa_lt

theorem hasMantissa_ofDecimal (negative : Bool) (digits : Nat) (scale : Int) :
    (ofDecimal negative digits scale).HasMantissa := by
  have hpow : ∀ n, 0 < tenPow n := fun n => Nat.pow_pos (by decide)
  unfold ofDecimal
  split
  · exact twoPow_pos 53
  · split
    · trivial
    · split
      · exact hasMantissa_ofRatio _ _ Nat.one_pos
      · exact hasMantissa_ofRatio _ _ (hpow _)

/-! ## Sums and products -/

theorem one_eq : one = twoPow 1074 := rfl

theorem one_pos : 0 < one := twoPow_pos 1074

def signed (negative : Bool) (i : Int) : Int := if negative then -i else i

@[simp] theorem signed_signed (negative : Bool) (i : Int) :
    signed negative (signed negative i) = i := by
  cases negative <;> simp [signed]

theorem signed_mul (negative : Bool) (i j : Int) :
    signed negative i * j = signed negative (i * j) := by
  cases negative with
  | false => rfl
  | true => exact Int.neg_mul i j

theorem split_whole (negative : Bool) (mantissa exponent : Nat) :
    (split negative mantissa exponent).whole =
      signed negative ((mantissa * twoPow exponent / one : Nat) : Int) := by
  unfold split signed
  dsimp only

theorem split_fraction (negative : Bool) (mantissa exponent : Nat) :
    (split negative mantissa exponent).fraction =
      ofRatio negative (mantissa * twoPow exponent % one) one := by
  unfold split
  dsimp only

/-- The whole number nearest to so many units. -/
def nearest (total : Int) : Int :=
  let quotient := total / one
  let twice := 2 * (total % one)
  if twice < one ∨ (twice = one ∧ quotient % 2 = 0) then quotient else quotient + 1

theorem roundSum_eq (whole : Int) (negative : Bool) (mantissa exponent : Nat) :
    roundSum whole negative mantissa exponent =
      nearest (whole * one + units negative mantissa exponent) := rfl

theorem nearest_between {total low high : Int} (hlow : low * one ≤ total)
    (hhigh : total ≤ high * one) : low ≤ nearest total ∧ nearest total ≤ high := by
  have hpos : (0 : Int) < one := Int.natCast_pos.mpr one_pos
  unfold nearest
  dsimp only
  generalize (one : Int) = unit at hpos hlow hhigh
  have hquotient : low ≤ total / unit := Int.le_ediv_of_mul_le hpos hlow
  have hquotient' : total / unit ≤ high := Int.ediv_le_of_le_mul hpos hhigh
  split
  · exact ⟨hquotient, hquotient'⟩
  · rename_i hup
    -- rounding up needs a remainder, so the quotient is less than the bound
    have hne : total / unit ≠ high := by
      rintro rfl
      have hsum := Int.mul_ediv_add_emod total unit
      have hnonneg := Int.emod_nonneg total (Int.ne_of_gt hpos)
      rw [Int.mul_comm] at hsum
      omega
    omega

/-- What is added to a whole number of the same sign is rounded between the bounds of its
magnitude. -/
theorem roundSum_between (negative : Bool) (whole : Int) {low high : Int} {mantissa exponent : Nat}
    (hlow : low * one ≤ (mantissa * twoPow exponent : Nat))
    (hhigh : (mantissa * twoPow exponent : Nat) ≤ high * one) :
    whole + low ≤ signed negative (roundSum (signed negative whole) negative mantissa exponent) ∧
      signed negative (roundSum (signed negative whole) negative mantissa exponent) ≤
        whole + high := by
  rw [roundSum_eq]
  unfold units signed
  dsimp only
  generalize ((mantissa * twoPow exponent : Nat) : Int) = magnitude at hlow hhigh
  cases negative with
  | false =>
      simp only [Bool.false_eq_true, if_false]
      apply nearest_between
      · rw [Int.add_mul]
        omega
      · rw [Int.add_mul]
        omega
  | true =>
      simp only [if_true]
      have hbetween : -(whole + high) ≤ nearest (-whole * one + -magnitude) ∧
          nearest (-whole * one + -magnitude) ≤ -(whole + low) := by
        apply nearest_between
        · rw [Int.neg_mul, Int.neg_mul, Int.add_mul]
          omega
        · rw [Int.neg_mul, Int.neg_mul, Int.add_mul]
          omega
      omega

theorem mul_finite (a b : Bool) (m e n f : Nat) :
    (Binary64.finite a m e).mul (.finite b n f) =
      ofRatio (a != b) (m * n * twoPow (e + f)) (one * one) := rfl

/-- The microseconds of a day are a value of the format. -/
theorem exists_dayMicros : ∃ n f, ofInt dayMicros = .finite false n f ∧
    n * twoPow f = 86400000000 * one :=
  ⟨5662310400000000, 1058, by decide +kernel, by decide +kernel⟩

/-! ## Parts of a day -/

theorem product_eq {m e n f factor unit : Nat} (h : n * twoPow f = factor * unit) :
    m * n * twoPow (e + f) * unit = m * twoPow e * factor * (unit * unit) := by
  calc m * n * twoPow (e + f) * unit = m * twoPow e * (n * twoPow f) * unit := by
        rw [twoPow_add]
        ac_rfl
    _ = m * twoPow e * factor * (unit * unit) := by
        rw [h]
        ac_rfl

/-- The microseconds of a finite part of a day, rounded. -/
theorem micros_rounded (negative : Bool) {m e : Nat} (hpart : m * twoPow e ≤ one) :
    ∃ mantissa exponent,
      (finite negative m e).mul (ofInt dayMicros) = .finite negative mantissa exponent ∧
      (∀ k j, k < twoPow 53 → m * twoPow e * 86400000000 ≤ k * twoPow j →
        mantissa * twoPow exponent ≤ k * twoPow j) ∧
      ∀ k j, k < twoPow 53 → k * twoPow j ≤ m * twoPow e * 86400000000 →
        k * twoPow j ≤ mantissa * twoPow exponent := by
  obtain ⟨n, f, hday, hmicros⟩ := exists_dayMicros
  have hproduct : m * n * twoPow (e + f) * one = m * twoPow e * 86400000000 * (one * one) :=
    product_eq hmicros
  have hpos : 0 < one * one := Nat.mul_pos one_pos one_pos
  have hmost : m * n * twoPow (e + f) * one ≤ 86400000000 * twoPow 1074 * (one * one) := by
    rw [hproduct, Nat.mul_comm 86400000000]
    exact Nat.mul_le_mul_right _ (Nat.mul_le_mul_right _ hpart)
  obtain ⟨mantissa, exponent, hratio, hrounded⟩ :=
    ofRatio_rounded negative hpos (by decide) (by decide) hmost
  refine ⟨mantissa, exponent, ?_, ?_, ?_⟩
  · rw [hday, mul_finite, Bool.bne_false]
    exact hratio
  · intro k j hk h
    refine hrounded.le k j hk ?_
    rw [hproduct]
    exact Nat.mul_le_mul_right _ h
  · intro k j hk h
    refine hrounded.ge k j hk ?_
    rw [hproduct]
    exact Nat.mul_le_mul_right _ h

/-- The microseconds of a part of a day that is given in units: no more than a day has, none for no
part, and if the part is 2⁻²³ days off both ends, 8192 microseconds off them. -/
theorem part_micros (negative : Bool) {part : Nat} (hpart : part < one) :
    ∃ m e, (ofRatio negative part one).mul (ofInt dayMicros) = .finite negative m e ∧
      m * twoPow e ≤ 86400000000 * one ∧
      (part = 0 → m * twoPow e = 0) ∧
      (twoPow 1051 ≤ part → 8192 * one ≤ m * twoPow e) ∧
      (part + twoPow 1051 ≤ one → m * twoPow e ≤ 86399991808 * one) := by
  have hone : one = 1 * twoPow 1074 := by rw [Nat.one_mul, one_eq]
  have hunit : one = 8388608 * twoPow 1051 := by decide +kernel
  have hlarge : 8192 * one = 1 * twoPow 1087 := by decide +kernel
  have hmost : part * one ≤ 1 * twoPow 1074 * one :=
    Nat.mul_le_mul_right _ (hone ▸ Nat.le_of_lt hpart)
  obtain ⟨m', e', hfraction, hrounded⟩ :=
    ofRatio_rounded negative one_pos (by decide) (by decide) hmost
  have hle : ∀ k j, k < twoPow 53 → part ≤ k * twoPow j → m' * twoPow e' ≤ k * twoPow j := by
    intro k j hk h
    exact hrounded.le k j hk (Nat.mul_le_mul_right _ h)
  have hge : ∀ k j, k < twoPow 53 → k * twoPow j ≤ part → k * twoPow j ≤ m' * twoPow e' := by
    intro k j hk h
    exact hrounded.ge k j hk (Nat.mul_le_mul_right _ h)
  have hwhole : m' * twoPow e' ≤ one := by
    rw [hone]
    exact hle 1 1074 (by decide) (hone ▸ Nat.le_of_lt hpart)
  obtain ⟨m, e, hproduct, hle', hge'⟩ := micros_rounded negative hwhole
  refine ⟨m, e, ?_, ?_, ?_, ?_, ?_⟩
  · rw [hfraction]
    exact hproduct
  · rw [one_eq]
    refine hle' 86400000000 1074 (by decide) ?_
    rw [← one_eq, Nat.mul_comm 86400000000]
    exact Nat.mul_le_mul_right _ hwhole
  · intro hzero
    have hnone := hle 0 0 (by decide) (by omega)
    have hnone' := hle' 0 0 (by decide) (by omega)
    omega
  · intro hsome
    have hsome' := hge 1 1051 (by decide) (by omega)
    rw [hlarge]
    exact hge' 1 1087 (by decide) (by omega)
  · intro hrest
    have hrest' := hle 8388607 1051 (by decide) (by omega)
    rw [one_eq]
    refine hle' 86399991808 1074 (by decide) ?_
    rw [← one_eq]
    omega

/-! ## Numbers of days -/

/-- The value is finite, no less than −999999999 and less than 1000000000. -/
def IsCountable : Binary64 → Prop
  | .finite negative mantissa exponent =>
    -999999999 * (one : Int) ≤ units negative mantissa exponent ∧
      units negative mantissa exponent < 1000000000 * (one : Int)
  | _ => False

/-- A value of the format that is as large as this has no part of a day below 2⁻²³. -/
theorem exponent_of_large {mantissa exponent : Nat} (hmantissa : mantissa < twoPow 53)
    (hlarge : 999999999 * one ≤ mantissa * twoPow exponent) : 1051 ≤ exponent := by
  by_contra hsmall
  have hpow : twoPow exponent ≤ twoPow 1050 := twoPow_le (by omega)
  have hvalue : mantissa * twoPow exponent < twoPow 53 * twoPow 1050 :=
    Nat.lt_of_le_of_lt (Nat.mul_le_mul_left _ hpow)
      (Nat.mul_lt_mul_of_pos_right hmantissa (twoPow_pos 1050))
  have hlimit : twoPow 53 * twoPow 1050 ≤ 999999999 * one := by decide +kernel
  omega

theorem part_of_large {mantissa exponent : Nat} (hmantissa : mantissa < twoPow 53)
    (hlarge : 999999999 * one ≤ mantissa * twoPow exponent) :
    (0 < mantissa * twoPow exponent % one → twoPow 1051 ≤ mantissa * twoPow exponent % one) ∧
      mantissa * twoPow exponent % one + twoPow 1051 ≤ one := by
  have hexponent := exponent_of_large hmantissa hlarge
  have hunit : one = twoPow 1051 * 8388608 := by decide +kernel
  have hvalue : twoPow 1051 ∣ mantissa * twoPow exponent :=
    Nat.dvd_mul_left_of_dvd (twoPow_dvd hexponent) mantissa
  have hpart : twoPow 1051 ∣ mantissa * twoPow exponent % one :=
    (Nat.dvd_mod_iff (Dvd.intro _ hunit.symm)).mpr hvalue
  have hlt : mantissa * twoPow exponent % one < one := Nat.mod_lt _ one_pos
  obtain ⟨parts, hparts⟩ := hpart
  have hpos := twoPow_pos 1051
  rw [hparts, hunit] at hlt ⊢
  have hfew : parts < 8388608 := Nat.lt_of_mul_lt_mul_left hlt
  constructor
  · intro hsome
    exact Nat.le_mul_of_pos_right _ (Nat.pos_of_mul_pos_left hsome)
  · calc twoPow 1051 * parts + twoPow 1051 = twoPow 1051 * (parts + 1) := (Nat.mul_succ _ _).symm
      _ ≤ twoPow 1051 * 8388608 := Nat.mul_le_mul_left _ hfew

end Binary64

namespace Duration

open Binary64

theorem ofMicros_ok_iff (micros : Int) : (∃ d, ofMicros? micros = .ok d) ↔
    -999999999 * dayMicros ≤ micros ∧ micros < 1000000000 * dayMicros := by
  unfold ofMicros?
  split
  · rename_i h
    exact iff_of_true ⟨_, rfl⟩ h
  · rename_i h
    refine iff_of_false ?_ h
    rintro ⟨d, hd⟩
    dsimp only at hd
    split at hd <;> cases hd

/-- A finite product of the part of a day is added to the whole days. The cases are those of the
definition, since its text does not unfold: the format's unit would be computed. -/
theorem ofDays_finite {x : Binary64} {negative sign : Bool} {mantissa exponent m e : Nat}
    (hx : x = .finite negative mantissa exponent)
    (h : (split negative mantissa exponent).fraction.mul (ofInt dayMicros) = .finite sign m e) :
    ofDays? x =
      ofMicros? (roundSum ((split negative mantissa exponent).whole * dayMicros) sign m e) := by
  fun_cases ofDays? x with
  | case1 => cases hx
  | case2 => cases hx
  | case3 _ _ _ parts whole sign' m' e' hproduct =>
      cases hx
      have heq : Binary64.finite sign m e = .finite sign' m' e' := h.symm.trans hproduct
      cases heq
      rfl
  | case4 _ _ _ parts whole hproduct =>
      cases hx
      exact (hproduct sign m e h).elim

/-- Bounds of the microseconds that a number of days comes to, by the whole days and by the units of
the rest. -/
structure Near (whole part : Nat) (micros : Int) : Prop where
  lower : whole * dayMicros ≤ micros
  upper : micros ≤ (whole + 1) * dayMicros
  eq_of_whole : part = 0 → micros = whole * dayMicros
  lower_of_part : twoPow 1051 ≤ part → whole * dayMicros + 8192 ≤ micros
  upper_of_part : part + twoPow 1051 ≤ one → micros ≤ whole * dayMicros + 86399991808

theorem Near.nonneg {whole part : Nat} {micros : Int} (h : Near whole part micros) :
    0 ≤ micros := by
  have hlower := h.lower
  unfold dayMicros at hlower
  omega

theorem ofDays_near (negative : Bool) (mantissa exponent : Nat) :
    ∃ micros, ofDays? (.finite negative mantissa exponent) = ofMicros? (signed negative micros) ∧
      Near (mantissa * twoPow exponent / one) (mantissa * twoPow exponent % one) micros := by
  have hpart : mantissa * twoPow exponent % one < one := Nat.mod_lt _ Binary64.one_pos
  obtain ⟨m, e, hproduct, hday, hnone, hsome, hrest⟩ := part_micros negative hpart
  rw [← split_fraction] at hproduct
  have hofDays := ofDays_finite rfl hproduct
  rw [split_whole, signed_mul] at hofDays
  generalize mantissa * twoPow exponent / one = whole at hofDays ⊢
  generalize mantissa * twoPow exponent % one = part at hnone hsome hrest ⊢
  refine ⟨signed negative (roundSum (signed negative (whole * dayMicros)) negative m e),
    by rw [hofDays, signed_signed], ?_⟩
  have hbetween : ∀ {low high : Nat}, low * one ≤ m * twoPow e → m * twoPow e ≤ high * one →
      whole * dayMicros + low ≤
          signed negative (roundSum (signed negative (whole * dayMicros)) negative m e) ∧
        signed negative (roundSum (signed negative (whole * dayMicros)) negative m e) ≤
          whole * dayMicros + high := fun hlow hhigh =>
    roundSum_between negative _ (by exact_mod_cast hlow) (by exact_mod_cast hhigh)
  have hzero : 0 * one ≤ m * twoPow e := by omega
  constructor
  · have h := (hbetween hzero hday).1
    omega
  · have h := (hbetween hzero hday).2
    rw [Int.add_mul, Int.one_mul]
    exact h
  · intro hpart
    have h := hbetween hzero (by rw [hnone hpart, Nat.zero_mul])
    omega
  · intro hpart
    exact (hbetween (hsome hpart) hday).1
  · intro hpart
    exact (hbetween hzero (hrest hpart)).2

section Limits

variable {mantissa exponent : Nat} {micros : Int}

/-- The upper limit is the number's own: the last day below it leaves room for a rounding error. -/
theorem near_lt_iff (hmantissa : mantissa < twoPow 53)
    (h : Near (mantissa * twoPow exponent / one) (mantissa * twoPow exponent % one) micros) :
    micros < 1000000000 * dayMicros ↔ mantissa * twoPow exponent < 1000000000 * one := by
  rw [← Nat.div_lt_iff_lt_mul Binary64.one_pos]
  have hlower := h.lower
  have hupper := h.upper
  unfold dayMicros at hlower hupper ⊢
  constructor
  · intro hmicros
    omega
  · intro hwhole
    rcases Nat.lt_or_eq_of_le (Nat.le_of_lt_succ hwhole) with hless | hlast
    · omega
    · have hlarge : 999999999 * one ≤ mantissa * twoPow exponent :=
        (Nat.le_div_iff_mul_le Binary64.one_pos).mp (Nat.le_of_eq hlast.symm)
      have hroom := h.upper_of_part (part_of_large hmantissa hlarge).2
      unfold dayMicros at hroom
      omega

/-- The lower limit is a whole number of days, and what exceeds it does so by more than a rounding
error. -/
theorem near_le_iff (hmantissa : mantissa < twoPow 53)
    (h : Near (mantissa * twoPow exponent / one) (mantissa * twoPow exponent % one) micros) :
    micros ≤ 999999999 * dayMicros ↔ mantissa * twoPow exponent ≤ 999999999 * one := by
  have hsum := Nat.div_add_mod (mantissa * twoPow exponent) one
  have hlower := h.lower
  have hupper := h.upper
  have hwhole := h.eq_of_whole
  have hpart := h.lower_of_part
  unfold dayMicros at hlower hupper hwhole hpart ⊢
  constructor
  · intro hmicros
    by_contra hmore
    rw [Nat.not_le] at hmore
    have hlast : 999999999 ≤ mantissa * twoPow exponent / one :=
      (Nat.le_div_iff_mul_le Binary64.one_pos).mpr (Nat.le_of_lt hmore)
    have heq : mantissa * twoPow exponent / one = 999999999 := by omega
    rw [heq, Nat.mul_comm] at hsum
    have hoff := hpart ((part_of_large hmantissa (Nat.le_of_lt hmore)).1 (by omega))
    omega
  · intro hvalue
    have hlast : mantissa * twoPow exponent / one ≤ 999999999 :=
      Nat.div_le_of_le_mul (by rwa [Nat.mul_comm one])
    rcases Nat.lt_or_eq_of_le hlast with hless | heq
    · omega
    · rw [heq, Nat.mul_comm] at hsum
      have hnone := hwhole (by omega)
      omega

end Limits

/-- **A number of the format is the length of a duration exactly if it is countable.** The rounding
of the microseconds takes no number over a limit, in either direction. -/
theorem ofDays_ok_iff {x : Binary64} (hx : x.HasMantissa) :
    (∃ d, ofDays? x = .ok d) ↔ x.IsCountable := by
  cases x with
  | nan =>
      refine iff_of_false ?_ id
      rintro ⟨d, hd⟩
      cases hd
  | infinite negative =>
      refine iff_of_false ?_ id
      rintro ⟨d, hd⟩
      cases hd
  | finite negative mantissa exponent =>
      obtain ⟨micros, hofDays, hnear⟩ := ofDays_near negative mantissa exponent
      have hlt := near_lt_iff hx hnear
      have hle := near_le_iff hx hnear
      have hnonneg := hnear.nonneg
      rw [hofDays, ofMicros_ok_iff]
      unfold IsCountable units signed
      dsimp only
      unfold dayMicros at hlt hle ⊢
      cases negative with
      | false =>
          simp only [Bool.false_eq_true, if_false]
          omega
      | true =>
          simp only [if_true]
          omega

end Duration

end TimetableFeed
