import WitnessLedger.Decimal.Arithmetic
import WitnessLedger.Proofs.Number.Rounding
import Mathlib.Algebra.Order.Field.Basic
import Mathlib.Data.List.Induction
import Mathlib.Data.Rat.Cast.Order
import Mathlib.Tactic.FieldSimp
import Mathlib.Tactic.Linarith
import Mathlib.Tactic.Ring

/-!
# Sums of decimals

A decimal denotes a rational number, its value.  A sum that fits the mantissa has the sum of the
values; one that does not gives up places, and is then off by at most a half, but is itself no
small number.  Adding up a list is exact as long as each of its partial sums fits.

## Key results

- `fit?_cases`: a number is fitted exactly, or it is large and off by at most a half
- `add?_cases`: the same of a sum
- `abs_lt_iff_of_add?`: rounding never carries a sum across a small bound
- `value_foldlM_add?`: adding up a list whose partial sums fit is exact
- `abs_foldlM_add?_sub_le`: adding up any list is off by at most a half for each number
-/

namespace WitnessLedger.Decimal

/-! ## Values -/

/-- The number that a decimal denotes. -/
def value (d : Decimal) : ℚ := d.signed / 10 ^ d.scale

@[simp] theorem value_zero : zero.value = 0 := by simp [value, signed, zero]

theorem signedAt_eq {d : Decimal} {scale : Nat} (h : d.scale ≤ scale) :
    (d.signedAt scale : ℚ) = d.value * 10 ^ scale := by
  have hpow : (10 : ℚ) ^ scale = 10 ^ (scale - d.scale) * 10 ^ d.scale := by
    rw [← pow_add, Nat.sub_add_cancel h]
  rw [signedAt, value, Nat.pow_eq, hpow]
  push_cast
  field_simp

/-- Decimals compare as their values do. -/
theorem lt_iff (a b : Decimal) : a.lt b = true ↔ a.value < b.value := by
  have hpow : (0 : ℚ) < 10 ^ maxScale := by positivity
  rw [lt, decide_eq_true_iff, ← Int.cast_lt (R := ℚ), amount, amount, signedAt_eq a.scale_le,
    signedAt_eq b.scale_le, mul_lt_mul_iff_left₀ hpow]

theorem value_of_mantissa_eq_zero {d : Decimal} (h : d.mantissa = 0) : d.value = 0 := by
  simp [value, signed, h]

theorem value_absolute (d : Decimal) : d.absolute.value = |d.value| := by
  have hpow : (0 : ℚ) < 10 ^ d.scale := by positivity
  cases hneg : d.negative <;>
    simp [value, signed, absolute, hneg, abs_div, abs_of_pos hpow]

theorem value_negated (d : Decimal) : d.negated.value = -d.value := by
  unfold negated
  split
  · next h => rw [value_of_mantissa_eq_zero h, neg_zero]
  · cases hneg : d.negative <;> simp [value, signed, hneg, neg_div]

theorem value_of_ofParts? {negative : Bool} {mantissa scale : Nat} {d : Decimal}
    (h : ofParts? negative mantissa scale = some d) :
    d.scale = scale ∧
      d.value = (if negative then -(mantissa : ℚ) else mantissa) / 10 ^ scale := by
  unfold ofParts? ofSignedParts? at h
  split at h
  · cases h
    by_cases hm : mantissa = 0 <;> cases negative <;> simp [value, signed, hm]
  · cases h

/-! ## Fitting -/

/-- An integer as its sign and its absolute value. -/
theorem signed_natAbs (n : Int) :
    (if decide (n < 0) then -(n.natAbs : ℚ) else n.natAbs) = n := by
  rw [Nat.cast_natAbs, Int.cast_abs]
  by_cases h : n < 0
  · have hneg : (n : ℚ) < 0 := mod_cast h
    simp [h, abs_of_neg hneg]
  · have hpos : (0 : ℚ) ≤ n := mod_cast not_lt.1 h
    simp [h, abs_of_nonneg hpos]

/-- Numbers of opposite signs but the same distance. -/
private theorem abs_signed_sub (negative : Bool) (x y : ℚ) :
    |(if negative then -x else x) - (if negative then -y else y)| = |x - y| := by
  cases negative
  · simp
  · rw [if_pos rfl, if_pos rfl, neg_sub_neg, abs_sub_comm]

/-- Parts that are in range are those of a decimal. -/
theorem exists_ofParts? {mantissa scale : Nat} (negative : Bool) (hm : mantissa < bound)
    (hs : scale ≤ maxScale) : ∃ d, ofParts? negative mantissa scale = some d := by
  cases h : ofParts? negative mantissa scale with
  | none => exact absurd ⟨hm, hs⟩ (ofParts?_eq_none_iff.1 h)
  | some d => exact ⟨d, rfl⟩

/-- A number whose mantissa fits keeps all its places. -/
theorem fit?_of_lt {n : Int} {scale : Nat} (hn : n.natAbs < bound) (hs : scale ≤ maxScale) :
    ∃ d, fit? n scale = some d ∧ d.scale = scale ∧ d.value = n / 10 ^ scale := by
  have hround : Number.roundHalfEven n.natAbs 1 = n.natAbs := by
    simpa using Number.roundHalfEven_mul n.natAbs Nat.one_pos
  obtain ⟨d, hparts⟩ := exists_ofParts? (n < 0) hn hs
  obtain ⟨hscale, hvalue⟩ := value_of_ofParts? hparts
  refine ⟨d, ?_, hscale, by rw [hvalue, signed_natAbs]⟩
  rw [fit?, List.range_succ_eq_map, List.findSome?_cons]
  simp only [Nat.pow_eq, pow_zero, hround, Nat.sub_zero, hparts]

/-- Places that are given up change a number by at most a half. -/
theorem abs_value_sub_le_of_fit? {n : Int} {scale : Nat} {d : Decimal}
    (h : fit? n scale = some d) : |d.value - n / 10 ^ scale| ≤ 1 / 2 := by
  obtain ⟨dropped, hmem, hparts⟩ := List.exists_of_findSome?_eq_some h
  have hle : dropped ≤ scale := Nat.lt_succ_iff.1 (List.mem_range.1 hmem)
  obtain ⟨-, hvalue⟩ := value_of_ofParts? hparts
  have hten : 0 < Nat.pow 10 dropped := Nat.pow_pos (by decide)
  have hround := Number.abs_roundHalfEven_sub_le n.natAbs hten
  generalize Number.roundHalfEven n.natAbs (Nat.pow 10 dropped) = r at hvalue hround
  rw [Nat.pow_eq, Nat.cast_pow, Nat.cast_ofNat] at hround
  -- with the kept places as unit, the two differ as the quotient and its rounding do
  have hkept : (1 : ℚ) ≤ 10 ^ (scale - dropped) := one_le_pow₀ (by norm_num)
  have hpow : (10 : ℚ) ^ scale = 10 ^ dropped * 10 ^ (scale - dropped) := by
    rw [← pow_add, Nat.add_sub_cancel' hle]
  have hsplit : d.value - n / 10 ^ scale =
      ((if decide (n < 0) then -(r : ℚ) else r) -
        (if decide (n < 0) then -(n.natAbs / 10 ^ dropped : ℚ) else n.natAbs / 10 ^ dropped)) /
        10 ^ (scale - dropped) := by
    rw [hvalue, ← signed_natAbs n, hpow]
    split <;> field_simp
  rw [hsplit, abs_div, abs_signed_sub, abs_of_pos (zero_lt_one.trans_le hkept)]
  exact (div_le_self (abs_nonneg _) hkept).trans hround

/-- A number that is fitted keeps its value, or it is large and changes by at most a half. -/
theorem fit?_cases {n : Int} {scale : Nat} {d : Decimal} (hs : scale ≤ maxScale)
    (h : fit? n scale = some d) :
    d.value = n / 10 ^ scale ∨
      (7 ≤ |(n / 10 ^ scale : ℚ)| ∧ |d.value - n / 10 ^ scale| ≤ 1 / 2) := by
  by_cases hn : n.natAbs < bound
  · obtain ⟨d', hfit, -, hvalue⟩ := fit?_of_lt hn hs
    rw [h, Option.some.injEq] at hfit
    exact .inl (hfit ▸ hvalue)
  · refine .inr ⟨?_, abs_value_sub_le_of_fit? h⟩
    have hbound : (bound : ℚ) ≤ |(n : ℚ)| := by
      rw [← Int.cast_abs, ← Nat.cast_natAbs]
      exact mod_cast not_lt.1 hn
    have hpow : (10 : ℚ) ^ scale ≤ 10 ^ maxScale := pow_le_pow_right₀ (by norm_num) hs
    have hlarge : (7 * 10 ^ maxScale : ℚ) ≤ bound := by norm_num [maxScale, bound]
    have hpos : (0 : ℚ) < 10 ^ scale := by positivity
    rw [abs_div, abs_of_pos hpos, le_div_iff₀ hpos]
    linarith

/-! ## Sums of two -/

variable {a b c : Decimal}

/-- A sum that is fitted, by the values of its parts. -/
private theorem cast_signedAt_add (a b : Decimal) :
    ((a.signedAt (max a.scale b.scale) + b.signedAt (max a.scale b.scale) : Int) : ℚ) /
      10 ^ max a.scale b.scale = a.value + b.value := by
  push_cast
  rw [signedAt_eq (le_max_left ..), signedAt_eq (le_max_right ..)]
  field_simp

/-- A sum has the sum of the values, or it is large and changes by at most a half. -/
theorem add?_cases (h : a.add? b = some c) :
    c.value = a.value + b.value ∨
      (7 ≤ |a.value + b.value| ∧ |c.value - (a.value + b.value)| ≤ 1 / 2) := by
  unfold add? at h
  split at h
  · next ha =>
    cases h
    exact .inl (by rw [value_of_mantissa_eq_zero ha, zero_add])
  · split at h
    · next hb =>
      cases h
      exact .inl (by rw [value_of_mantissa_eq_zero hb, add_zero])
    · simpa only [cast_signedAt_add] using fit?_cases (max_le a.scale_le b.scale_le) h

theorem abs_add?_sub_le (h : a.add? b = some c) : |c.value - (a.value + b.value)| ≤ 1 / 2 := by
  rcases add?_cases h with heq | ⟨-, hle⟩
  · rw [heq, sub_self, abs_zero]
    norm_num
  · exact hle

/-- Rounding never carries a sum across a small bound. -/
theorem abs_lt_iff_of_add? (h : a.add? b = some c) {limit : ℚ} (hlimit : limit ≤ 6) :
    |c.value| < limit ↔ |a.value + b.value| < limit := by
  rcases add?_cases h with heq | ⟨hlarge, hclose⟩
  · rw [heq]
  · -- both are beyond the bound
    have htriangle := abs_sub_abs_le_abs_sub (a.value + b.value) c.value
    rw [abs_sub_comm] at htriangle
    constructor <;> intro hlt <;> linarith

theorem abs_lt_iff_of_sub? (h : a.sub? b = some c) {limit : ℚ} (hlimit : limit ≤ 6) :
    |c.value| < limit ↔ |a.value - b.value| < limit := by
  rw [abs_lt_iff_of_add? h hlimit, value_negated, ← sub_eq_add_neg]

/-- A sum that fits at the places of its parts is exact. -/
theorem add?_of_lt (h : |a.value + b.value| * 10 ^ max a.scale b.scale < bound) :
    ∃ c, a.add? b = some c ∧ c.scale ≤ max a.scale b.scale ∧ c.value = a.value + b.value := by
  unfold add?
  split
  · next ha => exact ⟨b, rfl, le_max_right .., by rw [value_of_mantissa_eq_zero ha, zero_add]⟩
  · split
    · next hb => exact ⟨a, rfl, le_max_left .., by rw [value_of_mantissa_eq_zero hb, add_zero]⟩
    · have hscale : max a.scale b.scale ≤ maxScale := max_le a.scale_le b.scale_le
      have hpos : (0 : ℚ) < 10 ^ max a.scale b.scale := by positivity
      rw [← cast_signedAt_add, abs_div, abs_of_pos hpos, div_mul_cancel₀ _ hpos.ne',
        ← Int.cast_abs, ← Nat.cast_natAbs] at h
      obtain ⟨c, hfit, hc, hvalue⟩ := fit?_of_lt (Nat.cast_lt.1 h) hscale
      exact ⟨c, hfit, hc.le, by rw [hvalue, cast_signedAt_add]⟩

/-! ## Sums of many -/

/-- The exact sum of some decimals. -/
def sum (ds : List Decimal) : ℚ := (ds.map value).sum

/-- The largest number of places of some decimals. -/
def places (ds : List Decimal) : Nat := (ds.map scale).foldr max 0

/-- Whether the sum of the first ones of some decimals, however many, fits at the largest number
    of places among them. -/
def SumsFit (ds : List Decimal) : Prop :=
  ∀ n ≤ ds.length, |sum (ds.take n)| * 10 ^ places (ds.take n) < bound

instance (ds : List Decimal) : Decidable (SumsFit ds) :=
  inferInstanceAs (Decidable (∀ n ≤ ds.length, _))

theorem sum_concat (ds : List Decimal) (d : Decimal) : sum (ds ++ [d]) = sum ds + d.value := by
  simp [sum]

theorem places_concat (ds : List Decimal) (d : Decimal) :
    places (ds ++ [d]) = max (places ds) d.scale := by
  induction ds with
  | nil => simp [places]
  | cons x ds ih =>
    simp only [places, List.cons_append, List.map_cons, List.foldr_cons] at ih ⊢
    rw [ih, max_assoc]

/-- Adding up decimals whose partial sums fit succeeds and is exact. -/
theorem value_foldlM_add? {ds : List Decimal} (h : SumsFit ds) :
    ∃ t, ds.foldlM add? zero = some t ∧ t.scale ≤ places ds ∧ t.value = sum ds := by
  induction ds using List.reverseRecOn with
  | nil => exact ⟨zero, rfl, Nat.zero_le _, value_zero⟩
  | append_singleton ds d ih =>
    have hpart : SumsFit ds := by
      intro n hn
      have hfit := h n (by rw [List.length_append]; omega)
      rwa [List.take_append_of_le_length hn] at hfit
    obtain ⟨t, ht, hscale, hvalue⟩ := ih hpart
    have hmax : max t.scale d.scale ≤ places (ds ++ [d]) := by
      rw [places_concat]
      exact max_le_max_right _ hscale
    have hwhole := h _ (le_refl _)
    rw [List.take_length, sum_concat, ← hvalue] at hwhole
    have hsum : |t.value + d.value| * 10 ^ max t.scale d.scale < bound :=
      lt_of_le_of_lt (mul_le_mul_of_nonneg_left (pow_le_pow_right₀ (by norm_num) hmax)
        (abs_nonneg _)) hwhole
    obtain ⟨c, hc, hcscale, hcvalue⟩ := add?_of_lt hsum
    refine ⟨c, ?_, hcscale.trans hmax, by rw [hcvalue, hvalue, sum_concat]⟩
    rw [List.foldlM_append, ht]
    simpa using hc

/-- Adding decimals to a number is off by at most a half for each of them. -/
private theorem abs_foldlM_sub_le {ds : List Decimal} {a t : Decimal}
    (h : ds.foldlM add? a = some t) :
    |t.value - (a.value + sum ds)| ≤ ds.length / 2 := by
  induction ds generalizing a with
  | nil =>
    cases h
    simp [sum]
  | cons d ds ih =>
    rw [List.foldlM_cons, Option.bind_eq_bind, Option.bind_eq_some_iff] at h
    obtain ⟨b, hb, ht⟩ := h
    have hstep := abs_add?_sub_le hb
    have hsum : sum (d :: ds) = d.value + sum ds := by simp [sum]
    calc |t.value - (a.value + sum (d :: ds))|
        = |(t.value - (b.value + sum ds)) + (b.value - (a.value + d.value))| := by
          rw [hsum]
          congr 1
          ring
      _ ≤ |t.value - (b.value + sum ds)| + |b.value - (a.value + d.value)| := abs_add_le _ _
      _ ≤ ds.length / 2 + 1 / 2 := add_le_add (ih ht) hstep
      _ = (d :: ds).length / 2 := by
          rw [List.length_cons]
          push_cast
          ring

/-- Adding up decimals is off by at most a half for each of them after the first. -/
theorem abs_foldlM_add?_sub_le {ds : List Decimal} {t : Decimal}
    (h : ds.foldlM add? zero = some t) : |t.value - sum ds| ≤ (ds.length - 1 : Nat) / 2 := by
  cases ds with
  | nil =>
    cases h
    simp [sum]
  | cons d ds =>
    -- the first one is added to zero, which takes it as it is
    have hd : ds.foldlM add? d = some t := h
    have hsum : sum (d :: ds) = d.value + sum ds := by simp [sum]
    rw [hsum]
    exact abs_foldlM_sub_le hd

end WitnessLedger.Decimal
