import WitnessLedger.Double.Reader
import WitnessLedger.Double.Shortest
import WitnessLedger.Proofs.Double.Ratio
import WitnessLedger.Proofs.Text.Numeral
import Mathlib.Algebra.Order.Field.Power
import Mathlib.Data.Rat.Cast.Order
import Mathlib.Tactic.Linarith
import Mathlib.Tactic.Ring

/-!
# What rounds to a double

The numbers that round to a magnitude are those of the interval around it.  It reaches half way to
its neighbours, and has its ends where the significand is even.

## Key results

- `Magnitude.Interval.contains_iff`: the test on whole numbers is the one on rationals
- `Magnitude.ofRatio?_of_spans`: what lies in the interval of a magnitude rounds to it
- `Double.ofScientific_of_spans`: and so do decimal digits that denote such a number
-/

namespace WitnessLedger

namespace Magnitude

theorem one_pos : 0 < one := by
  unfold one
  generalize 1074 = n
  exact Nat.two_pow_pos n

theorem four_mul_one_pos : (0 : ℚ) < 4 * one := mul_pos (by norm_num) (Nat.cast_pos.2 one_pos)

/-! ## The exponent of a number of units -/

/-- The exponent is the one at which the number has its 53 bits. -/
theorem exponentFor_eq {u e : Nat} (hlt : u < 2 * leadingBit * 2 ^ e)
    (hle : e = 0 ∨ leadingBit * 2 ^ e ≤ u) : exponentFor u = e := by
  have hlt' := lt_of_exponentFor u
  have hpow : ∀ {i j : Nat}, i < j → 2 * leadingBit * 2 ^ i ≤ leadingBit * 2 ^ j := by
    intro i j hij
    calc 2 * leadingBit * 2 ^ i = leadingBit * 2 ^ (i + 1) := by rw [Nat.pow_succ]; ac_rfl
      _ ≤ leadingBit * 2 ^ j := Nat.mul_le_mul_left _ (Nat.pow_le_pow_right (by omega) hij)
  rcases Nat.lt_trichotomy (exponentFor u) e with h | h | h
  · have := hpow h
    omega
  · exact h
  · have := hpow h
    have := @le_of_exponentFor u (by omega)
    omega

/-! ## The interval of a magnitude -/

/-- Whether a number lies in the interval. -/
def Interval.Spans (i : Interval) (x : ℚ) : Prop :=
  if i.closed then i.low ≤ 4 * one * x ∧ 4 * one * x ≤ i.high
  else i.low < 4 * one * x ∧ 4 * one * x < i.high

/-- Zero lies in the interval of a magnitude that is zero. -/
theorem spans_zero {a : Magnitude} (h : a.significand = 0) : a.interval.Spans 0 := by
  have hclosed : a.interval.closed = true := by rw [interval, h]; rfl
  have hunits : a.units = 0 := by rw [units, h, Nat.zero_mul]
  have hlow : a.interval.low = 0 := by
    rw [interval, hunits]
    exact Nat.zero_sub _
  rw [Interval.Spans, if_pos hclosed, mul_zero, hlow, Nat.cast_zero]
  exact ⟨le_rfl, Nat.cast_nonneg _⟩

/-- The test on numbers of quarters of a unit that are multiplied by `scale`. -/
theorem Interval.contains_iff (i : Interval) {scale n : Nat} {x : ℚ} (hscale : 0 < scale)
    (hx : 4 * one * x * scale = n) : i.contains scale n = true ↔ i.Spans x := by
  have hpos : (0 : ℚ) < scale := Nat.cast_pos.2 hscale
  have hlow : i.low * scale ≤ n ↔ (i.low : ℚ) ≤ 4 * one * x := by
    rw [← Nat.cast_le (α := ℚ), ← hx, Nat.cast_mul, mul_le_mul_iff_left₀ hpos]
  have hhigh : n ≤ i.high * scale ↔ 4 * one * x ≤ (i.high : ℚ) := by
    rw [← Nat.cast_le (α := ℚ), ← hx, Nat.cast_mul, mul_le_mul_iff_left₀ hpos]
  have hlow' : i.low * scale < n ↔ (i.low : ℚ) < 4 * one * x := by
    rw [← Nat.cast_lt (α := ℚ), ← hx, Nat.cast_mul, mul_lt_mul_iff_left₀ hpos]
  have hhigh' : n < i.high * scale ↔ 4 * one * x < (i.high : ℚ) := by
    rw [← Nat.cast_lt (α := ℚ), ← hx, Nat.cast_mul, mul_lt_mul_iff_left₀ hpos]
  unfold contains Spans
  split <;> simp only [Bool.and_eq_true, decide_eq_true_eq, hlow, hhigh, hlow', hhigh']

/-- What the test says of a quotient of units: how far it is from the magnitude, of which the
    significand counts steps of `gap`. -/
private theorem of_contains {a : Magnitude} {num den : Nat}
    (h : a.interval.contains den (4 * num) = true) :
    let gap := den * 2 ^ a.exponent
    let below := if a.significand = leadingBit ∧ 0 < a.exponent then gap else 2 * gap
    4 * (gap * a.significand) ≤ 4 * num + below ∧ 4 * num ≤ 4 * (gap * a.significand) + 2 * gap ∧
      (a.significand % 2 = 1 → 4 * (gap * a.significand) < 4 * num + below ∧
        4 * num < 4 * (gap * a.significand) + 2 * gap) := by
  intro gap below
  have hhigh : a.interval.high * den = 4 * (gap * a.significand) + 2 * gap := by
    simp only [interval, units, Nat.pow_eq, gap]
    ring
  have hlow : 4 * (gap * a.significand) ≤ a.interval.low * den + below := by
    have hbelow : (if a.significand = leadingBit ∧ 0 < a.exponent then 2 ^ a.exponent
        else 2 * 2 ^ a.exponent) * den = below := by
      simp only [below, gap]
      split <;> ring
    have hmid : 4 * (gap * a.significand) = 4 * a.units * den := by
      simp only [units, Nat.pow_eq, gap]
      ring
    rw [hmid, ← hbelow, ← Nat.add_mul]
    exact Nat.mul_le_mul_right den (le_tsub_add)
  have hclosed : a.interval.closed = (a.significand % 2 == 0) := rfl
  unfold Interval.contains at h
  rw [hclosed, hhigh] at h
  split at h
  · next heven =>
    rw [beq_iff_eq] at heven
    simp only [Bool.and_eq_true, decide_eq_true_eq] at h
    omega
  · simp only [Bool.and_eq_true, decide_eq_true_eq] at h
    omega

private theorem ofRatio?_of_round {num den e n : Nat} (he : exponentFor (num * one / den) = e)
    (hn : Number.roundHalfEven (num * one) (den * 2 ^ e) = n) :
    ofRatio? num den =
      if n = 2 * leadingBit then ofParts? leadingBit (e + 1) else ofParts? n e := by
  subst he hn
  rfl

private theorem ofParts?_self (a : Magnitude) : ofParts? a.significand a.exponent = some a :=
  dif_pos a.canonical

/-- The quotient has the exponent of the magnitude. -/
private theorem ofRatio?_of_ge {a : Magnitude} {num den : Nat} (hden : 0 < den)
    (h : a.interval.contains den (4 * (num * one)) = true)
    (hbinade : a.exponent = 0 ∨ den * 2 ^ a.exponent * leadingBit ≤ num * one) :
    ofRatio? num den = some a := by
  obtain ⟨hlow, hhigh, hodd⟩ := of_contains h
  have hlt := a.canonical.1
  have htop : den * 2 ^ a.exponent * (a.significand + 1) ≤ den * 2 ^ a.exponent * (2 * leadingBit) :=
    Nat.mul_le_mul_left _ hlt
  rw [Nat.mul_succ, Nat.mul_left_comm] at htop
  have hgap : 0 < den * 2 ^ a.exponent := Nat.mul_pos hden (Nat.two_pow_pos _)
  have he : exponentFor (num * one / den) = a.exponent := by
    refine exponentFor_eq ?_ (hbinade.imp_right fun hle => ?_)
    · rw [Nat.div_lt_iff_lt_mul hden]
      have hpart : 2 * leadingBit * 2 ^ a.exponent * den =
          2 * (den * 2 ^ a.exponent * leadingBit) := by ring
      omega
    · rw [Nat.le_div_iff_mul_le hden]
      have hpart : leadingBit * 2 ^ a.exponent * den = den * 2 ^ a.exponent * leadingBit := by ring
      omega
  have hround : Number.roundHalfEven (num * one) (den * 2 ^ a.exponent) = a.significand := by
    apply Number.roundHalfEven_eq hgap
    · split at hlow <;> omega
    · omega
    · intro h1
      have := hodd h1
      split at this <;> omega
  rw [ofRatio?_of_round he hround, if_neg (Nat.ne_of_lt hlt), ofParts?_self]

/-- The quotient has a smaller exponent.  Only below a power of two the interval reaches so far
    down, and there the quotient is rounded up into that power. -/
private theorem ofRatio?_of_lt {a : Magnitude} {num den : Nat} (hden : 0 < den)
    (h : a.interval.contains den (4 * (num * one)) = true) (hexponent : a.exponent ≠ 0)
    (hbelow : num * one < den * 2 ^ a.exponent * leadingBit) : ofRatio? num den = some a := by
  obtain ⟨hlow, hhigh, -⟩ := of_contains h
  have hfull := a.canonical.2.1
  have hlead : a.significand = leadingBit := by
    by_contra hne
    have hnext := Nat.mul_le_mul_left (den * 2 ^ a.exponent)
      (show leadingBit + 1 ≤ a.significand by omega)
    rw [Nat.mul_succ] at hnext
    rw [if_neg fun hedge => hne hedge.1] at hlow
    omega
  rw [if_pos ⟨hlead, Nat.pos_of_ne_zero hexponent⟩, hlead] at hlow
  obtain ⟨e, he⟩ := Nat.exists_eq_add_one_of_ne_zero hexponent
  have hhalf : den * 2 ^ a.exponent = 2 * (den * 2 ^ e) := by rw [he]; ring
  rw [hhalf, Nat.mul_assoc] at hlow hbelow
  have hsmall : den * 2 ^ e ≤ den * 2 ^ e * leadingBit := Nat.le_mul_of_pos_right _ (by decide)
  have hexp : exponentFor (num * one / den) = e := by
    refine exponentFor_eq ?_ (.inr ?_)
    · rw [Nat.div_lt_iff_lt_mul hden]
      have hpart : 2 * leadingBit * 2 ^ e * den = 2 * (den * 2 ^ e * leadingBit) := by ring
      omega
    · rw [Nat.le_div_iff_mul_le hden]
      have hpart : leadingBit * 2 ^ e * den = den * 2 ^ e * leadingBit := by ring
      omega
  have hdouble : den * 2 ^ e * (2 * leadingBit) = 2 * (den * 2 ^ e * leadingBit) :=
    Nat.mul_left_comm ..
  have hround : Number.roundHalfEven (num * one) (den * 2 ^ e) = 2 * leadingBit :=
    Number.roundHalfEven_eq (Nat.mul_pos hden (Nat.two_pow_pos _)) (by omega) (by omega) (by omega)
  rw [ofRatio?_of_round hexp hround, if_pos rfl, ← hlead, ← he, ofParts?_self]

/-- A quotient that lies in the interval of a magnitude rounds to it. -/
theorem ofRatio?_of_spans {a : Magnitude} {num den : Nat} (hden : 0 < den)
    (h : a.interval.Spans (num / den)) : ofRatio? num den = some a := by
  have hpos : (den : ℚ) ≠ 0 := Nat.cast_ne_zero.2 hden.ne'
  have hscaled : 4 * one * ((num : ℚ) / den) * den = (4 * (num * one) : Nat) := by
    rw [mul_assoc, div_mul_cancel₀ _ hpos]
    push_cast
    ring
  rw [← Interval.contains_iff _ hden hscaled] at h
  by_cases hbinade : a.exponent = 0 ∨ den * 2 ^ a.exponent * leadingBit ≤ num * one
  · exact ofRatio?_of_ge hden h hbinade
  · rw [not_or, Nat.not_le] at hbinade
    exact ofRatio?_of_lt hden h hbinade.1 hbinade.2

end Magnitude

namespace Double

open Magnitude

/-- The greatest magnitude is below this power of two. -/
private theorem greatest_eq : 2 * leadingBit * 2 ^ maxExponent = one * 2 ^ 1024 := by
  decide +kernel

private theorem four_mul_one_lt : 4 * one < 10 ^ 331 := by decide +kernel

private theorem two_pow_lt : 2 ^ 1024 < 10 ^ 310 := by decide +kernel

/-- A number in the interval of a magnitude is neither too small nor too large for a double. -/
theorem bounds_of_spans {a : Magnitude} (ha : a.significand ≠ 0) {x : ℚ}
    (h : a.interval.Spans x) : 1 ≤ 4 * one * x ∧ x ≤ 2 ^ 1024 := by
  have hends : (a.interval.low : ℚ) ≤ 4 * one * x ∧ 4 * one * x ≤ a.interval.high := by
    unfold Interval.Spans at h
    split at h
    · exact h
    · exact ⟨h.1.le, h.2.le⟩
  obtain ⟨hlt, -, hmax⟩ := a.canonical
  have hlow : 1 ≤ a.interval.low := by
    have hunits : 2 ^ a.exponent ≤ a.units := Nat.le_mul_of_pos_left _ (Nat.pos_of_ne_zero ha)
    have hpow := Nat.two_pow_pos a.exponent
    simp only [interval, Nat.pow_eq]
    split <;> omega
  have hhigh : a.interval.high ≤ 4 * (2 * leadingBit * 2 ^ maxExponent) := by
    have hunits : (a.significand + 1) * 2 ^ a.exponent ≤ 2 * leadingBit * 2 ^ maxExponent :=
      Nat.mul_le_mul hlt (Nat.pow_le_pow_right (by decide) hmax)
    rw [Nat.succ_mul] at hunits
    simp only [interval, units, Nat.pow_eq]
    omega
  constructor
  · exact (Nat.one_le_cast.2 hlow).trans hends.1
  · have hbound : 4 * one * x ≤ 4 * one * 2 ^ 1024 := by
      calc 4 * one * x ≤ a.interval.high := hends.2
        _ ≤ (4 * (2 * leadingBit * 2 ^ maxExponent) : Nat) := Nat.cast_le.2 hhigh
        _ = 4 * one * 2 ^ 1024 := by
          rw [greatest_eq, ← Nat.mul_assoc, Nat.cast_mul, Nat.cast_mul, Nat.cast_pow,
            Nat.cast_ofNat, Nat.cast_ofNat]
    exact le_of_mul_le_mul_left hbound four_mul_one_pos

/-- The size that is given to decimal digits: the number is below its power of ten, but not below a
    tenth of it. -/
theorem size_spec {n : Nat} (hn : 0 < n) (power : Int) :
    (n : ℚ) * 10 ^ power < 10 ^ (power + (Text.Numeral.digits n).length) ∧
      (10 : ℚ) ^ (power + (Text.Numeral.digits n).length) ≤ 10 * (n * 10 ^ power) := by
  have hpos : (0 : ℚ) < 10 ^ power := by positivity
  have hlt : (n : ℚ) < 10 ^ (Text.Numeral.digits n).length :=
    mod_cast Text.Numeral.lt_pow_length_digits n
  have hle : (10 : ℚ) ^ (Text.Numeral.digits n).length ≤ 10 * n :=
    mod_cast Text.Numeral.pow_length_digits_le hn
  rw [zpow_add₀ (by norm_num), zpow_natCast, mul_comm (10 ^ power : ℚ), ← mul_assoc]
  exact ⟨mul_lt_mul_of_pos_right hlt hpos, mul_le_mul_of_nonneg_right hle hpos.le⟩

/-- Digits that denote a number in the interval of a magnitude have a size for which the reader
    looks at the digits: neither do they vanish, nor do they overflow. -/
theorem size_of_spans {a : Magnitude} (ha : a.significand ≠ 0) {n : Nat} (hn : 0 < n) {power : Int}
    (h : a.interval.Spans (n * 10 ^ power)) :
    -330 ≤ power + (Text.Numeral.digits n).length ∧
      power + (Text.Numeral.digits n).length ≤ 310 := by
  obtain ⟨hlow, hhigh⟩ := bounds_of_spans ha h
  obtain ⟨hlt, hle⟩ := size_spec hn power
  constructor
  · -- a smaller number would be below a quarter of a unit
    by_contra hsize
    have hpow := zpow_le_zpow_right₀ (show (1 : ℚ) ≤ 10 by norm_num)
      (show power + ((Text.Numeral.digits n).length : Int) ≤ -331 by omega)
    have hone : (4 * one : ℚ) < 10 ^ 331 := mod_cast four_mul_one_lt
    have htiny : 4 * one * ((n : ℚ) * 10 ^ power) < 1 := by
      calc 4 * one * ((n : ℚ) * 10 ^ power) < 4 * one * 10 ^ (-331 : Int) :=
            mul_lt_mul_of_pos_left (hlt.trans_le hpow) four_mul_one_pos
        _ < 10 ^ 331 * 10 ^ (-331 : Int) := mul_lt_mul_of_pos_right hone (by positivity)
        _ = 1 := by norm_num
    exact absurd hlow (not_le.2 htiny)
  · -- a larger one would be above the greatest magnitude
    by_contra hsize
    have hpow := zpow_le_zpow_right₀ (show (1 : ℚ) ≤ 10 by norm_num)
      (show ((310 + 1 : Nat) : Int) ≤ power + ((Text.Numeral.digits n).length : Int) by omega)
    rw [zpow_natCast, pow_succ'] at hpow
    have htop : (2 : ℚ) ^ 1024 < 10 ^ 310 := mod_cast two_pow_lt
    have hhuge : (10 : ℚ) ^ 310 ≤ n * 10 ^ power :=
      le_of_mul_le_mul_left (hpow.trans hle) (by norm_num)
    exact absurd (hhuge.trans hhigh) (not_le.2 htop)

/-- Digits that denote a number in the interval of a magnitude are read as this magnitude. -/
theorem ofScientific_of_spans (negative : Bool) {a : Magnitude} (ha : a.significand ≠ 0) {n : Nat}
    {power : Int} (h : a.interval.Spans (n * 10 ^ power)) :
    ofScientific negative n power = .finite negative a := by
  have hn : 0 < n := by
    rw [Nat.pos_iff_ne_zero]
    rintro rfl
    have hlow := (bounds_of_spans ha h).1
    rw [Nat.cast_zero, zero_mul, mul_zero] at hlow
    exact absurd hlow (by norm_num)
  obtain ⟨hsmall, hlarge⟩ := size_of_spans ha hn h
  have hten : 0 < Nat.pow 10 (-power).toNat := Nat.pow_pos (by decide)
  rw [Number.mul_zpow_eq_div] at h
  simp only [ofScientific, hn.ne', not_lt.2 hsmall, not_lt.2 hlarge, decide_false, Bool.or_false,
    if_false]
  rw [ofRatio, ofRatio?_of_spans hten h]
  rfl

end Double

end WitnessLedger
