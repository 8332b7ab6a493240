import WitnessLedger.Proofs.Double.Nearest
import WitnessLedger.Proofs.Text.Numeral
import Mathlib.Data.Nat.Cast.Order.Field
import Mathlib.Tactic.FieldSimp
import Mathlib.Tactic.NormNum

/-!
# Shortest digits read back

The digits that are chosen for a magnitude lie in the interval of what rounds to it.  The search
for them never fails: seventeen digits of the value make steps so small that one of its two
neighbours lies in the interval.

## Key results

- `zpow_leadingPower_le`: the first digit of a quotient has the exponent that it is given
- `onGrid?_spans`: what is found on a grid lies in the interval
- `exists_onGrid?`: a grid of small steps has a number in the interval
- `shortest_spans`: the chosen digits lie in the interval
-/

namespace WitnessLedger

/-- The number that is written. -/
def Scientific.value (s : Scientific) : ℚ := s.digits * 10 ^ s.power

namespace Magnitude

/-- The number that a magnitude denotes. -/
def value (a : Magnitude) : ℚ := a.units / one

/-! ## The first digit -/

/-- A quotient is not below the power of ten that its first digit stands for. -/
theorem zpow_leadingPower_le {num den : Nat} (hnum : 0 < num) (hden : 0 < den) :
    (10 : ℚ) ^ leadingPower num den ≤ num / den := by
  have hden' : (0 : ℚ) < den := Nat.cast_pos.2 hden
  unfold leadingPower
  split
  · next hle =>
    have hlen := Text.Numeral.pow_length_digits_le (Nat.div_pos hle hden)
    have hcast : (10 : ℚ) ^ (Text.Numeral.digits (num / den)).length ≤ 10 * (num / den : Nat) :=
      mod_cast hlen
    rw [zpow_sub_one₀ (by norm_num), zpow_natCast]
    calc (10 : ℚ) ^ (Text.Numeral.digits (num / den)).length * 10⁻¹
        ≤ 10 * (num / den : Nat) * 10⁻¹ := by gcongr
      _ = (num / den : Nat) := by ring
      _ ≤ num / den := Nat.cast_div_le
  · -- below one, the places behind the point are counted on the inverse
    have hlen := Text.Numeral.lt_pow_length_digits ((den - 1) / num)
    have hle : den ≤ num * 10 ^ (Text.Numeral.digits ((den - 1) / num)).length := by
      rw [Nat.div_lt_iff_lt_mul hnum, Nat.mul_comm] at hlen
      omega
    rw [zpow_neg, zpow_natCast, le_div_iff₀ hden', inv_mul_le_iff₀ (by positivity), mul_comm]
    exact mod_cast hle

/-! ## A decimal grid -/

/-- The number on a grid just below the middle of an interval, in steps. -/
def Interval.step (i : Interval) (power : Int) : Nat :=
  i.mid * 10 ^ (-power).toNat / (4 * one * 10 ^ power.toNat)

theorem contains_grid (i : Interval) (power : Int) (n : Nat) :
    i.contains (Nat.pow 10 (-power).toNat) (n * (4 * one * Nat.pow 10 power.toNat)) = true ↔
      i.Spans (n * 10 ^ power) := by
  apply i.contains_iff (Nat.pow_pos (by decide))
  simp only [Nat.pow_eq]
  push_cast
  rw [← Number.zpow_mul_pow_toNat_neg power]
  ring

/-- The two neighbours on a grid enclose the middle of the interval. -/
theorem Interval.step_spec (i : Interval) (power : Int) :
    (i.step power : ℚ) * 10 ^ power ≤ i.mid / (4 * one) ∧
      (i.mid / (4 * one) : ℚ) < (i.step power + 1) * 10 ^ power := by
  have hup : (0 : ℚ) < 10 ^ (-power).toNat := by positivity
  have hstep : 0 < 4 * one * 10 ^ power.toNat :=
    Nat.mul_pos (Nat.mul_pos (by decide) one_pos) (Nat.pow_pos (by decide))
  -- both sides are multiplied by what makes them whole
  have hscale : ∀ n : ℚ, n * 10 ^ power * (4 * one) * 10 ^ (-power).toNat =
      n * (4 * one * 10 ^ power.toNat) := by
    intro n
    rw [← Number.zpow_mul_pow_toNat_neg power]
    ring
  constructor
  · rw [le_div_iff₀ four_mul_one_pos, ← mul_le_mul_iff_left₀ hup, hscale]
    exact_mod_cast Nat.div_mul_le_self _ _
  · rw [div_lt_iff₀ four_mul_one_pos, ← mul_lt_mul_iff_left₀ hup, hscale]
    exact_mod_cast Nat.lt_mul_of_div_lt (Nat.lt_succ_self _) hstep

/-- What is found on a grid lies in the interval. -/
theorem onGrid?_spans {tie : Tie} {i : Interval} {power : Int} {s : Scientific}
    (h : onGrid? tie i power = some s) : i.Spans s.value := by
  simp only [onGrid?] at h
  split at h
  · next hlower =>
    rw [Bool.and_eq_true] at hlower
    cases h
    exact (contains_grid i power _).1 hlower.1
  · split at h
    · next hupper =>
      cases h
      exact (contains_grid i power _).1 hupper
    · cases h

/-- One of the two neighbours is found as soon as one lies in the interval. -/
theorem exists_onGrid? (tie : Tie) {i : Interval} {power : Int}
    (h : i.Spans (i.step power * 10 ^ power) ∨ i.Spans ((i.step power + 1) * 10 ^ power)) :
    ∃ s, onGrid? tie i power = some s := by
  have hlower := contains_grid i power (i.step power)
  have hupper := contains_grid i power (i.step power + 1)
  rw [Nat.cast_add, Nat.cast_one] at hupper
  rw [← hlower, ← hupper] at h
  simp only [onGrid?]
  split
  · exact ⟨_, rfl⟩
  · next hlower =>
    split
    · exact ⟨_, rfl⟩
    · next hupper =>
      rw [Bool.not_eq_true] at hupper
      rw [hupper, Bool.not_false, Bool.or_true, Bool.and_true] at hlower
      exact absurd h (not_or.2 ⟨hlower, ne_true_of_eq_false hupper⟩)

/-! ## Seventeen digits -/

theorem Interval.spans_of_lt {i : Interval} {x : ℚ} (hlow : i.low < 4 * one * x)
    (hhigh : 4 * one * x < i.high) : i.Spans x := by
  unfold Spans
  split
  · exact ⟨hlow.le, hhigh.le⟩
  · exact ⟨hlow, hhigh⟩

/-- How far the interval reaches, in steps of a quarter of the distance to the next magnitude: two
    of them upward, and downward two or, from a power of two, one. -/
theorem spans_of_near {a : Magnitude} (ha : a.significand ≠ 0) {x : ℚ}
    (hlow : a.value - (if a.significand = leadingBit ∧ 0 < a.exponent then 1 else 2) *
      (2 ^ a.exponent / (4 * one)) < x)
    (hhigh : x < a.value + 2 * (2 ^ a.exponent / (4 * one))) : a.interval.Spans x := by
  have hunits : 2 ^ a.exponent ≤ a.units := Nat.le_mul_of_pos_left _ (Nat.pos_of_ne_zero ha)
  have hmid : a.value = 4 * a.units / (4 * one) := (mul_div_mul_left _ _ (by norm_num)).symm
  rw [hmid, ← mul_div_assoc, ← sub_div, div_lt_iff₀ four_mul_one_pos, mul_comm x] at hlow
  rw [hmid, ← mul_div_assoc, ← add_div, lt_div_iff₀ four_mul_one_pos, mul_comm x] at hhigh
  apply Interval.spans_of_lt
  · refine lt_of_le_of_lt ?_ hlow
    simp only [interval, Nat.pow_eq]
    split
    · rw [Nat.cast_sub (by omega)]
      push_cast
      linarith
    · rw [Nat.cast_sub (by omega)]
      push_cast
      linarith
  · simp only [interval, Nat.pow_eq]
    push_cast
    exact hhigh

/-- A grid whose steps are at most a part in 10 to the power 16 of the value has a number in the
    interval.  From a power of two the interval reaches down only half as far, and the neighbour
    above lies in it. -/
theorem exists_spans_of_step {a : Magnitude} (ha : a.significand ≠ 0) {power : Int}
    (hstep : (10 : ℚ) ^ power * 10 ^ 16 ≤ a.value) :
    a.interval.Spans (a.interval.step power * 10 ^ power) ∨
      a.interval.Spans ((a.interval.step power + 1) * 10 ^ power) := by
  obtain ⟨hbelow, habove⟩ := a.interval.step_spec power
  have hmid : (a.interval.mid : ℚ) / (4 * one) = a.value := by
    rw [value, interval, Nat.cast_mul, Nat.cast_ofNat]
    exact mul_div_mul_left _ _ (by norm_num)
  rw [hmid] at hbelow habove
  have hnear := @spans_of_near a ha
  set gap : ℚ := 2 ^ a.exponent / (4 * one) with hgap
  have hpos : 0 < gap := div_pos (by positivity) four_mul_one_pos
  have hvalue : a.value = 4 * a.significand * gap := by
    rw [value, units, hgap, Nat.pow_eq]
    push_cast
    ring
  by_cases hedge : a.significand = leadingBit ∧ 0 < a.exponent
  · -- the significand is the least of 53 bits, so that the steps are smaller yet
    have hsmall : (10 : ℚ) ^ power < 2 * gap := by
      rw [hvalue, hedge.1] at hstep
      norm_num [leadingBit] at hstep
      linarith
    refine .inr (hnear ?_ ?_)
    · rw [if_pos hedge]
      linarith
    · linarith
  · have hsmall : (10 : ℚ) ^ power < 4 * gap := by
      have hlt : (a.significand : ℚ) < 10 ^ 16 := by
        have := a.canonical.1
        have : a.significand < 10 ^ 16 := by
          simp only [leadingBit] at this
          omega
        exact_mod_cast this
      have := mul_lt_mul_of_pos_right hlt hpos
      linarith
    simp only [if_neg hedge] at hnear
    -- of two neighbours around the value, less than four gaps apart, one is within two gaps of it
    rcases lt_or_ge ((a.interval.step power + 1 : ℚ) * 10 ^ power) (a.value + 2 * gap) with h | h
    · exact .inr (hnear (by linarith) h)
    · exact .inl (hnear (by linarith) (by linarith))

/-- The chosen digits lie in the interval. -/
theorem shortest_spans (tie : Tie) {a : Magnitude} (ha : a.significand ≠ 0) :
    a.interval.Spans (a.shortest tie).value := by
  have hunits : 0 < a.units := Nat.mul_pos (Nat.pos_of_ne_zero ha) (Nat.two_pow_pos _)
  have hfirst : (10 : ℚ) ^ leadingPower a.units one ≤ a.value := zpow_leadingPower_le hunits one_pos
  have hstep : (10 : ℚ) ^ (leadingPower a.units one - (16 : Nat)) * 10 ^ 16 ≤ a.value := by
    rw [zpow_sub₀ (by norm_num), zpow_natCast, div_mul_cancel₀ _ (by norm_num)]
    exact hfirst
  obtain ⟨s, hs⟩ := exists_onGrid? tie (exists_spans_of_step ha hstep)
  rw [shortest]
  cases hfound : (List.range 17).findSome? fun (n : Nat) =>
      onGrid? tie a.interval (leadingPower a.units one - n) with
  | none =>
    -- the last try is the one with seventeen digits
    rw [List.findSome?_eq_none_iff] at hfound
    have hnone := hfound 16 (by decide)
    rw [hs] at hnone
    cases hnone
  | some s' =>
    obtain ⟨n, -, hn⟩ := List.exists_of_findSome?_eq_some hfound
    exact onGrid?_spans hn

/-- The chosen digits are not zero. -/
theorem digits_shortest_pos (tie : Tie) {a : Magnitude} (ha : a.significand ≠ 0) :
    0 < (a.shortest tie).digits := by
  rw [Nat.pos_iff_ne_zero]
  intro hzero
  have hlow := (Double.bounds_of_spans ha (shortest_spans tie ha)).1
  rw [Scientific.value, hzero, Nat.cast_zero, zero_mul, mul_zero] at hlow
  exact absurd hlow (by norm_num)

end Magnitude

end WitnessLedger
