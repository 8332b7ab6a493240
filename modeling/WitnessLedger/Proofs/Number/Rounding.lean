import WitnessLedger.Number.Rounding
import Mathlib.Algebra.Order.Field.Basic
import Mathlib.Data.Rat.Cast.Order
import Mathlib.Tactic.Linarith

/-!
# Quotients and powers of ten

Rounding to the nearest whole number moves a quotient by at most a half and keeps the order of
numerators, and a number is what the quotient rounds to as soon as it is that near.  A power of ten
with any exponent is a quotient of powers that are whole numbers.

## Key results

- `roundHalfEven_mono`: rounding keeps the order of numerators
- `roundHalfEven_eq`: when a quotient rounds to a number
- `abs_roundHalfEven_sub_le`: a rounded quotient is off by at most a half
- `ceil_div`: a quotient that is rounded up counts the parts of a number
- `mul_zpow_eq_div`: a number with a power of ten as a quotient of naturals
-/

namespace WitnessLedger.Number

/-! ## Rounding -/

/-- Rounding a quotient keeps the order of the numerators. -/
theorem roundHalfEven_mono {a b : Nat} (den : Nat) (h : a ≤ b) :
    roundHalfEven a den ≤ roundHalfEven b den := by
  have ha := Nat.div_add_mod a den
  have hb := Nat.div_add_mod b den
  have hq := Nat.div_le_div_right (c := den) h
  rcases Nat.lt_or_eq_of_le hq with hlt | heq
  · simp only [roundHalfEven]
    split <;> split <;> omega
  · -- equal quotients: the remainders are ordered, so rounding up stays rounding up
    rw [← heq] at hb
    have hr : a % den ≤ b % den := by omega
    simp only [roundHalfEven, ← heq, Bool.or_eq_true, Bool.and_eq_true, decide_eq_true_eq,
      beq_iff_eq]
    split <;> split <;> omega

theorem div_le_roundHalfEven (num den : Nat) : num / den ≤ roundHalfEven num den := by
  simp only [roundHalfEven]
  split <;> omega

theorem roundHalfEven_le_div_add_one (num den : Nat) : roundHalfEven num den ≤ num / den + 1 := by
  simp only [roundHalfEven]
  split <;> omega

/-- A quotient rounds to a number that is off by less than a half, and to an even one that is off
    by a half. -/
theorem roundHalfEven_eq {num den n : Nat} (hden : 0 < den)
    (hlow : 2 * (den * n) ≤ 2 * num + den) (hhigh : 2 * num ≤ 2 * (den * n) + den)
    (hodd : n % 2 = 1 → 2 * (den * n) < 2 * num + den ∧ 2 * num < 2 * (den * n) + den) :
    roundHalfEven num den = n := by
  have hdm := Nat.div_add_mod num den
  have hr := Nat.mod_lt num hden
  have hmul : ∀ {i j : Nat}, i + 1 ≤ j → den * i + den ≤ den * j := fun h => by
    simpa only [Nat.mul_succ] using Nat.mul_le_mul_left den h
  simp only [roundHalfEven, Bool.or_eq_true, Bool.and_eq_true, decide_eq_true_eq, beq_iff_eq]
  -- the number is the quotient or the next one: any other is off by more than a half
  rcases Nat.lt_trichotomy n (num / den) with h | h | h
  · have := hmul h
    omega
  · rw [← h] at hdm ⊢
    rw [if_pos]
    rcases Nat.mod_two_eq_zero_or_one n with heven | hodd'
    · omega
    · have := hodd hodd'
      omega
  · have hnext : n = num / den + 1 := by
      by_contra hne
      have hfar := hmul (show num / den + 1 + 1 ≤ n by omega)
      rw [Nat.mul_succ] at hfar
      omega
    rw [hnext, Nat.mul_succ] at hlow hhigh hodd
    rw [hnext, if_neg]
    rcases Nat.mod_two_eq_zero_or_one (num / den) with heven | hodd'
    · have := hodd (by omega)
      omega
    · omega

/-- A rounded quotient is off by at most a half. -/
theorem abs_roundHalfEven_sub_le (num : Nat) {den : Nat} (h : 0 < den) :
    |(roundHalfEven num den : ℚ) - num / den| ≤ 1 / 2 := by
  have hden : (0 : ℚ) < den := Nat.cast_pos.2 h
  have hlow : (2 * num : ℚ) ≤ 2 * (den * roundHalfEven num den) + den :=
    mod_cast le_two_mul_roundHalfEven num h
  have hhigh : (2 * (den * roundHalfEven num den) : ℚ) ≤ 2 * num + den :=
    mod_cast two_mul_roundHalfEven_le num h
  rw [abs_sub_le_iff]
  constructor
  · rw [sub_le_iff_le_add, ← sub_le_iff_le_add', le_div_iff₀ hden]
    linarith
  · rw [sub_le_iff_le_add, div_le_iff₀ hden]
    linarith

/-- The number of parts of a size that a number is made of, where the last one need not be full. -/
theorem ceil_div {parts size rest : Nat} (h : rest < size) :
    (parts * size + rest + size - 1) / size = parts + if rest = 0 then 0 else 1 := by
  have hdiv : ∀ n k, k < size → (n * size + k) / size = n := by
    intro n k hk
    rw [Nat.mul_comm, Nat.mul_add_div (Nat.zero_lt_of_lt h), Nat.div_eq_of_lt hk, Nat.add_zero]
  split
  · next hrest =>
    rw [hrest, Nat.add_zero, Nat.add_sub_assoc (Nat.zero_lt_of_lt h)]
    exact hdiv parts (size - 1) (by omega)
  · next hrest =>
    have hmore : parts * size + rest + size - 1 = (parts + 1) * size + (rest - 1) := by
      rw [Nat.succ_mul]
      omega
    rw [hmore]
    exact hdiv (parts + 1) (rest - 1) (by omega)

/-! ## Powers of ten -/

/-- A power of ten as a quotient of powers that are whole numbers. -/
theorem zpow_mul_pow_toNat_neg (p : Int) : (10 : ℚ) ^ p * 10 ^ (-p).toNat = 10 ^ p.toNat := by
  obtain ⟨n, rfl | rfl⟩ := p.eq_nat_or_neg
  · simp
  · have hne : (10 : ℚ) ^ n ≠ 0 := by positivity
    simp [hne]

/-- A number with a power of ten as a quotient of naturals. -/
theorem mul_zpow_eq_div (n : Nat) (p : Int) :
    (n : ℚ) * 10 ^ p = (n * Nat.pow 10 p.toNat : Nat) / (Nat.pow 10 (-p).toNat : Nat) := by
  have hpos : (0 : ℚ) < 10 ^ (-p).toNat := by positivity
  simp only [Nat.pow_eq]
  push_cast
  rw [← zpow_mul_pow_toNat_neg p, ← mul_assoc, mul_div_cancel_right₀ _ hpos.ne']

end WitnessLedger.Number
