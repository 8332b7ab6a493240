/-! # Rounding a quotient

The nearest whole number to a quotient of naturals, halves going to the even neighbour or up.
What goes to the even neighbour is within half a unit of the quotient
(`two_mul_roundHalfEven_le`, `le_two_mul_roundHalfEven`). -/

namespace WitnessLedger.Number

/-- The whole number nearest to `num / den`; a quotient halfway between two goes to the
    even one. -/
def roundHalfEven (num den : Nat) : Nat :=
  let q := num / den
  let r := num % den
  if 2 * r < den || (2 * r == den && q % 2 == 0) then q else q + 1

/-- The whole number nearest to `num / den`; a quotient halfway between two goes up. -/
def roundHalfUp (num den : Nat) : Nat := (2 * num + den) / (2 * den)

theorem two_mul_roundHalfEven_le (num : Nat) {den : Nat} (h : 0 < den) :
    2 * (den * roundHalfEven num den) ≤ 2 * num + den := by
  have hdm := Nat.div_add_mod num den
  have hr := Nat.mod_lt num h
  simp only [roundHalfEven]
  split
  · omega
  · next hc =>
    simp only [Bool.or_eq_true, decide_eq_true_eq, Bool.and_eq_true, beq_iff_eq, not_or] at hc
    rw [Nat.mul_add, Nat.mul_one]
    omega

theorem le_two_mul_roundHalfEven (num : Nat) {den : Nat} (h : 0 < den) :
    2 * num ≤ 2 * (den * roundHalfEven num den) + den := by
  have hdm := Nat.div_add_mod num den
  have hr := Nat.mod_lt num h
  simp only [roundHalfEven]
  split
  · next hc =>
    simp only [Bool.or_eq_true, decide_eq_true_eq, Bool.and_eq_true, beq_iff_eq] at hc
    omega
  · rw [Nat.mul_add, Nat.mul_one]
    omega

/-- A quotient that comes out even is not changed. -/
theorem roundHalfEven_mul (n : Nat) {den : Nat} (h : 0 < den) :
    roundHalfEven (den * n) den = n := by
  simp [roundHalfEven, Nat.mul_div_cancel_left n h, h]

end WitnessLedger.Number
