import WitnessLedger.Double.Basic
import Mathlib.Tactic.Ring

/-!
# Equal doubles

Doubles are compared as numbers.  A number has one significand and one exponent, so that only the
zeros are two doubles which are equal.

## Key results

- `Magnitude.units_inj`: a number of units has one form
- `Double.eq_of_same`: equal doubles with the same sign are the same
-/

namespace WitnessLedger

namespace Magnitude

/-- The same number of units at a lower exponent does not fit the significand. -/
theorem exponent_le_of_units_eq {a b : Magnitude} (h : a.units = b.units) :
    b.exponent ≤ a.exponent := by
  by_contra hlt
  obtain ⟨k, hk⟩ := Nat.exists_eq_add_of_lt (Nat.lt_of_not_le hlt)
  have hfull : leadingBit ≤ b.significand := by
    have := b.canonical.2.1
    omega
  have hdouble : a.significand = 2 * (b.significand * 2 ^ k) := by
    apply Nat.eq_of_mul_eq_mul_right (Nat.two_pow_pos a.exponent)
    calc a.significand * 2 ^ a.exponent
        = b.significand * 2 ^ b.exponent := h
      _ = 2 * (b.significand * 2 ^ k) * 2 ^ a.exponent := by rw [hk]; ring
  -- a full significand that is doubled has one bit too many
  have hroom : a.significand < 2 * leadingBit := a.canonical.1
  have hpow : b.significand ≤ b.significand * 2 ^ k :=
    Nat.le_mul_of_pos_right _ (Nat.two_pow_pos k)
  omega

/-- A number of units has one form only. -/
theorem units_inj {a b : Magnitude} (h : a.units = b.units) : a = b := by
  have hexponent : a.exponent = b.exponent :=
    Nat.le_antisymm (exponent_le_of_units_eq h.symm) (exponent_le_of_units_eq h)
  have hsignificand : a.significand = b.significand := by
    apply Nat.eq_of_mul_eq_mul_right (Nat.two_pow_pos a.exponent)
    calc a.significand * 2 ^ a.exponent
        = b.significand * 2 ^ b.exponent := h
      _ = b.significand * 2 ^ a.exponent := by rw [hexponent]
  cases a
  cases b
  cases hexponent
  cases hsignificand
  rfl

end Magnitude

namespace Double

/-- Whether two doubles are equal as numbers; `nan` is equal to nothing. -/
def same (x y : Double) : Bool := x.le y && y.le x

/-- Whether a double has a minus sign, as one of the zeros has. -/
def isNegative : Double → Bool
  | .nan => false
  | .infinite negative => negative
  | .finite negative _ => negative

/-- Of the numbers only zero has two forms, which differ in the sign. -/
theorem eq_of_same {x y : Double} (h : x.same y = true) (hsign : x.isNegative = y.isNegative) :
    x = y := by
  rw [same, Bool.and_eq_true] at h
  obtain ⟨hle, hge⟩ := h
  -- an infinite double is equal to itself alone, so that only the finite ones need their units
  cases x with
  | nan => cases hle
  | infinite s =>
    cases y with
    | nan => cases s <;> cases hle
    | infinite t => exact congrArg infinite hsign
    | finite t b => cases s <;> [cases hle; cases hge]
  | finite s a =>
    cases y with
    | nan => cases hle
    | infinite t => cases t <;> [cases hge; cases hle]
    | finite t b =>
      obtain rfl : s = t := hsign
      have hle' : signedUnits s a ≤ signedUnits s b := of_decide_eq_true hle
      have hge' : signedUnits s b ≤ signedUnits s a := of_decide_eq_true hge
      have hunits : a.units = b.units := by
        unfold signedUnits at hle' hge'
        split at hle' <;> simp_all <;> omega
      rw [Magnitude.units_inj hunits]

end Double

end WitnessLedger
