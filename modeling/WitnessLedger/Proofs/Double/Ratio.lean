import WitnessLedger.Double.Basic
import WitnessLedger.Proofs.Number.Rounding
import Mathlib.Algebra.Ring.Nat

/-!
# Quotients as doubles

Rounding to the nearest double keeps the order of quotients with a common denominator, so that a
share that has reached a threshold stays above it when more members join.

## Key results

- `Double.le_trans`: the comparison of doubles is transitive
- `Double.ratio_mono`: a larger numerator gives no smaller double
- `Double.ratio_self`: the quotient of equal numbers is one
- `Double.isFinite_of_le`: a number between zero and one is finite
-/

namespace WitnessLedger

namespace Magnitude

/-- The significand that a number of scaled units over `den` has before a carry. -/
def rawSignificand (num den : Nat) : Nat :=
  Number.roundHalfEven (num * one) (den * Nat.pow 2 (exponentFor (num * one / den)))

/-- The exponent that it has before a carry. -/
def rawExponent (num den : Nat) : Nat := exponentFor (num * one / den)

theorem exponentFor_mono {a b : Nat} (h : a ≤ b) : exponentFor a ≤ exponentFor b := by
  simp only [exponentFor]
  have hlog : a.log2 ≤ b.log2 := by
    by_cases ha : a = 0
    · simp [ha]
    · exact (Nat.le_log2 (by omega)).2 (Nat.le_trans (Nat.log2_self_le ha) h)
  split <;> split <;> omega

/-- A number of units is below 53 bits at its exponent. -/
theorem lt_of_exponentFor (units : Nat) :
    units < 2 * leadingBit * 2 ^ exponentFor units := by
  simp only [exponentFor]
  split
  · omega
  · next h =>
    have h52 : 52 ≤ units.log2 := (Nat.le_log2 (by simp [leadingBit] at h; omega)).2
      (by simp only [leadingBit] at h; omega)
    calc units < 2 ^ (units.log2 + 1) := Nat.lt_log2_self
      _ = 2 * leadingBit * 2 ^ (units.log2 - 52) := by
        rw [show units.log2 + 1 = 53 + (units.log2 - 52) by omega, Nat.pow_add]
        rfl

/-- A number of units whose exponent is not zero fills 53 bits there. -/
theorem le_of_exponentFor {units : Nat} (h : exponentFor units ≠ 0) :
    leadingBit * 2 ^ exponentFor units ≤ units := by
  simp only [exponentFor] at h ⊢
  split at h
  · exact absurd rfl h
  · next hu =>
    rw [if_neg hu]
    have hne : units ≠ 0 := by simp only [leadingBit] at hu; omega
    calc leadingBit * 2 ^ (units.log2 - 52) = 2 ^ (52 + (units.log2 - 52)) := by
          rw [Nat.pow_add]; rfl
      _ = 2 ^ units.log2 := by rw [show 52 + (units.log2 - 52) = units.log2 by omega]
      _ ≤ units := Nat.log2_self_le hne

/-- A quotient with `den` is below a bound times a power of two as soon as the whole is. -/
private theorem div_pow_lt {n den bound e : Nat} (hd : 0 < den) (h : n / den < bound * 2 ^ e) :
    n / (den * 2 ^ e) < bound := by
  rw [Nat.div_lt_iff_lt_mul hd] at h
  rw [Nat.div_lt_iff_lt_mul (Nat.mul_pos hd (Nat.two_pow_pos e))]
  calc n < bound * 2 ^ e * den := h
    _ = bound * (den * 2 ^ e) := by ac_rfl

private theorem le_div_pow {n den bound e : Nat} (hd : 0 < den) (h : bound * 2 ^ e ≤ n / den) :
    bound ≤ n / (den * 2 ^ e) := by
  rw [Nat.le_div_iff_mul_le hd] at h
  rw [Nat.le_div_iff_mul_le (Nat.mul_pos hd (Nat.two_pow_pos e))]
  calc bound * (den * 2 ^ e) = bound * 2 ^ e * den := by ac_rfl
    _ ≤ n := h

theorem rawSignificand_le (num : Nat) {den : Nat} (hd : 0 < den) :
    rawSignificand num den ≤ 2 * leadingBit := by
  have hq := div_pow_lt hd (lt_of_exponentFor (num * one / den))
  exact Nat.le_trans (Number.roundHalfEven_le_div_add_one _ _) hq

theorem leadingBit_le_rawSignificand (num : Nat) {den : Nat} (hd : 0 < den)
    (h : rawExponent num den ≠ 0) : leadingBit ≤ rawSignificand num den := by
  have hq := le_div_pow hd (le_of_exponentFor h)
  exact Nat.le_trans hq (Number.div_le_roundHalfEven _ _)

theorem rawExponent_mono {a b : Nat} (den : Nat) (h : a ≤ b) :
    rawExponent a den ≤ rawExponent b den :=
  exponentFor_mono (Nat.div_le_div_right (Nat.mul_le_mul_right one h))

theorem rawSignificand_mono {a b den : Nat} (h : a ≤ b)
    (he : rawExponent a den = rawExponent b den) :
    rawSignificand a den ≤ rawSignificand b den := by
  simp only [rawExponent] at he
  simp only [rawSignificand, he]
  exact Number.roundHalfEven_mono _ (Nat.mul_le_mul_right one h)

/-- The exponent after a carry. -/
def carriedExponent (num den : Nat) : Nat :=
  if rawSignificand num den = 2 * leadingBit then rawExponent num den + 1
  else rawExponent num den

/-- A quotient is finite as long as its exponent is in range, and its value is then the one
    before the carry. -/
theorem ofRatio?_eq (num : Nat) {den : Nat} (hd : 0 < den) :
    (∃ m, ofRatio? num den = some m ∧ carriedExponent num den ≤ maxExponent ∧
      m.units = rawSignificand num den * 2 ^ rawExponent num den) ∨
    (ofRatio? num den = none ∧ maxExponent < carriedExponent num den) := by
  have hle := rawSignificand_le num hd
  have hlow : rawExponent num den = 0 ∨ leadingBit ≤ rawSignificand num den := by
    by_cases h : rawExponent num den = 0
    · exact .inl h
    · exact .inr (leadingBit_le_rawSignificand num hd h)
  have heq : ofRatio? num den =
      if rawSignificand num den = 2 * leadingBit then ofParts? leadingBit (rawExponent num den + 1)
      else ofParts? (rawSignificand num den) (rawExponent num den) := rfl
  rw [heq, carriedExponent]
  split
  · next hc =>
    by_cases hmax : rawExponent num den + 1 ≤ maxExponent
    · have hcan : Canonical leadingBit (rawExponent num den + 1) :=
        ⟨by decide, .inr (Nat.le_refl _), hmax⟩
      refine .inl ⟨⟨_, _, hcan⟩, by simp [ofParts?, hcan], hmax, ?_⟩
      rw [units, hc, Nat.pow_eq, Nat.pow_succ]
      simp only
      ac_rfl
    · refine .inr ⟨?_, by omega⟩
      rw [ofParts?, dif_neg fun h => hmax h.2.2]
  · next hc =>
    by_cases hmax : rawExponent num den ≤ maxExponent
    · have hcan : Canonical (rawSignificand num den) (rawExponent num den) :=
        ⟨by omega, hlow, hmax⟩
      exact .inl ⟨⟨_, _, hcan⟩, by simp [ofParts?, hcan], hmax, rfl⟩
    · refine .inr ⟨?_, by omega⟩
      rw [ofParts?, dif_neg fun h => hmax h.2.2]

/-- The value of a quotient grows with its numerator.  Where the exponents differ, the smaller
    value is at most the power of two at which the larger one starts. -/
theorem rawUnits_mono {a b den : Nat} (hd : 0 < den) (h : a ≤ b) :
    rawSignificand a den * 2 ^ rawExponent a den ≤
      rawSignificand b den * 2 ^ rawExponent b den := by
  rcases Nat.lt_or_eq_of_le (rawExponent_mono den h) with hlt | heq
  · have hlead := leadingBit_le_rawSignificand b hd (by omega)
    calc rawSignificand a den * 2 ^ rawExponent a den
        ≤ 2 * leadingBit * 2 ^ rawExponent a den :=
          Nat.mul_le_mul_right _ (rawSignificand_le a hd)
      _ = leadingBit * 2 ^ (rawExponent a den + 1) := by rw [Nat.pow_succ]; ac_rfl
      _ ≤ leadingBit * 2 ^ rawExponent b den :=
          Nat.mul_le_mul_left _ (Nat.pow_le_pow_right (by omega) hlt)
      _ ≤ rawSignificand b den * 2 ^ rawExponent b den := Nat.mul_le_mul_right _ hlead
  · rw [← heq]
    exact Nat.mul_le_mul_right _ (rawSignificand_mono h heq)

theorem carriedExponent_mono {a b den : Nat} (hd : 0 < den) (h : a ≤ b) :
    carriedExponent a den ≤ carriedExponent b den := by
  simp only [carriedExponent]
  rcases Nat.lt_or_eq_of_le (rawExponent_mono den h) with hlt | heq
  · split <;> split <;> omega
  · have hm := rawSignificand_mono h heq
    have hb := rawSignificand_le b hd
    split <;> split <;> omega

/-- Equal numbers have the quotient one, whose significand comes out even. -/
theorem ofRatio?_self {n : Nat} (h : 0 < n) : ofRatio? n n = ofParts? leadingBit 1022 := by
  have hexponent : rawExponent n n = 1022 := by
    rw [rawExponent, Nat.mul_div_cancel_left one h]
    decide +kernel
  have heven : ∀ unit, 0 < unit → unit * leadingBit = one →
      Number.roundHalfEven (n * one) (n * unit) = leadingBit := by
    intro unit hpos hone
    rw [← hone, ← Nat.mul_assoc]
    exact Number.roundHalfEven_mul leadingBit (Nat.mul_pos h hpos)
  have hsignificand : rawSignificand n n = leadingBit :=
    heven _ (Nat.two_pow_pos _) (by rw [← rawExponent, hexponent]; decide +kernel)
  have heq : ofRatio? n n =
      if rawSignificand n n = 2 * leadingBit then ofParts? leadingBit (rawExponent n n + 1)
      else ofParts? (rawSignificand n n) (rawExponent n n) := rfl
  rw [heq, hsignificand, hexponent, if_neg (by decide)]

end Magnitude

namespace Double

/-- The comparison of doubles is transitive; `nan` compares to nothing. -/
theorem le_trans {x y z : Double} (hxy : x.le y = true) (hyz : y.le z = true) :
    x.le z = true := by
  rcases x with _ | (_ | _) | ⟨s, a⟩ <;> rcases y with _ | (_ | _) | ⟨t, b⟩ <;>
    rcases z with _ | (_ | _) | ⟨u, c⟩ <;> simp_all [le]
  exact Int.le_trans hxy hyz

/-- The double nearest to a quotient grows with the numerator. -/
theorem ratio_mono {a b den : Nat} (hd : 0 < den) (h : a ≤ b) :
    (ratio a den).le (ratio b den) = true := by
  have hu := Magnitude.rawUnits_mono hd h
  have he := Magnitude.carriedExponent_mono hd h
  unfold ratio ofRatio
  rcases Magnitude.ofRatio?_eq a hd with ⟨m, hm, -, hma⟩ | ⟨hm, hma⟩ <;>
    rcases Magnitude.ofRatio?_eq b hd with ⟨k, hk, hkb, hkv⟩ | ⟨hk, -⟩ <;>
    rw [hm, hk]
  · have hle : m.units ≤ k.units := by rw [hma, hkv]; exact hu
    exact decide_eq_true (Int.ofNat_le.2 hle)
  · rfl
  · -- the larger quotient is finite, so the smaller one is
    exact absurd (Nat.lt_of_lt_of_le hma he) (Nat.not_lt.2 hkb)
  · rfl

/-- The share of all in all is one. -/
theorem ratio_self {n : Nat} (h : 0 < n) : ratio n n = ratio 1 1 := by
  rw [ratio, ratio, ofRatio, ofRatio, Magnitude.ofRatio?_self h,
    Magnitude.ofRatio?_self Nat.one_pos]

/-- A number between zero and one is finite. -/
theorem isFinite_of_le {x : Double} (hlow : (ratio 0 1).le x = true)
    (hhigh : x.le (ratio 1 1) = true) : x.isFinite = true := by
  have hzero : ratio 0 1 = .finite false .zero := by decide +kernel
  have hone : ratio 1 1 = .finite false ⟨Magnitude.leadingBit, 1022, by decide⟩ := by decide +kernel
  rw [hzero] at hlow
  rw [hone] at hhigh
  cases x with
  | nan => cases hlow
  | infinite negative =>
    cases negative with
    | false => cases hhigh
    | true => cases hlow
  | finite => rfl

end Double

end WitnessLedger
