import WitnessLedger.Double.Stepwise
import WitnessLedger.Proofs.Double.Nearest
import Mathlib.Tactic.FieldSimp
import Mathlib.Tactic.NormNum

/-!
# When the steps lose nothing

Going from digits to a double step by step rounds at each step.  Where the digits make a number of
53 bits and the power of ten is at most the 22nd, both are doubles, and only the last step rounds.
The result is then the nearest double.

## Key results

- `ofRatio?_exact`: numbers of 53 bits, and their products with powers of two, are doubles
- `scaled?_of_spans`: a number of 53 bits times a small power of ten is rounded once
- `stepwise?_of_spans`: few digits with a small exponent become the nearest double
-/

namespace WitnessLedger.Magnitude

/-! ## Numbers that are doubles -/

theorem exponentFor_le {u e : Nat} (h : u < 2 * leadingBit * 2 ^ e) : exponentFor u ≤ e := by
  by_contra hlarge
  have hlow := @le_of_exponentFor u (by omega)
  have hpow : 2 * leadingBit * 2 ^ e ≤ leadingBit * 2 ^ exponentFor u := by
    calc 2 * leadingBit * 2 ^ e = leadingBit * 2 ^ (e + 1) := by rw [Nat.pow_succ]; ac_rfl
      _ ≤ leadingBit * 2 ^ exponentFor u :=
        Nat.mul_le_mul_left _ (Nat.pow_le_pow_right (by omega) (Nat.not_le.1 hlarge))
  omega

theorem one_eq : one = 2 ^ 1074 := by
  unfold one
  generalize 1074 = n
  exact Nat.pow_eq

/-- A number of 53 bits times a power of two that is not too large is a double. -/
theorem ofRatio?_exact {m j : Nat} (hm : m < 2 * leadingBit) (hj : j ≤ 900) :
    ∃ a, ofRatio? (m * 2 ^ j) 1 = some a ∧ a.units = m * 2 ^ j * one := by
  have hunits : m * 2 ^ j * one = m * 2 ^ (j + 1074) := by
    rw [one_eq, Nat.mul_assoc, ← Nat.pow_add]
  have hexponent : rawExponent (m * 2 ^ j) 1 ≤ j + 1074 := by
    rw [rawExponent, Nat.div_one, hunits]
    exact exponentFor_le (Nat.mul_lt_mul_of_pos_right hm (Nat.two_pow_pos _))
  -- the power of two that is taken out divides the number, so that nothing is rounded
  have hvalue : rawSignificand (m * 2 ^ j) 1 * 2 ^ rawExponent (m * 2 ^ j) 1 =
      m * 2 ^ j * one := by
    obtain ⟨k, hk⟩ := Nat.exists_eq_add_of_le hexponent
    have hsplit : m * 2 ^ j * one = 2 ^ rawExponent (m * 2 ^ j) 1 * (m * 2 ^ k) := by
      rw [hunits, hk, Nat.pow_add]
      ac_rfl
    have hsignificand : rawSignificand (m * 2 ^ j) 1 = m * 2 ^ k := by
      show Number.roundHalfEven (m * 2 ^ j * one)
        (1 * Nat.pow 2 (rawExponent (m * 2 ^ j) 1)) = _
      rw [Nat.one_mul, Nat.pow_eq, hsplit]
      exact Number.roundHalfEven_mul _ (Nat.two_pow_pos _)
    rw [hsignificand, hsplit, Nat.mul_comm]
  rcases ofRatio?_eq (m * 2 ^ j) Nat.one_pos with ⟨a, ha, -, hu⟩ | ⟨-, hlarge⟩
  · exact ⟨a, ha, hu.trans hvalue⟩
  · have hmax : maxExponent = 2045 := rfl
    simp only [carriedExponent] at hlarge
    split at hlarge <;> omega

theorem exists_powerOfTen? {k : Nat} (hk : k ≤ 22) :
    ∃ t, powerOfTen? k = some t ∧ t.units = 10 ^ k * one := by
  -- the odd part of the power has 53 bits, and the rest is a power of two
  have hfive : 5 ^ k < 2 * leadingBit :=
    Nat.lt_of_le_of_lt (Nat.pow_le_pow_right (by decide) hk) (by decide)
  have hten : 5 ^ k * 2 ^ k = 10 ^ k := by rw [← Nat.mul_pow]
  have hexact := ofRatio?_exact (j := k) hfive (by omega)
  rw [hten] at hexact
  exact hexact

/-! ## Multiplying and dividing -/

variable {a c : Magnitude} {n : Nat}

theorem times?_of_spans {t : Magnitude} {m : Nat} (ha : a.units = n * one)
    (ht : t.units = m * one) (h : c.interval.Spans (n * m)) : a.times? t = some c := by
  have hone : (one : ℚ) ≠ 0 := Nat.cast_ne_zero.2 one_pos.ne'
  apply ofRatio?_of_spans (Nat.mul_pos one_pos one_pos)
  rw [ha, ht]
  convert h using 1
  push_cast
  field_simp

theorem over?_of_spans {t : Magnitude} {m : Nat} (hm : 0 < m) (ha : a.units = n * one)
    (ht : t.units = m * one) (h : c.interval.Spans (n / m)) : a.over? t = some c := by
  have hone : (one : ℚ) ≠ 0 := Nat.cast_ne_zero.2 one_pos.ne'
  rw [over?, ha, ht]
  apply ofRatio?_of_spans (Nat.mul_pos hm one_pos)
  convert h using 1
  push_cast
  exact mul_div_mul_right _ _ hone

theorem scaled?_natCast (a : Magnitude) {k : Nat} (hk : k ≤ greatestPower) :
    a.scaled? k = (powerOfTen? k).bind a.times? := by
  unfold scaled?
  rw [if_pos (Int.natCast_nonneg k)]
  exact if_pos hk

theorem scaled?_negSucc (a : Magnitude) {k : Nat} (hk : k < greatestPower) :
    a.scaled? (.negSucc k) = (powerOfTen? (k + 1)).bind a.over? := by
  have honce : k / greatestPower = 0 := Nat.div_eq_of_lt hk
  have hzero : a.lowered? 0 = some a := rfl
  unfold scaled?
  rw [if_neg (Int.not_le.2 (Int.negSucc_lt_zero k))]
  show (a.lowered? (k / greatestPower)).bind (fun b =>
    (powerOfTen? (k + 1 - greatestPower * (k / greatestPower))).bind b.over?) = _
  rw [honce, Nat.mul_zero, Nat.sub_zero, hzero, Option.bind_some]

/-- A number that is a double, times a power of ten that is one, is rounded once. -/
theorem scaled?_of_spans (ha : a.units = n * one) {power : Int} (hpower : power.natAbs ≤ 22)
    (h : c.interval.Spans (n * 10 ^ power)) : a.scaled? power = some c := by
  have hsmall : 22 < greatestPower := by decide
  obtain ⟨t, ht, hunits⟩ := exists_powerOfTen? hpower
  cases power with
  | ofNat k =>
    have hk : k ≤ 22 := hpower
    rw [Int.ofNat_eq_natCast, zpow_natCast] at h
    rw [Int.ofNat_eq_natCast, scaled?_natCast a (by omega)]
    change powerOfTen? k = some t at ht
    rw [ht, Option.bind_some]
    exact times?_of_spans ha hunits (by exact_mod_cast h)
  | negSucc k =>
    have hk : k + 1 ≤ 22 := hpower
    rw [zpow_negSucc, ← div_eq_mul_inv] at h
    rw [scaled?_negSucc a (by omega)]
    change powerOfTen? (k + 1) = some t at ht
    rw [ht, Option.bind_some]
    exact over?_of_spans (Nat.pow_pos (by decide)) ha hunits (by exact_mod_cast h)

/-! ## Digits -/

/-- Digits that fit are all taken. -/
theorem packed_eq {n : Nat} {ds : List Char}
    (h : n * 10 ^ ds.length + Text.Numeral.value ds < UInt64.size) :
    packed n ds = (n * 10 ^ ds.length + Text.Numeral.value ds, ds.length) := by
  induction ds generalizing n with
  | nil => simp [packed, Text.Numeral.value]
  | cons d ds ih =>
    have hvalue := Text.Numeral.value_append [d] ds
    have hdigit : Text.Numeral.value [d] = d.toNat - 48 := Nat.zero_add _
    have hsplit : n * 10 ^ (d :: ds).length + Text.Numeral.value (d :: ds) =
        (10 * n + (d.toNat - 48)) * 10 ^ ds.length + Text.Numeral.value ds := by
      rw [← List.singleton_append, hvalue, hdigit, List.length_append, List.length_singleton,
        Nat.pow_add]
      ring
    rw [hsplit] at h ⊢
    have hnext : 10 * n + (d.toNat - 48) < UInt64.size :=
      Nat.lt_of_le_of_lt (Nat.le_trans (Nat.le_mul_of_pos_right _ (Nat.pow_pos (by decide)))
        (Nat.le_add_right _ _)) h
    rw [packed]
    simp only [if_pos hnext, ih h, List.length_cons]

/-- Digits that make a number of 53 bits, with a small exponent, become the double nearest to what
    they denote. -/
theorem stepwise?_of_spans {whole fraction : List Char} {e : Int}
    (hn : Text.Numeral.value (whole ++ fraction) < 2 * leadingBit)
    (he : (e - fraction.length).natAbs ≤ 22)
    (h : c.interval.Spans (Text.Numeral.value (whole ++ fraction) * 10 ^ (e - fraction.length))) :
    stepwise? whole fraction e = some c := by
  obtain ⟨a, ha, hunits⟩ := ofRatio?_exact (j := 0) hn (by decide)
  rw [Nat.pow_zero, Nat.mul_one] at ha hunits
  have hsize : 2 * leadingBit < UInt64.size := by decide
  have hvalue := Text.Numeral.value_append whole fraction
  rw [hvalue] at hn ha
  have hwhole : packed 0 whole = (Text.Numeral.value whole, whole.length) := by
    have hle : Text.Numeral.value whole ≤ Text.Numeral.value whole * 10 ^ fraction.length :=
      Nat.le_mul_of_pos_right _ (Nat.pow_pos (by decide))
    have hpacked : packed 0 whole =
        (0 * 10 ^ whole.length + Text.Numeral.value whole, whole.length) := packed_eq (by omega)
    rwa [Nat.zero_mul, Nat.zero_add] at hpacked
  have hfraction := packed_eq (Nat.lt_trans hn hsize)
  simp only [stepwise?, hwhole, hfraction, ha, Option.bind_eq_bind, Option.bind_some, Nat.sub_self,
    Nat.cast_zero, Int.add_zero]
  exact scaled?_of_spans hunits he h

end WitnessLedger.Magnitude
