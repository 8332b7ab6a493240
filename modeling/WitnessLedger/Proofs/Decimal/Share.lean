import WitnessLedger.Proofs.Decimal.Sum

/-!
# Shares

A whole amount that is divided into equal parts comes out exactly where the quotient has few enough
places, and the parts then add up to the amount again.

## Key results

- `value_ofInt`: a whole amount has its value
- `value_share`: a quotient with few enough places is exact
- `sumsFit_replicate`, `sum_replicate`: equal parts add up
-/

namespace WitnessLedger.Decimal

theorem value_ofInt {n : Int} (h : n.natAbs < bound) : (ofInt n).value = n := by
  obtain ⟨d, hd⟩ := exists_ofParts? (decide (n < 0)) h (Nat.zero_le _)
  obtain ⟨-, hvalue⟩ := value_of_ofParts? hd
  rw [ofInt, ofInt?, hd, Option.getD_some, hvalue, signed_natAbs, pow_zero, div_one]

/-- A quotient with few enough places is exact, and has no more places than it needs. -/
theorem value_share {total : Int} {parts k : Nat} (hparts : 0 < parts) (hk : k ≤ maxScale)
    (hdvd : parts ∣ total.natAbs * 10 ^ k) (hfit : total.natAbs * 10 ^ k < bound) :
    (share total parts).value = total / parts ∧ (share total parts).scale ≤ k := by
  have hwhole : ∀ scale, (total.natAbs * Nat.pow 10 scale % parts == 0) = true ↔
      parts ∣ total.natAbs * 10 ^ scale := by
    intro scale
    rw [beq_iff_eq, Nat.pow_eq, Nat.dvd_iff_mod_eq_zero]
  -- the scale is the least one at which the quotient is whole
  obtain ⟨scale, hscale⟩ : ∃ scale, (List.range (maxScale + 1)).find? (fun scale =>
      total.natAbs * Nat.pow 10 scale % parts == 0) = some scale := by
    rw [← Option.isSome_iff_exists, List.find?_isSome]
    exact ⟨k, List.mem_range.2 (Nat.lt_succ_of_le hk), (hwhole k).2 hdvd⟩
  obtain ⟨hfound, -, hleast⟩ := List.find?_range_eq_some.1 hscale
  have hle : scale ≤ k := by
    by_contra hlt
    have hnot := hleast k (not_le.1 hlt)
    rw [(hwhole k).2 hdvd] at hnot
    cases hnot
  obtain ⟨m, hm⟩ := (hwhole scale).1 hfound
  have hround : Number.roundHalfEven (total.natAbs * Nat.pow 10 scale) parts = m := by
    rw [Nat.pow_eq, hm, Number.roundHalfEven_mul m hparts]
  have hmantissa : m < bound := by
    calc m ≤ parts * m := Nat.le_mul_of_pos_left m hparts
      _ = total.natAbs * 10 ^ scale := hm.symm
      _ ≤ total.natAbs * 10 ^ k := Nat.mul_le_mul_left _ (Nat.pow_le_pow_right (by decide) hle)
      _ < bound := hfit
  obtain ⟨d, hd⟩ := exists_ofParts? (decide (total < 0)) hmantissa (hle.trans hk)
  have hshare : share total parts = d := by
    simp only [share, hscale, Option.getD_some, hround, hd]
  obtain ⟨hplaces, hvalue⟩ := value_of_ofParts? hd
  rw [hshare]
  refine ⟨?_, hplaces.trans_le hle⟩
  have hquotient : (m : ℚ) / 10 ^ scale = total.natAbs / parts := by
    have hparts : (parts : ℚ) ≠ 0 := Nat.cast_ne_zero.2 hparts.ne'
    have hm : (total.natAbs * 10 ^ scale : ℚ) = parts * m := mod_cast hm
    rw [div_eq_div_iff (by positivity) hparts, hm, mul_comm]
  calc d.value = (if decide (total < 0) then -((m : ℚ) / 10 ^ scale) else m / 10 ^ scale) := by
        rw [hvalue]
        split <;> ring
    _ = (if decide (total < 0) then -(total.natAbs : ℚ) else total.natAbs) / parts := by
        rw [hquotient]
        split <;> ring
    _ = total / parts := by rw [signed_natAbs]

/-- Equal parts add up to their multiple. -/
theorem sum_replicate (n : Nat) (d : Decimal) : sum (List.replicate n d) = n * d.value := by
  rw [sum, List.map_replicate, List.sum_replicate, nsmul_eq_mul]

theorem places_replicate_le (n : Nat) (d : Decimal) : places (List.replicate n d) ≤ d.scale := by
  induction n with
  | zero => exact Nat.zero_le _
  | succ n ih => exact max_le (le_refl _) ih

/-- Equal parts can be added up where their multiple fits. -/
theorem sumsFit_replicate {n : Nat} {d : Decimal} (h : n * |d.value| * 10 ^ d.scale < bound) :
    SumsFit (List.replicate n d) := by
  intro m hm
  rw [List.length_replicate] at hm
  rw [List.take_replicate, Nat.min_eq_left hm, sum_replicate, abs_mul, Nat.abs_cast]
  refine lt_of_le_of_lt ?_ h
  gcongr
  · norm_num
  · exact places_replicate_le m d

end WitnessLedger.Decimal
