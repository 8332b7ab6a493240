import WitnessLedger.Proofs.Decimal.Sum
import WitnessLedger.Proofs.Chain.Standing
import WitnessLedger.Proofs.Ledger.Action

/-!
# Checks of balances

A check of balances adds them up and compares the total with the expected one.  The comparison is
always right about the total.  The total is the exact sum of the balances where all the partial
sums fit a mantissa; else it is a rounded one, and the check speaks of that.

## Key results

- `of_anchorConservation`: what an anchored check says of its total and its drift
- `conserved_iff`: when a check passes
-/

namespace WitnessLedger

namespace Register

theorem value_tolerance : tolerance.value = 1 / 1000 := by
  norm_num [Decimal.value, Decimal.signed, tolerance]

/-- A drift is below the tolerance exactly when the totals are closer than a thousandth. -/
theorem lt_tolerance_iff {total expected drift : Decimal}
    (h : driftOf total expected = some drift) :
    drift.lt tolerance = true ↔ |total.value - expected.value| < 1 / 1000 := by
  obtain ⟨d, hd, rfl⟩ := Option.map_eq_some_iff.1 h
  rw [Decimal.lt_iff, value_tolerance, Decimal.value_absolute]
  exact Decimal.abs_lt_iff_of_sub? hd (by norm_num)

/-- A total of the expected value has a drift, which is below the tolerance. -/
theorem exists_driftOf {total expected : Decimal} (h : total.value = expected.value) :
    ∃ drift, driftOf total expected = some drift ∧ drift.lt tolerance = true := by
  have hzero : total.value + expected.negated.value = 0 := by
    rw [Decimal.value_negated, h, add_neg_cancel]
  have hfit : |total.value + expected.negated.value| * 10 ^ max total.scale expected.negated.scale <
      Decimal.bound := by
    rw [hzero, abs_zero, zero_mul]
    norm_num [Decimal.bound]
  obtain ⟨d, hd, -, -⟩ := Decimal.add?_of_lt hfit
  have hdrift : driftOf total expected = some d.absolute := by
    rw [driftOf, Decimal.sub?, hd, Option.map_some]
  refine ⟨_, hdrift, (lt_tolerance_iff hdrift).2 ?_⟩
  rw [h, sub_self, abs_zero]
  norm_num

end Register

namespace Ledger

variable {l l' : Ledger} {now : Readings} {proofSuffix entrySuffix : String}
  {balances : SortedMap Decimal} {expected : Decimal} {proof : ConservationProof}

/-- An anchored check has added up the balances and compared the total with the expected one. -/
theorem of_anchorConservation
    (h : l.anchorConservation now proofSuffix entrySuffix balances expected = .ok (proof, l')) :
    Register.balanceTotal balances = some proof.totalAtp ∧
      Register.driftOf proof.totalAtp expected = some proof.drift ∧
      proof.conserved = proof.drift.lt Register.tolerance := by
  simp only [anchorConservation, bind_eq_ok_iff, pure_eq_ok_iff, Prod.mk.injEq] at h
  obtain ⟨⟨_, _, _⟩, h, rfl, -⟩ := h
  unfold Register.anchorConservation at h
  split at h
  · next total htotal =>
    split at h
    · next drift hdrift =>
      simp only [bind_eq_ok_iff, pure_eq_ok_iff, Prod.mk.injEq] at h
      obtain ⟨_, -, _, -, rfl, -, -⟩ := h
      exact ⟨htotal, hdrift, rfl⟩
    · cases h
  · cases h

/-- A check is anchored unless its total or its drift overflows. -/
theorem exists_anchorConservation (l : Ledger) (now : Readings) (proofSuffix entrySuffix : String)
    {total drift : Decimal} (htotal : Register.balanceTotal balances = some total)
    (hdrift : Register.driftOf total expected = some drift) :
    ∃ proof l', l.anchorConservation now proofSuffix entrySuffix balances expected =
      .ok (proof, l') := by
  obtain ⟨d, -, habsolute⟩ := Option.map_eq_some_iff.1 hdrift
  let proof : ConservationProof :=
    { proofId := "cons:" ++ proofSuffix, entryId := Entry.proposedId .conservationProof entrySuffix
      balances, totalAtp := total, expectedTotal := expected, drift
      conserved := drift.lt Register.tolerance, timestamp := now.record }
  have hnamed : Text.isBlankText ("cons:" ++ proofSuffix) = false := by
    simp [Text.isBlankText, Text.isBlank]
  have hvalid : proof.payload.validate = .ok () := by
    simp only [ConservationProof.payload, Payload.validate, proof, ← habsolute]
    rw [requireNonBlank_eq_ok_iff.2 hnamed]
    rfl
  have hcontent : (Content.ofPayload proof.payload).mapError LedgerError.validation =
      .ok (.plain proof.payload) :=
    mapError_eq_ok_iff.2 (Content.ofPayload_eq_ok_iff.2 ⟨hvalid, rfl⟩)
  have hpropose := Chain.propose_of_admit (c := l.chain) now.entry entrySuffix .root
    (Content.admit_plain hvalid)
  have hregister : ∃ r c, l.register.anchorConservation l.chain now proofSuffix entrySuffix balances
      expected = .ok (proof, r, c) := by
    simp only [Register.anchorConservation, htotal, hdrift]
    exact ⟨_, _, bind_eq_ok_iff.2 ⟨_, hcontent, bind_eq_ok_iff.2 ⟨_, hpropose, rfl⟩⟩⟩
  obtain ⟨r, c, hregister⟩ := hregister
  exact ⟨proof, { l with register := r, chain := c }, bind_eq_ok_iff.2 ⟨_, hregister, rfl⟩⟩

/-- An anchored check passes exactly when its total is closer to the expected one than a
    thousandth.  The total is off the sum of the balances by at most a half for each balance after
    the first; and where the partial sums of the balances fit, the check passes exactly when the
    balances add up to within a thousandth of the expected total. -/
theorem conserved_iff
    (h : l.anchorConservation now proofSuffix entrySuffix balances expected = .ok (proof, l')) :
    (proof.conserved = true ↔ |proof.totalAtp.value - expected.value| < 1 / 1000) ∧
      |proof.totalAtp.value - Decimal.sum balances.values| ≤
        (balances.values.length - 1 : Nat) / 2 ∧
      (Decimal.SumsFit balances.values →
        (proof.conserved = true ↔
          |Decimal.sum balances.values - expected.value| < 1 / 1000)) := by
  obtain ⟨htotal, hdrift, hconserved⟩ := of_anchorConservation h
  have hverdict : proof.conserved = true ↔
      |proof.totalAtp.value - expected.value| < 1 / 1000 := by
    rw [hconserved]
    exact Register.lt_tolerance_iff hdrift
  refine ⟨hverdict, Decimal.abs_foldlM_add?_sub_le htotal, fun hfit => ?_⟩
  obtain ⟨t, ht, -, hvalue⟩ := Decimal.value_foldlM_add? hfit
  rw [Register.balanceTotal, ht, Option.some.injEq] at htotal
  rw [hverdict, ← htotal, hvalue]

/-- Two balances that miss two thousand by half a thousandth pass. -/
theorem conserved_nearMiss :
    let l := new Chain.trio .lowestEntryId 10 5 .empty
    let balances : SortedMap Decimal :=
      .ofList [("lct:a", ⟨false, 9000005, 4, by decide⟩), ("lct:b", ⟨false, 1100, 0, by decide⟩)]
    let expected : Decimal := ⟨false, 2000, 0, by decide⟩
    Decimal.SumsFit balances.values ∧
      ∃ proof l', l.anchorConservation .epoch "x1" "x2" balances expected = .ok (proof, l') ∧
        proof.conserved = true := by
  intro l balances expected
  have hfit : Decimal.SumsFit balances.values := by decide +kernel
  have hclose : |Decimal.sum balances.values - expected.value| < 1 / 1000 := by decide +kernel
  have htotal : Register.balanceTotal balances = some ⟨false, 20000005, 4, by decide⟩ := by
    decide +kernel
  have hdrift : Register.driftOf ⟨false, 20000005, 4, by decide⟩ expected =
      some ⟨false, 5, 4, by decide⟩ := by decide +kernel
  obtain ⟨proof, l', h⟩ := exists_anchorConservation l .epoch "x1" "x2" htotal hdrift
  exact ⟨hfit, proof, l', h, ((conserved_iff h).2.2 hfit).2 hclose⟩

/-- A balance that takes up the whole mantissa leaves no place for a fraction, and the check passes
    although the balances miss the expected total by four tenths. -/
theorem conserved_lostFraction :
    let l := new Chain.trio .lowestEntryId 10 5 .empty
    let balances : SortedMap Decimal :=
      .ofList [("lct:a", ⟨false, 5 * 10 ^ 28, 0, by decide⟩), ("lct:b", ⟨false, 4, 1, by decide⟩)]
    let expected : Decimal := ⟨false, 5 * 10 ^ 28, 0, by decide⟩
    |Decimal.sum balances.values - expected.value| = 4 / 10 ∧
      ∃ proof l', l.anchorConservation .epoch "x1" "x2" balances expected = .ok (proof, l') ∧
        proof.conserved = true ∧
        ¬ (proof.conserved = true ↔
          |Decimal.sum balances.values - expected.value| < 1 / 1000) := by
  intro l balances expected
  have htotal : Register.balanceTotal balances = some expected := by decide +kernel
  have hdrift : Register.driftOf expected expected = some .zero := by decide +kernel
  obtain ⟨proof, l', h⟩ := exists_anchorConservation l .epoch "x1" "x2" htotal hdrift
  obtain ⟨htotal', hdrift', hconserved⟩ := of_anchorConservation h
  rw [htotal, Option.some.injEq] at htotal'
  rw [← htotal', hdrift, Option.some.injEq] at hdrift'
  have hgap : |Decimal.sum balances.values - expected.value| = 4 / 10 := by decide +kernel
  have hpassed : proof.conserved = true := by
    rw [hconserved, ← hdrift']
    decide
  refine ⟨hgap, proof, l', h, hpassed, ?_⟩
  rw [hgap, hpassed]
  norm_num

end Ledger

end WitnessLedger
