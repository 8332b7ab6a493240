import WitnessLedger.Proofs.Command.Simulation
import WitnessLedger.Proofs.Text.Numeral
import Mathlib.Data.Nat.Factorization.Basic

/-!
# Replays of a simulation

A settlement that is asked to replay names the transfer of the one before it.  That one has settled
it only if it was no replay itself: after a replay the transfer is still free, and the settlement
that names it is anchored like any other.  So every replay is a double spend where no two of them
follow each other, and where every settlement is to be a replay, only the first one is.

## Key results

- `transferId_mem_transfers_iff`: when the transfer of a settlement has been named before
- `card_transfers_add_card_refused`: what is not refused names a transfer of its own
- `card_replays`: how many replays are asked for
- `doubleSpends_run`: the double spends that a simulation reports
-/

namespace WitnessLedger.Command.Simulation

variable {every : Option Nat} {d i j n : Nat}

/-! ## The transfers that settlements name -/

/-- The settlements that are asked to replay. -/
def replays (every : Option Nat) (count : Nat) : Finset Nat :=
  (Finset.range count).filter fun i => isReplay every i = true

/-- The settlements that replay one which is no replay itself. -/
def refused (every : Option Nat) (count : Nat) : Finset Nat :=
  (Finset.range count).filter fun i => isReplay every i = true ∧ isReplay every (i - 1) = false

/-- Two settlements name the same transfer exactly if they name that of the same settlement. -/
theorem transferId_eq_iff : transferId every i = transferId every j ↔
    (if isReplay every i then i - 1 else i) = if isReplay every j then j - 1 else j := by
  rw [transferId, transferId, String.append_right_inj]
  exact ⟨Text.Numeral.text_inj, congrArg Text.Numeral.text⟩

/-- The first settlement replays nothing. -/
theorem pos_of_isReplay (h : isReplay every i = true) : 0 < i := by
  cases every with
  | none => cases h
  | some d =>
    simp only [isReplay, Option.any_some, Bool.and_eq_true, decide_eq_true_eq] at h
    exact h.1

/-- The transfer of a settlement has been named before exactly if it is that of the one before it,
    which is no replay. -/
theorem transferId_mem_transfers_iff : transferId every i ∈ transfers every i ↔
    isReplay every i = true ∧ isReplay every (i - 1) = false := by
  simp only [transfers, Finset.mem_image, Finset.mem_range, transferId_eq_iff]
  constructor
  · rintro ⟨j, hj, heq⟩
    -- a settlement names its own number or the one before it, so `j` can only be `i - 1`
    cases hi : isReplay every i with
    | false => rw [hi] at heq; split at heq <;> simp at heq <;> omega
    | true =>
      have hpos := pos_of_isReplay hi
      cases hprev : isReplay every j with
      | true => simp only [hi, hprev, if_true] at heq; have := pos_of_isReplay hprev; omega
      | false =>
        simp only [hi, hprev, if_true, Bool.false_eq_true, if_false] at heq
        exact ⟨rfl, heq ▸ hprev⟩
  · rintro ⟨hi, hprev⟩
    have hpos := pos_of_isReplay hi
    refine ⟨i - 1, by omega, ?_⟩
    simp only [hi, hprev, if_true, Bool.false_eq_true, if_false]

/-- Each settlement is refused or names a transfer of its own. -/
theorem card_transfers_add_card_refused (every : Option Nat) (n : Nat) :
    (transfers every n).card + (refused every n).card = n := by
  induction n with
  | zero => rfl
  | succ n ih =>
    have hrefused : refused every (n + 1) =
        if transferId every n ∈ transfers every n then insert n (refused every n)
        else refused every n := by
      simp only [refused, transferId_mem_transfers_iff, Finset.range_add_one, Finset.filter_insert]
    rw [transfers_succ, hrefused]
    split
    · next hmem =>
      rw [Finset.insert_eq_of_mem hmem, Finset.card_insert_of_notMem (by simp [refused])]
      omega
    · next hmem =>
      rw [Finset.card_insert_of_notMem hmem]
      omega

/-! ## How many they are -/

theorem isReplay_some : isReplay (some d) i = true ↔ i ≠ 0 ∧ d ∣ i := by
  simp [isReplay, Nat.dvd_iff_mod_eq_zero, Nat.pos_iff_ne_zero]

/-- One settlement in `d` is asked to replay, but not the first. -/
theorem card_replays (d n : Nat) : (replays (some d) n).card = (n - 1) / d := by
  simp only [replays, isReplay_some]
  cases n with
  | zero => simp
  | succ n => exact Nat.card_multiples' n d

/-- No two replays follow each other where they are two or more apart, so that all are refused. -/
theorem refused_eq_replays (hd : 2 ≤ d) (n : Nat) : refused (some d) n = replays (some d) n := by
  apply Finset.filter_congr
  intro i _
  refine and_iff_left_of_imp fun hi => ?_
  rw [← Bool.not_eq_true, isReplay_some, not_and]
  obtain ⟨hpos, hdvd⟩ := isReplay_some.1 hi
  intro _ hprev
  -- a common divisor of two neighbours divides one
  have hone : d ∣ i - (i - 1) := Nat.dvd_sub hdvd hprev
  have := Nat.le_of_dvd (by omega) hone
  omega

/-- Where all are asked to replay, only the second one finds the transfer settled. -/
theorem card_refused_one (n : Nat) : (refused (some 1) n).card = min 1 (n - 1) := by
  have honly : refused (some 1) n = if 2 ≤ n then {1} else ∅ := by
    ext i
    simp only [refused, ← Bool.not_eq_true, isReplay_some, one_dvd, and_true, Finset.mem_filter,
      Finset.mem_range, not_not]
    split <;> simp <;> omega
  rw [honly]
  split
  · rw [Finset.card_singleton]; omega
  · rw [Finset.card_empty]; omega

/-! ## Reports -/

variable {c : Config} {s : Session} {o : SimulationOptions}

/-- A simulation on a fresh ledger with a panel that is large enough succeeds, and counts the
    replays of settlements that are no replays themselves. -/
theorem exists_doubleSpends (hfresh : Ledger.ofConfig c = .ok s.ledger)
    (hlarge : 3 ≤ c.consensusNodes.length) (hblock : 1 ≤ o.blockSize)
    (hevery : o.doubleSpendEvery ≠ some 0) (hpos : 0 ≤ o.totalAtp) (hword : o.totalAtp < 2 ^ 63)
    (hdistinct : s.suffixes.Distinct (2 * o.settlements)) :
    ∃ r t, run o s = (.ok r, t) ∧
      r.doubleSpends = (refused o.doubleSpendEvery o.settlements).card := by
  obtain ⟨panel, hpanel, hledger⟩ := Ledger.exists_new_of_ofConfig hfresh
  have hsize : 3 ≤ panel.size := by rwa [Panel.size, Panel.nodes_of hpanel]
  have hstart := underway_zero (o := o) hledger hblock
  rw [hledger] at hstart
  rw [← Nat.zero_add o.settlements] at hdistinct
  obtain ⟨p, s', as, hall, hend⟩ := hstart.exists_settleAll hsize o.settlements hdistinct
  rw [Nat.zero_add] at hend
  obtain ⟨t, r, t', hverify, hreport, hbalances⟩ :=
    hend.sealBlock.exists_report hend.total_eq hpos hword
  refine ⟨r, t', by simp only [run, check_eq_ok hblock hevery hpos, hall, hverify, hreport], ?_⟩
  -- what is not a double spend is anchored, once for each transfer
  have htotal := hbalances.anchored_add_doubleSpends
  rw [hbalances.anchored_eq] at htotal
  have hcount := card_transfers_add_card_refused o.doubleSpendEvery o.settlements
  omega

/-- On a ledger that a configuration of three nodes or more has just set up, with any clock and
    enough suffixes that are pairwise distinct, a simulation that is asked to replay every so often
    succeeds and reports a double spend for each replay of a settlement that is no replay itself.
    These are all of the replays, one in `d`, exactly if no two replays follow each other; where
    every settlement is to be a replay, at most one is a double spend. -/
theorem doubleSpends_run (c : Config) (s : Session) (hfresh : Ledger.ofConfig c = .ok s.ledger)
    (hlarge : 3 ≤ c.consensusNodes.length) (o : SimulationOptions) (hblock : 1 ≤ o.blockSize)
    (d : Nat) (hevery : o.doubleSpendEvery = some d) (hd : 1 ≤ d) (hpos : 0 ≤ o.totalAtp)
    (hword : o.totalAtp < 2 ^ 63) (hdistinct : s.suffixes.Distinct (2 * o.settlements)) :
    ∃ r t, run o s = (.ok r, t) ∧
      r.doubleSpends = (refused (some d) o.settlements).card ∧
      (replays (some d) o.settlements).card = (o.settlements - 1) / d ∧
      (r.doubleSpends = (o.settlements - 1) / d ↔ 2 ≤ d ∨ o.settlements ≤ 2) ∧
      (d = 1 → r.doubleSpends = min 1 (o.settlements - 1)) := by
  have hsome : o.doubleSpendEvery ≠ some 0 := by
    rw [hevery, ne_eq, Option.some.injEq]
    omega
  obtain ⟨r, t, hrun, hcount⟩ :=
    exists_doubleSpends hfresh hlarge hblock hsome hpos hword hdistinct
  rw [hevery] at hcount
  refine ⟨r, t, hrun, hcount, card_replays d o.settlements, ?_, ?_⟩
  · rw [hcount]
    rcases Nat.lt_or_ge 1 d with htwo | hone
    · rw [refused_eq_replays htwo, card_replays]
      exact iff_of_true rfl (.inl htwo)
    · obtain rfl : d = 1 := Nat.le_antisymm hone hd
      rw [card_refused_one, Nat.div_one]
      omega
  · rintro rfl
    rw [hcount, card_refused_one]

/-- Seven settlements on the standard panel, of which the third, the fifth and the seventh are
    replays. -/
theorem doubleSpends_everySecond :
    let o : SimulationOptions := ⟨7, 2, some 2, 1000⟩
    ∃ s r t, Ledger.ofConfig .standard = .ok s.ledger ∧ run o s = (.ok r, t) ∧
      r.doubleSpends = (7 - 1) / 2 := by
  intro o
  obtain ⟨l, hfresh⟩ : ∃ l, Ledger.ofConfig .standard = .ok l :=
    exists_eq_ok_of_isOk (by decide +kernel)
  have hdistinct : (Suffixes.listed []).Distinct (2 * o.settlements) := by decide +kernel
  obtain ⟨r, t, hrun, -, -, hcount, -⟩ := doubleSpends_run .standard ⟨l, .listed [], .ticking⟩
    hfresh (by decide) o (by decide) 2 rfl (by decide) (by decide) (by decide) hdistinct
  exact ⟨_, r, t, hfresh, hrun, hcount.2 (.inl (by decide))⟩

/-- Of three settlements that are all to be replays, only the second is a double spend. -/
theorem not_doubleSpends_everyOne :
    let o : SimulationOptions := ⟨3, 1, some 1, 1000⟩
    ∃ s r t, Ledger.ofConfig .standard = .ok s.ledger ∧ run o s = (.ok r, t) ∧
      r.doubleSpends = 1 ∧ r.doubleSpends ≠ (3 - 1) / 1 := by
  intro o
  obtain ⟨l, hfresh⟩ : ∃ l, Ledger.ofConfig .standard = .ok l :=
    exists_eq_ok_of_isOk (by decide +kernel)
  have hdistinct : (Suffixes.listed []).Distinct (2 * o.settlements) := by decide +kernel
  obtain ⟨r, t, hrun, hcount⟩ := exists_doubleSpends (s := ⟨l, .listed [], .ticking⟩) (o := o)
    hfresh (by decide) (by decide) (by decide) (by decide) (by decide) hdistinct
  have hone : r.doubleSpends = 1 := hcount.trans (card_refused_one 3)
  exact ⟨_, r, t, hfresh, hrun, hone, by rw [hone]; decide⟩

end WitnessLedger.Command.Simulation
