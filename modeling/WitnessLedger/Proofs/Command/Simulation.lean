import WitnessLedger.Proofs.Command.Settlements
import WitnessLedger.Proofs.Decimal.Share
import WitnessLedger.Proofs.Number.Rounding
import WitnessLedger.Proofs.Settlement.Conservation
import WitnessLedger.Proofs.SortedMap

/-!
# Reports of a simulation

After the last settlement of a simulation all accepted entries are sealed, and the report says what
the loop has brought about: each settlement is an entry of the chain or a double spend, each entry
is recorded and verified, the blocks are full but for the last one, and the shares of the societies
add up to the total.

## Key results

- `Underway.sealBlock`: the last block takes in what is left
- `Complete.totalCost_eq`, `Complete.entries_eq`: what the blocks hold and cost
- `Complete.exists_verifyAll`: every settlement is recorded and verified
- `exists_balanceTotal`: the shares add up to the total
- `balances_run`: the report of every simulation of a panel that is large enough
-/

namespace WitnessLedger.Command

/-- What the findings of a simulation say of each other: each transfer was anchored once, any other
    settlement was a double spend, and what was anchored was verified, sealed in blocks that are
    full but for the last one, and paid. -/
structure SimulationReport.Balances (r : SimulationReport) (o : SimulationOptions) : Prop where
  requested_eq : r.requested = o.settlements
  anchored_eq : r.anchored = (Simulation.transfers o.doubleSpendEvery o.settlements).card
  anchored_add_doubleSpends : r.anchored + r.doubleSpends = o.settlements
  verified_eq : r.verified = r.anchored
  entries_eq : r.entries = r.anchored
  blocks_eq : r.blocks = (r.anchored + o.blockSize - 1) / o.blockSize
  totalCost_eq : r.totalCost = 200 * r.anchored
  chainValid : r.chainValid = true
  merkleRootsValid : r.merkleRootsValid = true
  conserved : r.conserved = true

namespace Simulation

variable {panel : Panel} {rule : ForkRule} {capacity significance : Nat} {scope : SortedSet}
  {o : SimulationOptions} {l : Ledger} {first : Suffixes} {p : Progress} {s : Session}
  {as : List Ledger.Action} {i : Nat}

/-! ## The last block -/

/-- What holds when all settlements are sealed. -/
structure Complete (o : SimulationOptions) (l : Ledger) (first : Suffixes) (p : Progress)
    (s : Session) (as : List Ledger.Action) : Prop extends
    Reached l first o.settlements s as where
  anchored_eq : p.anchored = (l.anchorings as).map (·.2.id)
  sealed_eq : s.ledger.chain.sealedIds = p.anchored
  blocks_eq :
    s.ledger.chain.blocks.length = (p.anchored.length + o.blockSize - 1) / o.blockSize
  count_eq : p.anchored.length = (transfers o.doubleSpendEvery o.settlements).card

/-- The last block takes in what is left. -/
theorem Underway.sealBlock
    (h : Underway o (.new panel rule capacity significance scope) first o.settlements p s as) :
    Complete o (.new panel rule capacity significance scope) first p s.sealBlock.2
      (as ++ [.sealBlock (s.now.peek 0)]) := by
  have hquiet : ∀ b ∈ [Ledger.Action.sealBlock (s.now.peek 0)], b.IsQuiet := by
    simp [Ledger.Action.IsQuiet]
  obtain ⟨-, hsealed, hblocks⟩ := Chain.sealBlock_accepted h.consistent (s.now.peek 0)
  refine ⟨h.toReached.append hquiet _, ?_, hsealed.trans h.accepted_eq, hblocks.trans ?_,
    h.covered.count_eq⟩
  · rw [Ledger.anchorings_append_of_isQuiet hquiet]
    exact h.anchored_eq
  · have hnone : s.ledger.chain.accepted = [] ↔ p.unsealed = 0 := by
      rw [← List.length_eq_zero_iff, h.unsealed_eq]
    rw [← h.blocks_eq, Number.ceil_div h.unsealed_lt]
    simp only [hnone]

/-- The sealed entries are those of the settlements. -/
theorem Complete.entries_eq
    (h : Complete o (.new panel rule capacity significance scope) first p s as) :
    s.ledger.chain.proof.entries = p.anchored.length := by
  rw [← h.sealed_eq, Chain.sealedIds]
  show Number.total (·.entries.length) s.ledger.chain.blocks = _
  rw [← Number.length_flatMap, ← List.map_flatMap, List.length_map]

/-- An anchored settlement costs what an entry of the root costs. -/
theorem cost_of_mem_anchorings {q : Statement × Entry} (h : q ∈ l.anchorings as) :
    q.2.cost = 200 := by
  obtain ⟨before, a, after, -, hq⟩ := Run.mem_chronicle.1 h
  obtain ⟨now, suffix, -, -, hentry, -⟩ := Ledger.exists_of_mem_anchors hq
  rw [hentry]
  rfl

/-- What the blocks have cost. -/
theorem Complete.totalCost_eq
    (h : Complete o (.new panel rule capacity significance scope) first p s as) :
    s.ledger.chain.proof.totalCost = 200 * p.anchored.length := by
  have hc := h.consistent
  have hcost : ∀ e ∈ s.ledger.chain.entries.filter (·.phase == .finalized), e.cost = 200 := by
    intro e he
    rw [List.mem_filter, beq_iff_eq] at he
    have hfound : s.ledger.chain.entry? e.id = some e :=
      (Chain.entry?_eq_some_iff hc.distinct).2 ⟨he.1, rfl⟩
    -- the entry is sealed, so that it is the one of an anchored statement
    have hmem : e.id ∈ s.ledger.chain.sealedIds :=
      (hc.mem_sealed e.id).2 (Chain.phase?_eq_some_iff.2 ⟨e, hfound, he.2⟩)
    rw [h.sealed_eq, h.anchored_eq] at hmem
    obtain ⟨q, hq, hid⟩ := List.mem_map.1 hmem
    obtain ⟨x, hx, hprogress⟩ := (Ledger.traced_run panel rule capacity significance scope as
      h.anchorsOnly.nodup).exists_entry (Ledger.mem_proposals_of_mem_anchorings hq).1
    rw [← h.ledger_eq, hid, hfound, Option.some.injEq] at hx
    rw [hx, hprogress.core]
    exact cost_of_mem_anchorings hq
  rw [Chain.totalCost_proof hc h.linked, Number.total_eq_mul hcost, ← List.countP_eq_length_filter,
    ← Chain.entries_proof hc, h.entries_eq]

/-! ## Verification -/

/-- Every settlement of some that are anchored and sealed is recorded and verified, and the chain
    stays. -/
theorem Reached.exists_verifyAll
    (h : Reached (.new panel rule capacity significance scope) first i s as)
    (ids : List String)
    (hids : ∀ id ∈ ids,
      id ∈ ((Ledger.new panel rule capacity significance scope).anchorings as).map (·.2.id) ∧
        s.ledger.chain.phase? id = some .finalized) (count : Nat) :
    ∃ t, verifyAll count ids s = (.ok (count + ids.length), t) ∧
      t.ledger.chain = s.ledger.chain := by
  induction ids generalizing s as count with
  | nil => exact ⟨s, rfl, rfl⟩
  | cons id ids ih =>
    obtain ⟨⟨hmem, hphase⟩, hrest⟩ := List.forall_mem_cons.1 hids
    obtain ⟨q, hq, rfl⟩ := List.mem_map.1 hmem
    have hquiet : ∀ b ∈ [Ledger.Action.finalizeSettlement (s.now.peek 0) q.2.id], b.IsQuiet := by
      simp [Ledger.Action.IsQuiet]
    have hexists := h.anchorsOnly.exists_verified hq
    rw [← h.ledger_eq] at hexists
    obtain ⟨record, register, hok, hverified⟩ := hexists hphase (s.now.peek 0)
    have hrun : s.ledger.run [.finalizeSettlement (s.now.peek 0) q.2.id] =
        { s.ledger with register } := by
      show Run.stateAfter s.ledger (s.ledger.finalizeSettlement (s.now.peek 0) q.2.id) = _
      rw [hok, Run.stateAfter_ok]
    obtain ⟨now, hfinalize⟩ : ∃ now, s.finalizeSettlement q.2.id =
        (.ok (some record), { s with ledger := { s.ledger with register }, now }) := by
      rw [Session.finalizeSettlement, hok]
      exact ⟨_, rfl⟩
    have hlater := h.append hquiet now
    rw [hrun] at hlater
    rw [← Ledger.anchorings_append_of_isQuiet hquiet] at hrest
    obtain ⟨t, hall, hchain⟩ := ih hlater hrest (count + 1)
    refine ⟨t, ?_, hchain⟩
    simp only [verifyAll, hfinalize, hverified, if_true, hall]
    rw [List.length_cons, Nat.add_right_comm, Nat.add_assoc]

theorem Complete.exists_verifyAll
    (h : Complete o (.new panel rule capacity significance scope) first p s as) :
    ∃ t, verifyAll 0 p.anchored s = (.ok p.anchored.length, t) ∧
      t.ledger.chain = s.ledger.chain := by
  have hids : ∀ id ∈ p.anchored,
      id ∈ ((Ledger.new panel rule capacity significance scope).anchorings as).map (·.2.id) ∧
        s.ledger.chain.phase? id = some .finalized := by
    intro id hid
    refine ⟨h.anchored_eq ▸ hid, (h.consistent.mem_sealed id).1 ?_⟩
    rw [h.sealed_eq]
    exact hid
  have hall := h.toReached.exists_verifyAll p.anchored hids 0
  rwa [Nat.zero_add] at hall

/-! ## Balances -/

/-- Each society has its share, in whatever order the map has them. -/
theorem values_balances (total : Int) :
    (balances total).values = List.replicate 4 (Decimal.share total 4) := by
  have hnames : ((societies.map fun name => (name, Decimal.share total 4)).map Prod.fst).Nodup := by
    show societies.Nodup
    decide
  exact List.perm_replicate.1 ((SortedMap.ofList_perm hnames).map Prod.snd)

/-- The shares of an amount of at most 64 bits add up to it. -/
theorem exists_balanceTotal {total : Int} (hpos : 0 ≤ total) (hword : total < 2 ^ 63) :
    ∃ t, Register.balanceTotal (balances total) = some t ∧
      t.value = (Decimal.ofInt total).value := by
  have hfit : total.natAbs * 10 ^ 2 < Decimal.bound := by
    norm_num [Decimal.bound]
    omega
  -- four parts need two places at most
  have hmultiple : 4 ∣ total.natAbs * 10 ^ 2 := Dvd.dvd.mul_left (by decide) _
  obtain ⟨hshare, hscale⟩ := Decimal.value_share (by decide) (by decide) hmultiple hfit
  have hsum : 4 * (Decimal.share total 4).value = total := by
    rw [hshare]
    push_cast
    ring
  have hsums : Decimal.SumsFit (List.replicate 4 (Decimal.share total 4)) := by
    have htotal : (total : ℚ) = total.natAbs := by
      rw [Nat.cast_natAbs, abs_of_nonneg hpos]
    have hnonneg : 0 ≤ (Decimal.share total 4).value := by
      rw [hshare, htotal]
      positivity
    refine Decimal.sumsFit_replicate ?_
    calc ((4 : Nat) : ℚ) * |(Decimal.share total 4).value| * 10 ^ (Decimal.share total 4).scale
        = total.natAbs * 10 ^ (Decimal.share total 4).scale := by
          rw [abs_of_nonneg hnonneg, ← htotal, ← hsum]
          norm_cast
      _ ≤ total.natAbs * 10 ^ 2 := by
          gcongr
          norm_num
      _ < Decimal.bound := mod_cast hfit
  obtain ⟨t, ht, -, hvalue⟩ := Decimal.value_foldlM_add? hsums
  refine ⟨t, by rw [Register.balanceTotal, values_balances, ht], ?_⟩
  rw [hvalue, Decimal.sum_replicate, Decimal.value_ofInt (by norm_num [Decimal.bound]; omega)]
  exact mod_cast hsum

/-- The check of the balances passes, and the report on the chain stays as it was. -/
theorem exists_report (hpos : 0 ≤ o.totalAtp) (hword : o.totalAtp < 2 ^ 63) (p : Progress)
    (verified : Nat) (s : Session) :
    let chain := s.ledger.chain.proof
    ∃ t, report o p verified s =
      (.ok { requested := o.settlements, anchored := p.anchored.length
             doubleSpends := p.doubleSpends, verified, blocks := chain.blocks
             entries := chain.entries, totalCost := chain.totalCost, chainValid := chain.valid
             merkleRootsValid := chain.merkleRootsValid, conserved := true
             latestHash := chain.latestHash }, t) := by
  intro chain
  obtain ⟨total, htotal, hvalue⟩ := exists_balanceTotal hpos hword
  obtain ⟨drift, hdrift, hsmall⟩ := Register.exists_driftOf hvalue
  obtain ⟨proof, l, hok⟩ := Ledger.exists_anchorConservation s.ledger s.now.readings
    (s.suffixes.peek 0) (s.suffixes.peek 1) htotal hdrift
  obtain ⟨htotal', hdrift', hconserved⟩ := Ledger.of_anchorConservation hok
  rw [htotal, Option.some.injEq] at htotal'
  rw [← htotal', hdrift, Option.some.injEq] at hdrift'
  rw [← hdrift', hsmall] at hconserved
  -- the check adds an entry that is not sealed
  obtain ⟨-, -, hledger⟩ := Ledger.anchorConservation_eq_ok hok
  have hchain : l.chain.proof = chain := by
    rw [hledger]
    rfl
  have hanchor : s.anchorConservation (balances o.totalAtp) (Decimal.ofInt o.totalAtp) =
      (.ok proof, { s.spend ⟨2, 2⟩ with ledger := l }) := by
    rw [Session.anchorConservation, hok]
    rfl
  refine ⟨{ s.spend ⟨2, 2⟩ with ledger := l }, ?_⟩
  simp only [report, hanchor, hchain, hconserved]

/-! ## Whole simulations -/

theorem check_eq_ok (hblock : 1 ≤ o.blockSize) (hevery : o.doubleSpendEvery ≠ some 0)
    (hpos : 0 ≤ o.totalAtp) : check o = .ok () := by
  rw [check, if_neg (Nat.ne_of_gt hblock), if_neg hevery, if_neg (Int.not_lt.2 hpos)]
  rfl

/-- When all settlements are sealed, what is left to do succeeds, and its findings balance. -/
theorem Complete.exists_report
    (h : Complete o (.new panel rule capacity significance scope) first p s as)
    (htotal : p.anchored.length + p.doubleSpends = o.settlements)
    (hpos : 0 ≤ o.totalAtp) (hword : o.totalAtp < 2 ^ 63) :
    ∃ t r t', verifyAll 0 p.anchored s = (.ok p.anchored.length, t) ∧
      report o p p.anchored.length t = (.ok r, t') ∧ r.Balances o := by
  obtain ⟨t, hverify, hchain⟩ := h.exists_verifyAll
  obtain ⟨t', hreport⟩ := Simulation.exists_report hpos hword p p.anchored.length t
  refine ⟨t, _, t', hverify, hreport, ?_⟩
  rw [hchain]
  constructor
  case requested_eq => rfl
  case anchored_eq => exact h.count_eq
  case anchored_add_doubleSpends => exact htotal
  case verified_eq => rfl
  case entries_eq => exact h.entries_eq
  case blocks_eq => exact h.blocks_eq
  case totalCost_eq => exact h.totalCost_eq
  case chainValid => exact Chain.valid_proof h.linked
  case merkleRootsValid => exact Chain.merkleRootsValid_proof h.linked
  case conserved => rfl

/-- On a ledger that a configuration has just set up, with any clock and enough suffixes that are
    pairwise distinct: if the panel has three members or more, a simulation succeeds and its findings
    balance; if it has fewer, a simulation of one settlement or more fails for want of a quorum. -/
theorem balances_run (c : Config) (s : Session) (hfresh : Ledger.ofConfig c = .ok s.ledger)
    (o : SimulationOptions) (hblock : 1 ≤ o.blockSize) (hevery : o.doubleSpendEvery ≠ some 0)
    (hpos : 0 ≤ o.totalAtp) (hword : o.totalAtp < 2 ^ 63)
    (hdistinct : s.suffixes.Distinct (2 * o.settlements)) :
    (3 ≤ c.consensusNodes.length → ∃ r t, run o s = (.ok r, t) ∧ r.Balances o) ∧
    (c.consensusNodes.length < 3 → 1 ≤ o.settlements → ∃ entry t, run o s =
      (.error (.integrity (.noQuorum entry c.consensusNodes.length)), t)) := by
  obtain ⟨panel, hpanel, hledger⟩ := Ledger.exists_new_of_ofConfig hfresh
  have hsize : panel.size = c.consensusNodes.length := by
    rw [Panel.size, Panel.nodes_of hpanel]
  have hcheck : check o = .ok () := check_eq_ok hblock hevery hpos
  rw [← hsize]
  refine ⟨fun hlarge => ?_, fun hsmall hsome => ?_⟩
  · have hstart := underway_zero (o := o) hledger hblock
    rw [hledger] at hstart
    obtain ⟨p, s', as, hall, hend⟩ :=
      hstart.exists_settleAll hlarge o.settlements (by rwa [Nat.zero_add])
    rw [Nat.zero_add] at hend
    obtain ⟨t, r, t', hverify, hreport, hbalances⟩ :=
      hend.sealBlock.exists_report hend.total_eq hpos hword
    exact ⟨r, t', by simp only [run, hcheck, hall, hverify, hreport], hbalances⟩
  · obtain ⟨count, hcount⟩ := Nat.exists_eq_succ_of_ne_zero (Nat.ne_of_gt hsome)
    obtain ⟨t, hsettle⟩ := settle_of_small (o := o) hledger hsmall ⟨[], 0, 0⟩
    exact ⟨(entryAt o 0 s).id, t, by simp only [run, hcheck, hcount, settleAll, hsettle]⟩

/-- Three settlements on the standard panel, and on two of its members. -/
theorem balances_standard :
    let o : SimulationOptions := ⟨3, 2, some 2, 1000⟩
    let pair : Config := { Config.standard with consensusNodes := ["node-alpha", "node-beta"] }
    (∃ s r t, Ledger.ofConfig .standard = .ok s.ledger ∧ run o s = (.ok r, t) ∧ r.Balances o) ∧
    (∃ s entry t, Ledger.ofConfig pair = .ok s.ledger ∧
      run o s = (.error (.integrity (.noQuorum entry 2)), t)) := by
  intro o pair
  have hdistinct : (Suffixes.listed []).Distinct (2 * o.settlements) := by decide +kernel
  constructor
  · obtain ⟨l, hfresh⟩ : ∃ l, Ledger.ofConfig .standard = .ok l :=
      exists_eq_ok_of_isOk (by decide +kernel)
    obtain ⟨r, t, hrun, hbalances⟩ := (balances_run .standard ⟨l, .listed [], .ticking⟩ hfresh o
      (by decide) (by decide) (by decide) (by decide) hdistinct).1 (by decide)
    exact ⟨_, r, t, hfresh, hrun, hbalances⟩
  · obtain ⟨l, hfresh⟩ : ∃ l, Ledger.ofConfig pair = .ok l :=
      exists_eq_ok_of_isOk (by decide +kernel)
    obtain ⟨entry, t, hrun⟩ := (balances_run pair ⟨l, .listed [], .ticking⟩ hfresh o (by decide)
      (by decide) (by decide) (by decide) hdistinct).2 (by decide) (by decide)
    exact ⟨_, entry, t, hfresh, hrun⟩

end Simulation

end WitnessLedger.Command
