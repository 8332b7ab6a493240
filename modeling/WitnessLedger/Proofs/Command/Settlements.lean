import WitnessLedger.Command.Simulation
import WitnessLedger.Proofs.Command.Quorum
import Mathlib.Data.Finset.Card

/-!
# Settlements of a simulation

Each settlement of a simulation makes a statement with an id of its own, anchors it, and collects
votes on it.  The only thing that can go wrong is that the transfer is settled, which is counted, or
that the panel is too small.  So the entries that the progress names are those of the anchored
statements, one for each transfer, and each of them is sealed in a full block or waits to be sealed.

## Key results

- `settle_of_settled`, `settle_of_free`: what a settlement does, by its transfer
- `Reached.anchor`, `Reached.append`: the ledger stays that of a run which only anchors
- `Covered.repeated`, `Covered.settling`: the settled transfers are those of the settlements so far
- `Underway.exists_settle`: each settlement adds an accepted entry or a double spend
- `Underway.exists_settleAll`: what holds after all settlements
- `settle_of_small`: the first settlement fails where the panel is too small
-/

namespace WitnessLedger

namespace Suffixes

/-- Whether a number of suffixes that come next are pairwise distinct. -/
def Distinct (s : Suffixes) (count : Nat) : Prop :=
  ∀ i < count, ∀ j < count, s.peek i = s.peek j → i = j

instance (s : Suffixes) (count : Nat) : Decidable (s.Distinct count) :=
  inferInstanceAs (Decidable (∀ i < count, ∀ j < count, _))

theorem Distinct.mono {s : Suffixes} {m n : Nat} (h : s.Distinct n) (hmn : m ≤ n) : s.Distinct m :=
  fun i hi j hj => h i (Nat.lt_of_lt_of_le hi hmn) j (Nat.lt_of_lt_of_le hj hmn)

end Suffixes

namespace Command.Simulation

/-! ## One settlement -/

/-- The statement that a settlement anchors. -/
def statementAt (o : SimulationOptions) (i : Nat) (suffix : String) : Statement :=
  Statement.withTransfers
    { Statement.blank (Statement.idFor suffix) (society i) (society (i + 1)) with
      netPosition := Decimal.ofInt (i + 1) }
    [transferId o.doubleSpendEvery i]

/-- Each society has a name, which is not that of the next. -/
theorem society_apart (i : Nat) :
    Text.isBlankText (society i) = false ∧ society i ≠ society (i + 1) := by
  have hturns : ∀ r < 4, Text.isBlankText (society r) = false ∧ society r ≠ society (r + 1) := by
    decide
  have hturn : society i = society (i % 4) := by
    rw [society, society]
    exact congrArg (fun r => (societies[r]?).getD "") (Nat.mod_mod i 4).symm
  have hnext : society (i + 1) = society (i % 4 + 1) := by
    rw [society, society]
    exact congrArg (fun r => (societies[r]?).getD "") (Nat.mod_add_mod i 4 1).symm
  rw [hturn, hnext]
  exact hturns _ (Nat.mod_lt i (by decide))

/-- Transfers or none, a statement between a society and the next is valid. -/
theorem validate_eq_ok {s : Statement} {suffix : String} {i : Nat}
    (hid : s.statementId = Statement.idFor suffix) (ha : s.societyA = society i)
    (hb : s.societyB = society (i + 1))
    (htransfers : ∀ t ∈ s.transferIds, Text.isBlankText t = false) : s.validate = .ok () := by
  obtain ⟨hnamed, hapart⟩ := society_apart i
  refine Statement.validate_eq_ok_iff.2 ⟨?_, ?_, ?_, ?_, htransfers⟩
  · rw [hid]
    simp [Statement.idFor, Text.isBlankText, Text.isBlank]
  · rw [ha]
    exact hnamed
  · rw [hb]
    exact (society_apart (i + 1)).1
  · rw [ha, hb]
    exact hapart

theorem validate_statementAt (o : SimulationOptions) (i : Nat) (suffix : String) :
    (statementAt o i suffix).validate = .ok () := by
  refine validate_eq_ok rfl rfl rfl fun t ht => ?_
  obtain rfl := List.mem_singleton.1 ht
  simp [transferId, Text.isBlankText, Text.isBlank]

theorem newStatement_eq (s : Session) (i : Nat) :
    s.newStatement (society i) (society (i + 1)) =
      (.ok (Statement.blank (Statement.idFor (s.suffixes.peek 0)) (society i) (society (i + 1))),
        s.spend ⟨0, 1⟩) := by
  have hvalid : (Statement.blank (Statement.idFor (s.suffixes.peek 0)) (society i)
      (society (i + 1))).validate = .ok () :=
    validate_eq_ok rfl rfl rfl fun t ht => absurd ht List.not_mem_nil
  simp only [Session.newStatement, Statement.between, hvalid]
  rfl

/-- The operation by which a settlement anchors its statement. -/
def anchorAt (o : SimulationOptions) (i : Nat) (s : Session) : Ledger.Action :=
  .anchor s.now.readings (s.suffixes.peek 1) (statementAt o i (s.suffixes.peek 0))

/-- The session after the statement of a settlement has been anchored, with one reading of the
    clock, or refused, with two. -/
def anchoring (o : SimulationOptions) (i readings : Nat) (s : Session) : Session :=
  { s.spend ⟨readings, 2⟩ with ledger := s.ledger.act (anchorAt o i s) }

/-- The entry that is proposed for the statement of a settlement. -/
def entryAt (o : SimulationOptions) (i : Nat) (s : Session) : Entry :=
  s.ledger.settlementOf s.now.readings (s.suffixes.peek 1) (statementAt o i (s.suffixes.peek 0))

variable {o : SimulationOptions} {i : Nat} {p : Progress} {s : Session} {l : Ledger}

/-- What a settlement anchors its statement with, once the statement has its id. -/
theorem commit_anchor {outcome : Anchoring} (h : s.ledger.anchor s.now.readings
      (s.suffixes.peek 1) (statementAt o i (s.suffixes.peek 0)) = .ok (outcome, l)) :
    let t := s.spend ⟨0, 1⟩
    t.commit Anchoring.usage (t.ledger.anchor t.now.readings (t.suffixes.peek 0)
        (statementAt o i (s.suffixes.peek 0))) =
      (.ok outcome, anchoring o i outcome.usage.readings s) := by
  intro t
  have hledger : t.ledger.anchor t.now.readings (t.suffixes.peek 0)
      (statementAt o i (s.suffixes.peek 0)) = .ok (outcome, l) := h
  rw [hledger, anchoring, anchorAt, Ledger.act, h, Run.stateAfter_ok]
  cases outcome <;> rfl

/-- Where its statement is anchored, a settlement goes on with the votes on the entry. -/
theorem settle_of_proposed {e : Entry} (h : s.ledger.anchor s.now.readings (s.suffixes.peek 1)
      (statementAt o i (s.suffixes.peek 0)) = .ok (.proposed e, l)) (p : Progress) :
    settle o i p s = accept o.blockSize e.id p (anchoring o i 1 s) := by
  have hanchor : (s.spend ⟨0, 1⟩).anchor (statementAt o i (s.suffixes.peek 0)) =
      (.ok e, anchoring o i 1 s) := by
    simp only [Session.anchor, commit_anchor h, Anchoring.usage]
  rw [statementAt] at hanchor
  simp only [settle, newStatement_eq, hanchor]

/-- Where its statement is refused for the transfer, a settlement counts a double spend. -/
theorem settle_of_doubleSpend {transfer : String} {alert : Entry}
    (h : s.ledger.anchor s.now.readings (s.suffixes.peek 1)
      (statementAt o i (s.suffixes.peek 0)) = .ok (.doubleSpend transfer alert, l))
    (p : Progress) :
    settle o i p s =
      (.ok { p with doubleSpends := p.doubleSpends + 1 }, anchoring o i 2 s) := by
  have hanchor : (s.spend ⟨0, 1⟩).anchor (statementAt o i (s.suffixes.peek 0)) =
      (.error (.doubleSpend transfer alert.id), anchoring o i 2 s) := by
    simp only [Session.anchor, commit_anchor h, Anchoring.usage]
  rw [statementAt] at hanchor
  simp only [settle, newStatement_eq, hanchor]

/-- A settlement of a transfer that is settled is counted as a double spend; an alert is proposed,
    and nothing is anchored. -/
theorem settle_of_settled
    (h : s.ledger.chain.isSettled (transferId o.doubleSpendEvery i) = true) (p : Progress) :
    settle o i p s =
        (.ok { p with doubleSpends := p.doubleSpends + 1 }, anchoring o i 2 s) ∧
      s.ledger.anchors (anchorAt o i s) = [] ∧
      ∃ alert, (anchoring o i 2 s).ledger.chain = s.ledger.chain.push alert := by
  have hanchor := Ledger.anchor_of_settled (validate_statementAt o i (s.suffixes.peek 0))
    (List.find?_cons_of_pos h) s.now.readings (s.suffixes.peek 1)
  refine ⟨settle_of_doubleSpend hanchor p, ?_, s.ledger.alertOn s.now.readings (s.suffixes.peek 1)
    (statementAt o i (s.suffixes.peek 0)) (transferId o.doubleSpendEvery i), ?_⟩
  · rw [anchorAt, Ledger.anchors, hanchor]
  · rw [anchoring, anchorAt, Ledger.act, hanchor]
    rfl

/-- A settlement of a new statement with a free transfer is anchored, and goes on with the votes on
    it. -/
theorem settle_of_free
    (h : s.ledger.chain.isSettled (transferId o.doubleSpendEvery i) = false)
    (hnew : Statement.idFor (s.suffixes.peek 0) ∉ s.ledger.register.anchored) (p : Progress) :
    settle o i p s = accept o.blockSize (entryAt o i s).id p (anchoring o i 1 s) ∧
      s.ledger.anchors (anchorAt o i s) =
        [(statementAt o i (s.suffixes.peek 0), entryAt o i s)] ∧
      (anchoring o i 1 s).ledger.chain =
        (s.ledger.chain.push (entryAt o i s)).recordSettlement
          (transferId o.doubleSpendEvery i) := by
  have hfree : (statementAt o i (s.suffixes.peek 0)).transferIds.find? s.ledger.chain.isSettled =
      none := by
    show [transferId o.doubleSpendEvery i].find? _ = none
    rw [List.find?_cons_of_neg (by rw [h]; exact Bool.false_ne_true), List.find?_nil]
  have hanchor := Ledger.anchor_of_free (validate_statementAt o i (s.suffixes.peek 0)) hfree hnew
    s.now.readings (s.suffixes.peek 1)
  refine ⟨settle_of_proposed hanchor p, ?_, ?_⟩
  · rw [anchorAt, Ledger.anchors, hanchor]
    rfl
  · rw [anchoring, anchorAt, Ledger.act, hanchor]
    rfl

/-! ## The ledger of a simulation -/

section Reached

variable {panel : Panel} {rule : ForkRule} {capacity significance : Nat} {scope : SortedSet}
  {first : Suffixes} {as bs : List Ledger.Action}

/-- What holds of the session after a number of settlements, whatever became of them: the ledger is
    that of a run which only anchors, and the suffixes for its ids and those of its statements have
    been taken in turn. -/
structure Reached (l : Ledger) (first : Suffixes) (i : Nat) (s : Session)
    (as : List Ledger.Action) : Prop where
  ledger_eq : s.ledger = l.run as
  suffixes_eq : s.suffixes = first.take (2 * i)
  anchorsOnly : l.AnchorsOnly as
  taken : ∀ x ∈ l.suffixes as, ∃ j < 2 * i, x = first.peek j
  statements : ∀ q ∈ l.anchorings as, ∃ j < 2 * i,
    q.1.statementId = Statement.idFor (first.peek j)

theorem reached_zero {s : Session} (h : s.ledger = .new panel rule capacity significance scope) :
    Reached s.ledger s.suffixes 0 s [] where
  ledger_eq := rfl
  suffixes_eq := rfl
  anchorsOnly := by
    rw [h]
    exact ⟨fun _ ha => absurd ha List.not_mem_nil, rfl, List.nodup_nil⟩
  taken _ hx := absurd hx List.not_mem_nil
  statements _ hq := absurd hq List.not_mem_nil

/-- Votes and blocks change nothing of this, nor do readings of the clock. -/
theorem Reached.append (h : Reached l first i s as) (hbs : ∀ b ∈ bs, b.IsQuiet) (now : Clock) :
    Reached l first i { s with ledger := s.ledger.run bs, now } (as ++ bs) where
  ledger_eq := by
    rw [h.ledger_eq]
    exact List.foldl_append.symm
  suffixes_eq := h.suffixes_eq
  anchorsOnly := h.anchorsOnly.append hbs
  taken := by
    rw [Ledger.suffixes_append_of_isQuiet hbs]
    exact h.taken
  statements := by
    rw [Ledger.anchorings_append_of_isQuiet hbs]
    exact h.statements

/-- The next statement has suffixes of its own. -/
theorem Reached.anchor (h : Reached l first i s as)
    (hdistinct : first.Distinct (2 * (i + 1))) (o : SimulationOptions) (readings : Nat) :
    Reached l first (i + 1) (anchoring o i readings s) (as ++ [anchorAt o i s]) := by
  have hpeek : ∀ k, s.suffixes.peek k = first.peek (2 * i + k) := by
    intro k
    rw [h.suffixes_eq]
    exact first.peek_take ..
  constructor
  case ledger_eq => rw [anchoring, h.ledger_eq, Ledger.run_concat]
  case suffixes_eq =>
    show s.suffixes.take 2 = _
    rw [h.suffixes_eq]
    rfl
  case anchorsOnly =>
    refine h.anchorsOnly.anchor s.now.readings (fun hmem => ?_) _
    obtain ⟨j, hj, heq⟩ := h.taken _ hmem
    rw [hpeek] at heq
    have := hdistinct _ (by omega) _ (by omega) heq
    omega
  case taken =>
    intro x hx
    rw [Ledger.suffixes_concat] at hx
    rcases List.mem_append.1 hx with hx | hx
    · obtain ⟨j, hj, heq⟩ := h.taken x hx
      exact ⟨j, by omega, heq⟩
    · refine ⟨2 * i + 1, by omega, ?_⟩
      rw [← hpeek]
      rw [anchorAt] at hx
      rcases (l.run as).draws_anchor s.now.readings (s.suffixes.peek 1)
        (statementAt o i (s.suffixes.peek 0)) with hdraws | hdraws <;> rw [hdraws] at hx
      · cases hx
      · exact List.mem_singleton.1 hx
  case statements =>
    intro q hq
    rw [Ledger.anchorings, Run.chronicle_concat] at hq
    rcases List.mem_append.1 hq with hq | hq
    · obtain ⟨j, hj, heq⟩ := h.statements q hq
      exact ⟨j, by omega, heq⟩
    · refine ⟨2 * i, by omega, ?_⟩
      obtain ⟨now, suffix, ha, -⟩ := Ledger.exists_of_mem_anchors hq
      have hstatement := (Ledger.Action.anchor.inj ha).2.2
      rw [← hstatement]
      exact congrArg Statement.idFor (hpeek 0)

/-- The id of the next statement has not been anchored. -/
theorem Reached.notMem_anchored
    (h : Reached (.new panel rule capacity significance scope) first i s as)
    (hdistinct : first.Distinct (2 * (i + 1))) :
    Statement.idFor (s.suffixes.peek 0) ∉ s.ledger.register.anchored := by
  rw [h.ledger_eq, (Ledger.accounted_run panel rule capacity significance scope as).ids,
    h.suffixes_eq]
  intro hmem
  obtain ⟨q, hq, hid⟩ := List.mem_map.1 hmem
  obtain ⟨j, hj, heq⟩ := h.statements q hq
  rw [hid, Statement.idFor, Statement.idFor, String.append_right_inj] at heq
  have := hdistinct (2 * i) (by omega) j (by omega) heq
  omega

theorem Reached.chain_eq (h : Reached (.new panel rule capacity significance scope) first i s as) :
    ∃ cs, s.ledger.chain = (Chain.new panel rule).run cs ∧
      (Chain.suffixes (.new panel rule) cs).Nodup := by
  rw [h.ledger_eq, Ledger.chain_run]
  exact ⟨_, rfl, h.anchorsOnly.nodup⟩

theorem Reached.consistent
    (h : Reached (.new panel rule capacity significance scope) first i s as) :
    s.ledger.chain.Consistent := by
  obtain ⟨cs, heq, hnodup⟩ := h.chain_eq
  rw [heq]
  exact (Chain.traced_run panel rule cs hnodup).consistent

theorem Reached.linked (h : Reached (.new panel rule capacity significance scope) first i s as) :
    Chain.Linked s.ledger.chain.blocks := by
  rw [h.ledger_eq]
  exact Ledger.linked_run as

theorem Reached.panel_eq (h : Reached (.new panel rule capacity significance scope) first i s as) :
    s.ledger.chain.panel = panel := by
  obtain ⟨cs, heq, -⟩ := h.chain_eq
  rw [heq]
  exact Chain.run_panel _ cs

/-! ## Transfers -/

/-- The different transfers of a number of settlements. -/
def transfers (every : Option Nat) (count : Nat) : Finset String :=
  (Finset.range count).image (transferId every)

theorem transfers_succ (every : Option Nat) (i : Nat) :
    transfers every (i + 1) = insert (transferId every i) (transfers every i) := by
  rw [transfers, Finset.range_add_one, Finset.image_insert, ← transfers]

/-- Whether the settled transfers are those of a number of settlements, with an entry for each. -/
structure Covered (every : Option Nat) (i entries : Nat) (c : Chain) : Prop where
  settled : ∀ t, c.isSettled t = true ↔ t ∈ transfers every i
  count_eq : entries = (transfers every i).card

section Covered

variable {every : Option Nat} {entries : Nat} {c c' : Chain}

/-- A settlement of a settled transfer adds no other one. -/
theorem Covered.repeated (h : Covered every i entries c)
    (hsettled : c.isSettled (transferId every i) = true) : Covered every (i + 1) entries c := by
  have hsame : transfers every (i + 1) = transfers every i := by
    rw [transfers_succ, Finset.insert_eq_of_mem ((h.settled _).1 hsettled)]
  exact ⟨hsame ▸ h.settled, hsame ▸ h.count_eq⟩

/-- A settlement of a free transfer settles this one. -/
theorem Covered.settling (h : Covered every i entries c)
    (hfree : c.isSettled (transferId every i) = false)
    (hc : ∀ t, c'.isSettled t = true ↔ c.isSettled t = true ∨ t = transferId every i) :
    Covered every (i + 1) (entries + 1) c' where
  settled t := by
    rw [hc, h.settled, transfers_succ, Finset.mem_insert, or_comm]
  count_eq := by
    have hnew : transferId every i ∉ transfers every i := by
      rw [← h.settled, hfree]
      exact Bool.false_ne_true
    rw [transfers_succ, Finset.card_insert_of_notMem hnew, h.count_eq]

/-- A block settles nothing. -/
theorem Covered.sealBlock (h : Covered every i entries c) (now : Instant) :
    Covered every i entries (c.sealBlock now).2 where
  settled t := by
    have hact := c.isSettled_act (.sealBlock now) t
    simp only [reduceCtorEq, or_false] at hact
    exact hact.trans (h.settled t)
  count_eq := h.count_eq

end Covered

/-! ## Settlements one after the other -/

/-- What the progress says of the chain: the entries that it names are the anchored ones, and all of
    them are accepted, the sealed ones in full blocks and the others still to be sealed. -/
structure Tallied (blockSize : Nat) (p : Progress) (anchored : List (Statement × Entry))
    (c : Chain) : Prop where
  anchored_eq : p.anchored = anchored.map (·.2.id)
  accepted_eq : c.sealedIds ++ c.accepted = p.anchored
  unsealed_eq : c.accepted.length = p.unsealed
  blocks_eq : c.blocks.length * blockSize + p.unsealed = p.anchored.length

/-- What holds of a simulation after a number of settlements. -/
structure Underway (o : SimulationOptions) (l : Ledger) (first : Suffixes) (i : Nat)
    (p : Progress) (s : Session) (as : List Ledger.Action) : Prop extends
    Reached l first i s as, Tallied o.blockSize p (l.anchorings as) s.ledger.chain where
  unsealed_lt : p.unsealed < o.blockSize
  total_eq : p.anchored.length + p.doubleSpends = i
  covered : Covered o.doubleSpendEvery i p.anchored.length s.ledger.chain

/-- The progress with one more accepted entry. -/
def adding (p : Progress) (entry : String) : Progress :=
  { p with anchored := p.anchored ++ [entry], unsealed := p.unsealed + 1 }

theorem length_adding (p : Progress) (entry : String) :
    (adding p entry).anchored.length = p.anchored.length + 1 := by
  rw [adding, List.length_append, List.length_singleton]

/-- An accepted entry is added to the progress, and a block is made when it is full. -/
theorem accept_eq {blockSize n : Nat} {entry : String} {t : Session}
    (h : collectVotes entry s = (.ok n, t)) (p : Progress) :
    accept blockSize entry p s =
      if (adding p entry).unsealed = blockSize then
        (.ok { adding p entry with unsealed := 0 }, t.sealBlock.2)
      else (.ok (adding p entry), t) := by
  rw [accept, h]
  rfl

/-- One more entry is accepted. -/
theorem Tallied.accept {blockSize : Nat} {anchored : List (Statement × Entry)} {c c' : Chain}
    (h : Tallied blockSize p anchored c) (q : Statement × Entry) (hblocks : c'.blocks = c.blocks)
    (haccepted : c'.accepted = c.accepted ++ [q.2.id]) :
    Tallied blockSize (adding p q.2.id) (anchored ++ [q]) c' where
  anchored_eq := by rw [adding, h.anchored_eq, List.map_append, List.map_singleton]
  accepted_eq := by
    rw [haccepted, Chain.sealedIds, hblocks, ← Chain.sealedIds, ← List.append_assoc, h.accepted_eq]
    rfl
  unsealed_eq := by
    rw [haccepted, List.length_append, h.unsealed_eq]
    rfl
  blocks_eq := by
    rw [hblocks, adding, List.length_append, ← h.blocks_eq, List.length_singleton]
    exact (Nat.add_assoc ..).symm

/-- A full block is made of the accepted entries. -/
theorem Tallied.sealBlock {blockSize : Nat} {anchored : List (Statement × Entry)} {c : Chain}
    (h : Tallied blockSize p anchored c) (hc : c.Consistent) (hfull : p.unsealed = blockSize)
    (hblock : 1 ≤ blockSize) (now : Instant) :
    Tallied blockSize { p with unsealed := 0 } anchored (c.sealBlock now).2 := by
  obtain ⟨haccepted, hsealed, hblocks⟩ := Chain.sealBlock_accepted hc now
  have hsome : c.accepted ≠ [] := by
    rw [← List.length_pos_iff, h.unsealed_eq, hfull]
    exact hblock
  constructor
  case anchored_eq => exact h.anchored_eq
  case accepted_eq => rw [haccepted, hsealed, List.append_nil, h.accepted_eq]
  case unsealed_eq => rw [haccepted, List.length_nil]
  case blocks_eq =>
    rw [hblocks, if_neg hsome, Nat.succ_mul, ← h.blocks_eq, hfull]
    rfl

theorem underway_zero {s : Session} (h : s.ledger = .new panel rule capacity significance scope)
    (hblock : 1 ≤ o.blockSize) : Underway o s.ledger s.suffixes 0 ⟨[], 0, 0⟩ s [] where
  toReached := reached_zero h
  anchored_eq := rfl
  accepted_eq := by
    rw [h]
    rfl
  unsealed_eq := by
    rw [h]
    rfl
  blocks_eq := by
    rw [h]
    exact Nat.zero_mul _
  unsealed_lt := hblock
  total_eq := rfl
  covered := by
    rw [h]
    exact ⟨fun t => by simp [transfers, Ledger.new, Chain.new, Chain.isSettled], rfl⟩

theorem anchorings_concat (h : Reached l first i s as) (a : Ledger.Action) :
    l.anchorings (as ++ [a]) = l.anchorings as ++ s.ledger.anchors a := by
  rw [h.ledger_eq, Ledger.anchorings, Run.chronicle_concat]
  rfl

/-- A double spend is counted, and nothing else. -/
theorem Underway.settle_of_settled (h : Underway o l first i p s as)
    (hdistinct : first.Distinct (2 * (i + 1)))
    (hsettled : s.ledger.chain.isSettled (transferId o.doubleSpendEvery i) = true) :
    ∃ p' s' as', settle o i p s = (.ok p', s') ∧ Underway o l first (i + 1) p' s' as' := by
  obtain ⟨hsettle, hanchors, alert, hchain⟩ := Simulation.settle_of_settled hsettled p
  refine ⟨_, _, _, hsettle, h.toReached.anchor hdistinct o 2, ?_, h.unsealed_lt, ?_, ?_⟩
  · rw [anchorings_concat h.toReached, hanchors, List.append_nil, hchain]
    exact ⟨h.anchored_eq, h.accepted_eq, h.unsealed_eq, h.blocks_eq⟩
  · rw [← h.total_eq]
    rfl
  · rw [hchain]
    have hcovered := h.covered.repeated hsettled
    exact ⟨hcovered.settled, hcovered.count_eq⟩

/-- Collecting votes on a new entry accepts it, and changes nothing else but entries. -/
theorem Reached.exists_collected {id : String} {e : Entry}
    (h : Reached (.new panel rule capacity significance scope) first i s as)
    (he : s.ledger.chain.entry? id = some e) (hopen : e.phase.isOpen = true) (hvotes : e.votes = [])
    (hsize : e.requiredWitnesses ≤ panel.size) :
    let l := Ledger.new panel rule capacity significance scope
    ∃ n t as' entries, collectVotes id s = (.ok n, t) ∧ Reached l first i t as' ∧
      l.anchorings as' = l.anchorings as ∧
      t.ledger.chain =
        { s.ledger.chain with entries, accepted := s.ledger.chain.accepted ++ [id] } := by
  intro l
  rw [← h.panel_eq] at hsize
  obtain ⟨n, votes, now, entries, hcollect, hquiet, hvoted⟩ :=
    exists_collectVotes_run he hopen hvotes hsize
  exact ⟨n, _, as ++ votes, entries, hcollect, h.append hquiet now,
    Ledger.anchorings_append_of_isQuiet hquiet, hvoted⟩

/-- The votes accept an anchored settlement. -/
theorem Underway.exists_collected
    (h : Underway o (.new panel rule capacity significance scope) first i p s as)
    (hsize : 3 ≤ panel.size) (hdistinct : first.Distinct (2 * (i + 1)))
    (hfree : s.ledger.chain.isSettled (transferId o.doubleSpendEvery i) = false) :
    let l := Ledger.new panel rule capacity significance scope
    ∃ n t as', collectVotes (entryAt o i s).id (anchoring o i 1 s) = (.ok n, t) ∧
      Reached l first (i + 1) t as' ∧
      Tallied o.blockSize (adding p (entryAt o i s).id) (l.anchorings as') t.ledger.chain ∧
      Covered o.doubleSpendEvery (i + 1) (adding p (entryAt o i s).id).anchored.length
        t.ledger.chain := by
  intro l
  have hnew := h.toReached.notMem_anchored hdistinct
  obtain ⟨-, hanchors, hchain⟩ := Simulation.settle_of_free hfree hnew p
  have hsettled : ∀ t, (anchoring o i 1 s).ledger.chain.isSettled t = true ↔
      s.ledger.chain.isSettled t = true ∨ t = transferId o.doubleSpendEvery i := by
    intro t
    rw [hchain, Chain.isSettled_recordSettlement]
    rfl
  have hcovered := h.covered.settling hfree hsettled
  rw [Chain.recordSettlement_eq] at hchain
  have hentry : (anchoring o i 1 s).ledger.chain.entry? (entryAt o i s).id =
      some (entryAt o i s) := by
    rw [hchain]
    exact Chain.entry?_push _ _
  obtain ⟨n, t, as', entries, hcollect, hreached, hanchorings, hvoted⟩ :=
    (h.toReached.anchor hdistinct o 1).exists_collected hentry rfl rfl hsize
  refine ⟨n, t, as', hcollect, hreached, ?_, ?_⟩
  · rw [hchain] at hvoted
    rw [hanchorings, anchorings_concat h.toReached, hanchors]
    exact h.toTallied.accept (statementAt o i (s.suffixes.peek 0), entryAt o i s)
      (by rw [hvoted]; rfl) (by rw [hvoted]; rfl)
  · rw [hvoted, length_adding]
    exact ⟨hcovered.settled, hcovered.count_eq⟩

/-- An anchored settlement is accepted, and a block is made when it is full. -/
theorem Underway.settle_of_free
    (h : Underway o (.new panel rule capacity significance scope) first i p s as)
    (hsize : 3 ≤ panel.size) (hdistinct : first.Distinct (2 * (i + 1)))
    (hfree : s.ledger.chain.isSettled (transferId o.doubleSpendEvery i) = false) :
    ∃ p' s' as', settle o i p s = (.ok p', s') ∧
      Underway o (.new panel rule capacity significance scope) first (i + 1) p' s' as' := by
  have hnew := h.toReached.notMem_anchored hdistinct
  obtain ⟨hsettle, -, -⟩ := Simulation.settle_of_free hfree hnew p
  obtain ⟨n, t, as', hcollect, hreached, htally, hcovered⟩ :=
    h.exists_collected hsize hdistinct hfree
  rw [accept_eq hcollect] at hsettle
  have htotal : (adding p (entryAt o i s).id).anchored.length + p.doubleSpends = i + 1 := by
    rw [length_adding, Nat.add_right_comm, h.total_eq]
  have hroom : p.unsealed < o.blockSize := h.unsealed_lt
  by_cases hfull : (adding p (entryAt o i s).id).unsealed = o.blockSize
  · rw [if_pos hfull] at hsettle
    have hquiet : ∀ b ∈ [Ledger.Action.sealBlock (t.now.peek 0)], b.IsQuiet := by
      simp [Ledger.Action.IsQuiet]
    refine ⟨_, _, _, hsettle, hreached.append hquiet _, ?_, Nat.zero_lt_of_lt hroom, htotal,
      hcovered.sealBlock (t.now.peek 0)⟩
    rw [Ledger.anchorings_append_of_isQuiet hquiet]
    exact htally.sealBlock hreached.consistent hfull (Nat.zero_lt_of_lt hroom) (t.now.peek 0)
  · rw [if_neg hfull] at hsettle
    exact ⟨_, _, _, hsettle, hreached, htally, Nat.lt_of_le_of_ne hroom hfull, htotal, hcovered⟩

/-- Each settlement adds an accepted entry or a double spend. -/
theorem Underway.exists_settle
    (h : Underway o (.new panel rule capacity significance scope) first i p s as)
    (hsize : 3 ≤ panel.size) (hdistinct : first.Distinct (2 * (i + 1))) :
    ∃ p' s' as', settle o i p s = (.ok p', s') ∧
      Underway o (.new panel rule capacity significance scope) first (i + 1) p' s' as' := by
  cases hsettled : s.ledger.chain.isSettled (transferId o.doubleSpendEvery i) with
  | true => exact h.settle_of_settled hdistinct hsettled
  | false => exact h.settle_of_free hsize hdistinct hsettled

/-- What holds after some settlements still holds after some more. -/
theorem Underway.exists_settleAll
    (h : Underway o (.new panel rule capacity significance scope) first i p s as)
    (hsize : 3 ≤ panel.size) (count : Nat) (hdistinct : first.Distinct (2 * (i + count))) :
    ∃ p' s' as', settleAll o count i p s = (.ok p', s') ∧
      Underway o (.new panel rule capacity significance scope) first (i + count) p' s' as' := by
  induction count generalizing i p s as with
  | zero => exact ⟨p, s, as, rfl, h⟩
  | succ count ih =>
    have hnext : first.Distinct (2 * (i + 1)) := hdistinct.mono (by omega)
    obtain ⟨p', s', as', hsettle, hunderway⟩ := h.exists_settle hsize hnext
    have hcount : i + 1 + count = i + (count + 1) := by omega
    rw [← hcount] at hdistinct ⊢
    obtain ⟨p'', s'', as'', hrest, hfinal⟩ := ih hunderway hdistinct
    exact ⟨p'', s'', as'', by rw [settleAll, hsettle]; exact hrest, hfinal⟩

/-- Where the panel is too small for a settlement, the first one fails for want of a quorum. -/
theorem settle_of_small (h : s.ledger = .new panel rule capacity significance scope)
    (hsize : panel.size < 3) (p : Progress) :
    ∃ s', settle o 0 p s =
      (.error (.integrity (.noQuorum (entryAt o 0 s).id panel.size)), s') := by
  have hfree : s.ledger.chain.isSettled (transferId o.doubleSpendEvery 0) = false := by
    rw [h]
    rfl
  have hnew : Statement.idFor (s.suffixes.peek 0) ∉ s.ledger.register.anchored := by
    rw [h]
    exact List.not_mem_nil
  obtain ⟨hsettle, -, hchain⟩ := Simulation.settle_of_free hfree hnew p
  rw [Chain.recordSettlement_eq] at hchain
  have hentry : (anchoring o 0 1 s).ledger.chain.entry? (entryAt o 0 s).id =
      some (entryAt o 0 s) := by
    rw [hchain]
    exact Chain.entry?_push _ _
  have hpanel : (anchoring o 0 1 s).ledger.chain.panel = panel := by
    rw [hchain, h]
    rfl
  obtain ⟨s', hcollect⟩ := collectVotes_of_lt hentry rfl rfl (hpanel ▸ hsize)
  rw [hpanel] at hcollect
  exact ⟨s', by rw [hsettle, accept, hcollect]⟩

end Reached

end Command.Simulation

end WitnessLedger
