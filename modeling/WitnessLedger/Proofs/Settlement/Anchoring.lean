import WitnessLedger.Proofs.Chain.Standing
import WitnessLedger.Proofs.Ledger.Chain

/-!
# Anchoring over whole runs

What anchoring a statement answers depends on what has been anchored and settled before, and
nothing but anchoring and marking by hand settles a transfer.  Over a whole run the settled
transfers are therefore those of the anchored statements and those marked by hand, each statement
that was anchored is apart from all others, and each refusal has left an alert.

## Key results

- `Accounted.act`: what one operation adds to the accounts
- `accounted_run`: the accounts of every run
- `anchoring_run`: the answers of anchoring in every state of every run, and the accounts
-/

namespace WitnessLedger

namespace Chain

/-- No other action touches the settled transfers. -/
theorem settled_act {c : Chain} {a : Action} (h : ∀ t, a ≠ .recordSettlement t) :
    (c.act a).settled = c.settled := by
  have heffect := act_effect c a
  generalize c.act a = c' at heffect ⊢
  cases heffect with
  | @settled transfer => exact absurd rfl (h transfer)
  | _ => rfl

/-- A transfer is settled by marking it, and stays settled. -/
theorem isSettled_act (c : Chain) (a : Action) (t : String) :
    (c.act a).isSettled t = true ↔ c.isSettled t = true ∨ .recordSettlement t = a := by
  by_cases ha : ∃ transfer, a = .recordSettlement transfer
  · obtain ⟨transfer, rfl⟩ := ha
    rw [act, recordSettlement, Action.recordSettlement.injEq]
    split
    · next hsettled =>
      constructor
      · exact Or.inl
      · rintro (h | rfl)
        · exact h
        · exact hsettled
    · simp [isSettled]
  · have hne : ∀ transfer, a ≠ .recordSettlement transfer := fun t h => ha ⟨t, h⟩
    have heq : .recordSettlement t ≠ a := Ne.symm (hne t)
    simp only [isSettled, settled_act hne, heq, or_false]

theorem isSettled_recordSettlement (c : Chain) (transfer t : String) :
    (c.recordSettlement transfer).isSettled t = true ↔ c.isSettled t = true ∨ t = transfer := by
  have hact := c.isSettled_act (.recordSettlement transfer) t
  rwa [Action.recordSettlement.injEq] at hact

theorem isSettled_run (c : Chain) (as : List Action) (t : String) :
    (c.run as).isSettled t = true ↔ c.isSettled t = true ∨ .recordSettlement t ∈ as := by
  induction as using List.reverseRecOn with
  | nil => exact (or_iff_left List.not_mem_nil).symm
  | append_singleton as a ih =>
    rw [run_concat, isSettled_act, ih, List.mem_append, List.mem_singleton, or_assoc]

end Chain

namespace Ledger

variable {l : Ledger}

/-- An operation marks in the chain the transfers of the statement that it anchors, or the one that
    it is given. -/
theorem recordSettlement_mem_onChain (l : Ledger) (a : Action) (t : String) :
    .recordSettlement t ∈ l.onChain a ↔
      (∃ p ∈ l.anchors a, t ∈ p.1.transferIds) ∨ t ∈ l.records a := by
  cases a with
  | anchor now suffix s =>
    have h := l.anchor_outcome now suffix s
    simp only [onChain, anchors, records]
    generalize l.anchor now suffix s = r at h ⊢
    cases h <;> simp
  | recordSettlement transfer => simp [onChain, anchors, records]
  | voteAndFinalize now entry witness accept =>
    simp only [onChain, anchors, records]
    split <;> simp
  | promoteToRoot now suffix entry =>
    simp only [onChain, anchors, records]
    split <;> simp
  | anchorConservation now proofSuffix entrySuffix balances expected =>
    simp only [onChain, anchors, records]
    split <;> simp
  | anchorDischarge now adpSuffix entrySuffix grantId discharged remaining evidenceDigest =>
    simp only [onChain, anchors, records]
    split <;> simp
  | _ => simp [onChain, anchors, records]

/-! ## Accounts -/

/-- What an operation anchors is a valid statement without settled transfers, whose id was not
    anchored before. -/
theorem exists_of_mem_anchors {a : Action} {p : Statement × Entry} (h : p ∈ l.anchors a) :
    ∃ now suffix, a = .anchor now suffix p.1 ∧ l.anchors a = [p] ∧
      p.2 = l.settlementOf now suffix p.1 ∧ p.1.validate = .ok () ∧
      (∀ t ∈ p.1.transferIds, l.chain.isSettled t = false) ∧
      p.1.statementId ∉ l.register.anchored := by
  cases a with
  | anchor now suffix s =>
    have houtcome := l.anchor_outcome now suffix s
    simp only [anchors] at h ⊢
    generalize l.anchor now suffix s = r at h houtcome ⊢
    cases houtcome with
    | anchored hvalid hfree hnew =>
      rw [List.mem_singleton] at h
      subst h
      refine ⟨now, suffix, rfl, rfl, rfl, hvalid, fun t ht => ?_, hnew⟩
      simpa using List.find?_eq_none.1 hfree t ht
    | _ => cases h
  | _ => cases h

/-- What an operation refuses is a valid statement, whose first settled transfer it names. -/
theorem exists_of_mem_refuses {a : Action} {r : Refusal} (h : r ∈ l.refuses a) :
    ∃ now suffix, a = .anchor now suffix r.statement ∧
      r.statement.validate = .ok () ∧
      r.statement.transferIds.find? l.chain.isSettled = some r.transfer ∧
      r.alert = l.alertOn now suffix r.statement r.transfer ∧ r.alert ∈ l.proposes a := by
  cases a with
  | anchor now suffix s =>
    have houtcome := l.anchor_outcome now suffix s
    simp only [refuses, proposes, onChain] at h ⊢
    generalize l.anchor now suffix s = outcome at h houtcome ⊢
    cases houtcome with
    | @refused transfer hvalid hfirst =>
      rw [List.mem_singleton] at h
      subst h
      have hp := validate_alertPayload hvalid (List.mem_of_find?_eq_some hfirst)
      refine ⟨now, suffix, rfl, hvalid, hfirst, rfl, ?_⟩
      rw [Chain.proposals_cons, Chain.proposals_nil, List.append_nil]
      exact Chain.mem_proposes.2 ⟨_, _, _, _, _, Content.admit_plain hp, rfl, rfl⟩
    | _ => cases h
  | _ => cases h

/-- The accounts of a ledger: the settled transfers by the statements that were anchored and the
    transfers that were marked by hand, and the alerts by the refusals. -/
structure Accounted (l : Ledger) (anchored : List (Statement × Entry)) (recorded : List String)
    (refused : List Refusal) : Prop where
  settled : ∀ t, l.chain.isSettled t = true ↔
    (∃ p ∈ anchored, t ∈ p.1.transferIds) ∨ t ∈ recorded
  ids : l.register.anchored = anchored.map (·.1.statementId)
  apart : anchored.Pairwise fun p q =>
    p.1.statementId ≠ q.1.statementId ∧ p.1.transferIds.Disjoint q.1.transferIds
  alerts : List.Forall₂ Refusal.IsKept refused l.register.alerts

/-- An operation adds to the accounts what is noted of it. -/
theorem Accounted.act {anchored : List (Statement × Entry)} {recorded : List String}
    {refused : List Refusal} (h : l.Accounted anchored recorded refused) (a : Action) :
    (l.act a).Accounted (anchored ++ l.anchors a) (recorded ++ l.records a)
      (refused ++ l.refuses a) := by
  obtain ⟨hanchored, raised, halerts, hraised⟩ := (act_effect l a).register
  constructor
  case settled =>
    intro t
    rw [chain_act, Chain.isSettled_run, h.settled, recordSettlement_mem_onChain]
    simp only [List.mem_append, or_and_right, exists_or]
    exact or_or_or_comm
  case ids => rw [hanchored, h.ids, List.map_append]
  case apart =>
    rw [List.pairwise_append]
    refine ⟨h.apart, ?_, ?_⟩
    · cases hnew : l.anchors a with
      | nil => exact .nil
      | cons p rest =>
        obtain ⟨_, _, -, hsingle, -⟩ := exists_of_mem_anchors (hnew ▸ List.mem_cons_self ..)
        rw [← hnew, hsingle]
        exact List.pairwise_singleton _ p
    · -- the new statement was checked against the ids and the settled transfers of the others
      intro p hp q hq
      obtain ⟨now, suffix, -, -, -, -, hfree, hnew⟩ := exists_of_mem_anchors hq
      rw [h.ids] at hnew
      refine ⟨fun heq => hnew (heq ▸ List.mem_map.2 ⟨p, hp, rfl⟩), fun t htp htq => ?_⟩
      have hsettled : l.chain.isSettled t = true := (h.settled t).2 (.inl ⟨p, hp, htp⟩)
      rw [hfree t htq] at hsettled
      cases hsettled
  case alerts =>
    rw [halerts]
    exact List.rel_append h.alerts hraised

/-- The accounts of a run of a new ledger. -/
theorem accounted_run (panel : Panel) (rule : ForkRule) (capacity significance : Nat)
    (scope : SortedSet) (as : List Action) :
    let l := new panel rule capacity significance scope
    (l.run as).Accounted (l.anchorings as) (l.recorded as) (l.refusals as) := by
  intro l
  induction as using List.reverseRecOn with
  | nil =>
    refine ⟨fun t => ?_, rfl, .nil, .nil⟩
    simp [l, new, Chain.new, Chain.isSettled, run, anchorings, recorded, Run.chronicle]
  | append_singleton as a ih =>
    rw [run_concat, anchorings, recorded, refusals, Run.chronicle_concat, Run.chronicle_concat,
      Run.chronicle_concat]
    exact ih.act a

/-! ## Answers -/

/-- What anchoring a statement answers, by the settled transfers and by what has been anchored
    before: the first check that fails decides, in this order. -/
structure Answers (l : Ledger) (now : Readings) (suffix : String) (s : Statement)
    (anchored : List (Statement × Entry)) : Prop where
  invalid_iff : ∀ why, l.anchor now suffix s = .error (.validation why) ↔ s.validate = .error why
  /-- The first settled transfer is named. -/
  doubleSpend_iff : ∀ t, (∃ e l', l.anchor now suffix s = .ok (.doubleSpend t e, l')) ↔
    s.validate = .ok () ∧ l.chain.isSettled t = true ∧
      ∃ before after, s.transferIds = before ++ t :: after ∧
        ∀ x ∈ before, l.chain.isSettled x = false
  duplicate_iff : ∀ id, l.anchor now suffix s = .error (.duplicateStatement id) ↔
    s.validate = .ok () ∧ (∀ t ∈ s.transferIds, l.chain.isSettled t = false) ∧
      id = s.statementId ∧ ∃ p ∈ anchored, p.1.statementId = id
  ok_iff : (∃ e l', l.anchor now suffix s = .ok (.proposed e, l')) ↔
    s.validate = .ok () ∧ (∀ t ∈ s.transferIds, l.chain.isSettled t = false) ∧
      ∀ p ∈ anchored, p.1.statementId ≠ s.statementId

theorem Accounted.answers {anchored : List (Statement × Entry)} {recorded : List String}
    {refused : List Refusal} (h : l.Accounted anchored recorded refused) (now : Readings)
    (suffix : String) (s : Statement) : l.Answers now suffix s anchored := by
  have hknown : s.statementId ∈ l.register.anchored ↔
      ∃ p ∈ anchored, p.1.statementId = s.statementId := by
    rw [h.ids, List.mem_map]
  have hfree : s.transferIds.find? l.chain.isSettled = none ↔
      ∀ t ∈ s.transferIds, l.chain.isSettled t = false := by
    simp [List.find?_eq_none]
  have hfirst : ∀ t, s.transferIds.find? l.chain.isSettled = some t ↔
      l.chain.isSettled t = true ∧ ∃ before after, s.transferIds = before ++ t :: after ∧
        ∀ x ∈ before, l.chain.isSettled x = false := by
    simp [List.find?_eq_some_iff_append]
  have houtcome := l.anchor_outcome now suffix s
  generalize hr : l.anchor now suffix s = r at houtcome
  constructor
  case invalid_iff =>
    intro why
    rw [hr]
    cases houtcome with
    | invalid hinvalid => simp [hinvalid]
    | refused hvalid => simp [hvalid]
    | repeated hvalid => simp [hvalid]
    | anchored hvalid => simp [hvalid]
  case doubleSpend_iff =>
    intro t
    rw [hr, ← hfirst]
    cases houtcome with
    | invalid hinvalid => simp [hinvalid]
    | refused hvalid hfound => simp [hvalid, hfound]
    | repeated hvalid hnone => simp [hnone]
    | anchored hvalid hnone => simp [hnone]
  case duplicate_iff =>
    intro id
    rw [hr, ← hfree]
    cases houtcome with
    | invalid hinvalid => simp [hinvalid]
    | refused hvalid hfound => simp [hfound]
    | repeated hvalid hnone hmem =>
      constructor
      · rintro ⟨⟩
        exact ⟨hvalid, hnone, rfl, hknown.1 hmem⟩
      · rintro ⟨-, -, rfl, -⟩
        rfl
    | anchored hvalid hnone hnew =>
      constructor
      · intro h
        cases h
      · rintro ⟨-, -, rfl, hexists⟩
        exact absurd (hknown.2 hexists) hnew
  case ok_iff =>
    rw [hr, ← hfree]
    cases houtcome with
    | invalid hinvalid => simp [hinvalid]
    | refused hvalid hfound => simp [hfound]
    | repeated hvalid hnone hmem =>
      constructor
      · rintro ⟨e, l', h⟩
        cases h
      · rintro ⟨-, -, hne⟩
        obtain ⟨p, hp, hid⟩ := hknown.1 hmem
        exact absurd hid (hne p hp)
    | anchored hvalid hnone hnew =>
      constructor
      · rintro -
        exact ⟨hvalid, hnone, fun p hp hid => hnew (hknown.2 ⟨p, hp, hid⟩)⟩
      · rintro -
        exact ⟨_, _, rfl⟩

/-! ## Whole runs -/

/-- Whether an alert is the one that a refusal names, and names an entry of a chain that says which
    transfer of which statement was refused. -/
structure Refusal.IsAnswered (c : Chain) (r : Refusal) (a : DoubleSpendAlert) : Prop extends
    r.IsKept a where
  found : ∃ e, c.entry? a.alertEntryId = some e ∧ e.kind = .doubleSpendAlert ∧
    e.content.payload = .doubleSpendAlert
      { transferId := r.transfer, statementId := r.statement.statementId
        societyA := r.statement.societyA, societyB := r.statement.societyB }

/-- The alert that a refusal names has been proposed to the chain. -/
theorem alert_mem_proposals {as : List Action} {r : Refusal} (h : r ∈ l.refusals as) :
    r.alert ∈ l.proposals as ∧ r.alert.kind = .doubleSpendAlert ∧
      r.alert.content = .plain (Register.alertPayload r.statement r.transfer) := by
  obtain ⟨before, a, after, has, hr⟩ := Run.mem_chronicle.1 h
  obtain ⟨now, suffix, -, -, -, halert, hproposes⟩ := exists_of_mem_refuses hr
  refine ⟨?_, by rw [halert]; rfl, by rw [halert]; rfl⟩
  rw [proposals_eq]
  exact Run.mem_chronicle.2 ⟨before, a, after, has, hproposes⟩

/-- In every state that a run of a new ledger leads to, anchoring answers by the first check that
    fails.  The settled transfers are those of the statements that were anchored and those that
    were marked by hand; and two statements that were anchored have different ids and no common
    transfer.  If besides no suffix is taken twice, the alerts are those that the refusals name,
    in the same order, each with an entry of the chain. -/
theorem anchoring_run (panel : Panel) (rule : ForkRule) (capacity significance : Nat)
    (scope : SortedSet) (as : List Action) :
    let l := new panel rule capacity significance scope
    (∀ now suffix s, (l.run as).Answers now suffix s (l.anchorings as)) ∧
      (∀ t, (l.run as).chain.isSettled t = true ↔
        (∃ p ∈ l.anchorings as, t ∈ p.1.transferIds) ∨ t ∈ l.recorded as) ∧
      ((l.anchorings as).Pairwise fun p q =>
        p.1.statementId ≠ q.1.statementId ∧ p.1.transferIds.Disjoint q.1.transferIds) ∧
      ((l.suffixes as).Nodup →
        List.Forall₂ (Refusal.IsAnswered (l.run as).chain) (l.refusals as)
          (l.run as).register.alerts) := by
  intro l
  have haccounts : (l.run as).Accounted (l.anchorings as) (l.recorded as) (l.refusals as) :=
    accounted_run panel rule capacity significance scope as
  refine ⟨haccounts.answers, haccounts.settled, haccounts.apart, fun h => ?_⟩
  have htraced := traced_run panel rule capacity significance scope as h
  have hpaired := (List.forall₂_and_left (p := (· ∈ l.refusals as)) _ _).2
    ⟨fun _ hr => hr, haccounts.alerts⟩
  refine hpaired.imp fun r a ⟨hr, hkept⟩ => ⟨hkept, ?_⟩
  -- the entry of the alert may have been voted on, but says what it said
  obtain ⟨hproposed, hkind, hcontent⟩ := alert_mem_proposals hr
  obtain ⟨e, he, hprogress⟩ := htraced.exists_entry hproposed
  rw [← hkept.entry] at he
  refine ⟨e, he, by rw [hprogress.kind_eq, hkind], ?_⟩
  rw [hprogress.content_eq, hcontent]
  rfl

/-- A statement is anchored, another one with a transfer of it is refused, and a third transfer is
    marked by hand. -/
def spendingRun : List Action :=
  let statement (id : String) (transfers : List String) :=
    (Statement.blank id "lct:a" "lct:b").withTransfers transfers
  [ .anchor .epoch "x1" (statement "stmt:1" ["t1", "t2"]),
    .anchor .epoch "x2" (statement "stmt:2" ["t3", "t2"]),
    .recordSettlement "t4" ]

/-- The settlement and the alert have different suffixes. -/
theorem anchoring_spendingRun :
    let l := new Chain.trio .lowestEntryId 10 5 .empty
    (l.suffixes spendingRun).Nodup ∧
      (∀ now suffix s, (l.run spendingRun).Answers now suffix s (l.anchorings spendingRun)) ∧
      (∀ t, (l.run spendingRun).chain.isSettled t = true ↔
        (∃ p ∈ l.anchorings spendingRun, t ∈ p.1.transferIds) ∨ t ∈ l.recorded spendingRun) ∧
      ((l.anchorings spendingRun).Pairwise fun p q =>
        p.1.statementId ≠ q.1.statementId ∧ p.1.transferIds.Disjoint q.1.transferIds) ∧
      List.Forall₂ (Refusal.IsAnswered (l.run spendingRun).chain) (l.refusals spendingRun)
        (l.run spendingRun).register.alerts := by
  have h : ((new Chain.trio .lowestEntryId 10 5 .empty).suffixes spendingRun).Nodup := by decide
  obtain ⟨hanswers, hsettled, hapart, halerts⟩ :=
    anchoring_run Chain.trio .lowestEntryId 10 5 .empty spendingRun
  exact ⟨h, hanswers, hsettled, hapart, halerts h⟩

end Ledger

end WitnessLedger
