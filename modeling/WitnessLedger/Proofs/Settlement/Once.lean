import Mathlib.Data.List.Pairwise
import WitnessLedger.Proofs.Settlement.Anchoring

/-!
# Settling a transfer once

Anchoring asks whether the transfers of a statement are settled and then settles them; an entry of
the stem is proposed to the chain without either.  Two sealed settlements that were anchored
therefore never have a transfer in common, and a transfer settles once on the whole ledger exactly
as long as no promoted settlement shares one.

## Key results

- `anchored_or_promoted`: a settlement comes to the chain by anchoring or from the stem
- `settlesOnce_iff`: the settlements of a run that settle a transfer again are promoted ones
-/

namespace WitnessLedger

namespace Chain

/-- The statements of the sealed settlements, each with the id of its entry.  Different entries have
    different ids. -/
def sealedSettlements (c : Chain) : List (String × Statement) :=
  (c.blocks.flatMap (·.entries)).filterMap fun e => e.content.statement?.map (e.id, ·)

/-- Whether no transfer stands in two sealed settlements. -/
def SettlesOnce (c : Chain) : Prop :=
  ∀ x ∈ c.sealedSettlements, ∀ y ∈ c.sealedSettlements, x.1 ≠ y.1 →
    ∀ t ∈ x.2.transferIds, t ∉ y.2.transferIds

instance (c : Chain) : Decidable c.SettlesOnce := inferInstanceAs (Decidable (∀ _ ∈ _, _))

theorem mem_sealedSettlements {c : Chain} {x : String × Statement} :
    x ∈ c.sealedSettlements ↔ ∃ b ∈ c.blocks, ∃ e ∈ b.entries,
      e.id = x.1 ∧ e.content.statement? = some x.2 := by
  simp only [sealedSettlements, List.mem_filterMap, List.mem_flatMap, Option.map_eq_some_iff]
  constructor
  · rintro ⟨e, ⟨b, hb, he⟩, s, hs, rfl⟩
    exact ⟨b, hb, e, he, rfl, hs⟩
  · rintro ⟨b, hb, e, he, hid, hs⟩
    exact ⟨e, ⟨b, hb, he⟩, x.2, hs, by rw [hid]⟩

end Chain

namespace Ledger

/-- Whether an operation proposes a settlement to the chain directly. -/
def Action.ProposesSettlement : Action → Prop
  | .propose _ _ kind _ _ => kind = .bilateralSettlement
  | _ => False

/-- Whether the entry with an id was proposed from the stem. -/
def IsPromoted (l : Ledger) (id : String) : Prop :=
  ∃ p ∈ l.tiers.promotions, p.rootEntryId = some id

/-- Whether no settlement that was proposed from the stem and sealed has a transfer in common with
    another sealed settlement. -/
def PromotesApart (l : Ledger) : Prop :=
  ∀ x ∈ l.chain.sealedSettlements, ∀ y ∈ l.chain.sealedSettlements, x.1 ≠ y.1 →
    l.IsPromoted x.1 → ∀ t ∈ x.2.transferIds, t ∉ y.2.transferIds

variable {l : Ledger} {a : Action}

theorem IsPromoted.run {id : String} (h : l.IsPromoted id) (as : List Action) :
    (l.run as).IsPromoted id := by
  induction as using List.reverseRecOn with
  | nil => exact h
  | append_singleton as a ih =>
    obtain ⟨p, hp, hid⟩ := ih
    rw [run_concat]
    exact ⟨p, (act_effect _ a).prefix_promotions.subset hp, hid⟩

theorem kind_of_statement? {content : Content} {s : Statement}
    (h : content.statement? = some s) : content.kind = .bilateralSettlement := by
  unfold Content.statement? at h
  split at h
  · next heq =>
    unfold Content.kind
    rw [heq]
    rfl
  · cases h

/-- A settlement comes to the chain by anchoring or from the stem. -/
theorem anchored_or_promoted (ha : ¬ a.ProposesSettlement) {e : Entry} (he : e ∈ l.proposes a)
    {s : Statement} (hs : e.content.statement? = some s) :
    (s, e) ∈ l.anchors a ∨ (l.act a).IsPromoted e.id := by
  cases a with
  | propose now suffix kind content level =>
    obtain ⟨hvalid, rfl⟩ : content.admit kind = .ok () ∧ e = _ := by
      simpa [proposes, onChain, Chain.mem_proposes_propose] using he
    have hkind : kind = .bilateralSettlement := by
      rw [← Content.kind_eq_of_admit hvalid]
      exact kind_of_statement? hs
    exact absurd hkind ha
  | promoteToRoot now suffix id =>
    cases hstem : l.tiers.stem.find? (·.id == id) with
    | none => simp [proposes, onChain, hstem] at he
    | some x =>
      obtain ⟨hvalid, rfl⟩ : x.content.admit x.kind = .ok () ∧ e = _ := by
        simpa [proposes, onChain, hstem, Chain.mem_proposes_propose] using he
      refine .inr ⟨Tiers.rootStep now.record suffix id x.kind, ?_, rfl⟩
      rw [act_promoteToRoot hstem hvalid]
      exact List.mem_append_right _ (List.mem_singleton_self _)
  | anchor now suffix statement =>
    have houtcome := l.anchor_outcome now suffix statement
    simp only [proposes, onChain, anchors] at he ⊢
    generalize l.anchor now suffix statement = r at houtcome he ⊢
    cases houtcome with
    | refused =>
      -- an alert is no settlement
      obtain ⟨-, rfl⟩ : _ ∧ e = _ := by simpa [Chain.mem_proposes_propose] using he
      cases hs
    | anchored =>
      obtain ⟨-, rfl⟩ : _ ∧ e = _ := by simpa [Chain.mem_proposes_propose] using he
      cases hs
      exact .inl (List.mem_singleton_self _)
    | _ => simp at he
  | voteAndFinalize now entry witness accept =>
    simp only [proposes, onChain] at he
    split at he <;> simp [Chain.proposes] at he
  | anchorConservation now proofSuffix entrySuffix balances expected =>
    simp only [proposes, onChain] at he
    split at he
    · obtain ⟨-, rfl⟩ : _ ∧ e = _ := by simpa [Chain.mem_proposes_propose] using he
      cases hs
    · simp at he
  | anchorDischarge now adpSuffix entrySuffix grantId discharged remaining evidenceDigest =>
    simp only [proposes, onChain] at he
    split at he
    · obtain ⟨-, rfl⟩ : _ ∧ e = _ := by simpa [Chain.mem_proposes_propose] using he
      cases hs
    · simp at he
  | _ => simp [proposes, onChain, Chain.proposes] at he

/-- A sealed settlement was anchored or comes from the stem. -/
theorem anchored_or_promoted_of_sealed {panel : Panel} {rule : ForkRule}
    {capacity significance : Nat} {scope : SortedSet} {as : List Action}
    (hdirect : ∀ a ∈ as, ¬ a.ProposesSettlement)
    (h : ((new panel rule capacity significance scope).suffixes as).Nodup)
    {x : String × Statement} :
    let l := new panel rule capacity significance scope
    x ∈ (l.run as).chain.sealedSettlements →
      (∃ e, e.id = x.1 ∧ (x.2, e) ∈ l.anchorings as) ∨ (l.run as).IsPromoted x.1 := by
  intro l hx
  have htraced := traced_run panel rule capacity significance scope as h
  obtain ⟨b, hb, m, hm, hid, hs⟩ := Chain.mem_sealedSettlements.1 hx
  -- from the block to the index, and from there to the proposal
  have hmem := (Chain.of_entry?_eq_some (htraced.consistent.members b hb m hm).1).1
  obtain ⟨e, he, hprogress⟩ := htraced.exists_proposal hmem
  rw [hprogress.id_eq] at hid
  rw [hprogress.content_eq] at hs
  rw [proposals_eq] at he
  obtain ⟨before, a, after, rfl, hproposes⟩ := Run.mem_chronicle.1 he
  have ha := hdirect a (List.mem_append_right _ (List.mem_cons_self ..))
  rcases anchored_or_promoted ha hproposes hs with hanchors | hpromoted
  · exact .inl ⟨e, hid, Run.mem_chronicle.2 ⟨before, a, after, rfl, hanchors⟩⟩
  · have hrun : l.run (before ++ a :: after) = ((l.run before).act a).run after :=
      List.foldl_append
    rw [hrun, ← hid]
    exact .inr (hpromoted.run after)

/-- On a ledger where settlements are not proposed directly, a transfer settles at most once
    exactly when no sealed settlement from the stem has a transfer in common with another. -/
theorem settlesOnce_iff (panel : Panel) (rule : ForkRule) (capacity significance : Nat)
    (scope : SortedSet) (as : List Action) (hdirect : ∀ a ∈ as, ¬ a.ProposesSettlement)
    (h : ((new panel rule capacity significance scope).suffixes as).Nodup) :
    let l := (new panel rule capacity significance scope).run as
    l.chain.SettlesOnce ↔ l.PromotesApart := by
  intro l
  constructor
  · exact fun honce x hx y hy hne _ => honce x hx y hy hne
  · intro hapart x hx y hy hne t htx hty
    have haccounts := accounted_run panel rule capacity significance scope as
    rcases anchored_or_promoted_of_sealed hdirect h hx with ⟨e, hex, hanchored⟩ | hpromoted
    · rcases anchored_or_promoted_of_sealed hdirect h hy with ⟨e', hey, hanchored'⟩ | hpromoted
      · -- both were anchored, so that their transfers are apart
        have hpairs : (x.2, e) ≠ (y.2, e') := by
          intro heq
          rw [Prod.mk.injEq] at heq
          rw [← hex, ← hey, heq.2] at hne
          exact hne rfl
        have hsymm : Std.Symm fun p q : Statement × Entry =>
            p.1.statementId ≠ q.1.statementId ∧ p.1.transferIds.Disjoint q.1.transferIds :=
          ⟨fun _ _ hpq => ⟨hpq.1.symm, fun _ hq hp => hpq.2 hp hq⟩⟩
        exact (haccounts.apart.forall hanchored hanchored' hpairs).2 htx hty
      · exact hapart y hy x hx hne.symm hpromoted t hty htx
    · exact hapart x hx y hy hne hpromoted t htx hty

/-- A settlement is taken in, proposed from the stem and sealed; then another statement with its
    transfer is anchored and sealed. -/
def promotedRun : List Action :=
  let statement (id : String) := (Statement.blank id "lct:a" "lct:b").withTransfers ["t1"]
  let promoted := "act:bilateral_settlement:x2"
  let anchored := "act:bilateral_settlement:x3"
  [ .ingest .epoch "x1" .bilateralSettlement (.plain (.bilateralSettlement (statement "stmt:1"))),
    .promoteToRoot .epoch "x2" "fc:bilateral_settlement:x1",
    .voteAndFinalize .epoch promoted "w1" true, .voteAndFinalize .epoch promoted "w2" true,
    .voteAndFinalize .epoch promoted "w3" true, .sealBlock .epoch,
    .anchor .epoch "x3" (statement "stmt:2"),
    .voteAndFinalize .epoch anchored "w1" true, .voteAndFinalize .epoch anchored "w2" true,
    .voteAndFinalize .epoch anchored "w3" true, .sealBlock .epoch ]

/-- The two proposals have different suffixes, and neither is a direct one. -/
theorem settlesOnce_promotedRun :
    let l := new Chain.trio .lowestEntryId 10 5 .empty
    (∀ a ∈ promotedRun, ¬ a.ProposesSettlement) ∧ (l.suffixes promotedRun).Nodup ∧
      ((l.run promotedRun).chain.SettlesOnce ↔ (l.run promotedRun).PromotesApart) := by
  have hdirect : ∀ a ∈ promotedRun, ¬ a.ProposesSettlement := by
    simp [promotedRun, Action.ProposesSettlement]
  have h : ((new Chain.trio .lowestEntryId 10 5 .empty).suffixes promotedRun).Nodup := by
    decide +kernel
  exact ⟨hdirect, h, settlesOnce_iff Chain.trio .lowestEntryId 10 5 .empty promotedRun hdirect h⟩

/-- The transfer settles twice: taking a settlement from the stem has not settled it. -/
theorem not_settlesOnce_promotedRun :
    let l := new Chain.trio .lowestEntryId 10 5 .empty
    (∀ a ∈ promotedRun, ¬ a.ProposesSettlement) ∧ (l.suffixes promotedRun).Nodup ∧
      ¬ (l.run promotedRun).chain.SettlesOnce := by
  refine ⟨?_, ?_, ?_⟩
  · simp [promotedRun, Action.ProposesSettlement]
  · decide +kernel
  · decide +kernel

end Ledger

end WitnessLedger
