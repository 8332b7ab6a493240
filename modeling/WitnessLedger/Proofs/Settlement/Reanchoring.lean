import WitnessLedger.Proofs.InPlace.Ledger
import WitnessLedger.Proofs.Settlement.Anchoring

/-!
# Anchoring an id again

A statement id is anchored at most once, and a second statement with the id is refused.  Transfers
are looked at before ids: where one of them is settled, the refusal raises an alert, and only where
none is, it is for the id and changes nothing.  The transfers of an anchored statement are settled
from then on, so that trying the very same statement again is refused for its first transfer.

## Key results

- `perform_anchor_of_known`: how anchoring a known id ends, step by step
- `isSettled_of_anchored`: the transfers of an anchored statement are settled
- `reanchoring_run`: what anchoring an id again leads to, at any moment of any run
-/

namespace WitnessLedger

namespace Ledger

variable {l : Ledger} {s : Statement}

/-- The steps of anchoring a statement whose id is known end with a refusal: for its first settled
    transfer if there is one, and else for its id. -/
theorem perform_anchor_of_known (now : Readings) (suffix : String) (hvalid : s.validate = .ok ())
    (hknown : s.statementId ∈ l.register.anchored) :
    InPlace.anchor now suffix s l =
      match s.transferIds.find? l.chain.isSettled with
      | some t =>
        .error (.doubleSpend t (l.alertOn now suffix s t).id) (l.refusing now suffix s t)
      | none => .error (.duplicateStatement s.statementId) l := by
  have houtcome := l.anchor_outcome now suffix s
  rw [InPlace.anchor_eq]
  generalize l.anchor now suffix s = r at houtcome ⊢
  cases houtcome with
  | invalid hinvalid =>
    rw [hvalid] at hinvalid
    cases hinvalid
  | refused _ hfirst =>
    rw [hfirst]
    rfl
  | repeated _ hfree _ =>
    rw [hfree]
    rfl
  | anchored _ _ hnew => exact absurd hknown hnew

/-- A known id is not anchored a second time. -/
theorem anchors_of_known (now : Readings) (suffix : String)
    (hknown : s.statementId ∈ l.register.anchored) : l.anchors (.anchor now suffix s) = [] := by
  have houtcome := l.anchor_outcome now suffix s
  simp only [anchors]
  generalize l.anchor now suffix s = r at houtcome ⊢
  cases houtcome with
  | anchored _ _ hnew => exact absurd hknown hnew
  | _ => rfl

variable {anchored : List (Statement × Entry)} {recorded : List String} {refused : List Refusal}

/-- The ids of the anchored statements are known. -/
theorem Accounted.isKnown (h : l.Accounted anchored recorded refused) {p : Statement × Entry}
    (hp : p ∈ anchored) : p.1.statementId ∈ l.register.anchored := by
  rw [h.ids]
  exact List.mem_map.2 ⟨p, hp, rfl⟩

/-- The transfers of the anchored statements are settled. -/
theorem Accounted.isSettled_of_anchored (h : l.Accounted anchored recorded refused)
    {p : Statement × Entry} (hp : p ∈ anchored) {t : String} (ht : t ∈ p.1.transferIds) :
    l.chain.isSettled t = true :=
  (h.settled t).2 (.inl ⟨p, hp, ht⟩)

/-- At any moment of any run of a new ledger, the steps of anchoring a valid statement whose id was
    anchored before end with a refusal, and the id is not anchored again.  If none of its transfers
    is settled, it is refused for its id and the ledger is left as it was.  Else it is refused for
    its first settled transfer, and the alert on that transfer, in the chain and in the register,
    is all that changes.  So is a statement that was itself anchored, for its first transfer. -/
theorem reanchoring_run (panel : Panel) (rule : ForkRule) (capacity significance : Nat)
    (scope : SortedSet) (as : List Action) (now : Readings) (suffix : String) (s : Statement)
    (hvalid : s.validate = .ok ())
    (hknown : ∃ p ∈ (new panel rule capacity significance scope).anchorings as,
      p.1.statementId = s.statementId) :
    let l := (new panel rule capacity significance scope).run as
    let refusal (t : String) : EStateM.Result LedgerError Ledger Entry :=
      .error (.doubleSpend t (l.alertOn now suffix s t).id) (l.refusing now suffix s t)
    l.anchors (.anchor now suffix s) = [] ∧
      ((∀ t ∈ s.transferIds, l.chain.isSettled t = false) →
        InPlace.anchor now suffix s l = .error (.duplicateStatement s.statementId) l) ∧
      (∀ before t after, s.transferIds = before ++ t :: after →
        (∀ x ∈ before, l.chain.isSettled x = false) → l.chain.isSettled t = true →
        InPlace.anchor now suffix s l = refusal t) ∧
      ∀ e t after, (s, e) ∈ (new panel rule capacity significance scope).anchorings as →
        s.transferIds = t :: after → InPlace.anchor now suffix s l = refusal t := by
  intro l refusal
  have haccounts := accounted_run panel rule capacity significance scope as
  obtain ⟨p, hp, hid⟩ := hknown
  have hmem : s.statementId ∈ l.register.anchored := hid ▸ haccounts.isKnown hp
  have hsteps := perform_anchor_of_known now suffix hvalid hmem
  have hfirst : ∀ before t after, s.transferIds = before ++ t :: after →
      (∀ x ∈ before, l.chain.isSettled x = false) → l.chain.isSettled t = true →
      InPlace.anchor now suffix s l = refusal t := by
    intro before t after heq hfree ht
    have hfound : s.transferIds.find? l.chain.isSettled = some t := by
      rw [List.find?_eq_some_iff_append]
      exact ⟨ht, before, after, heq, fun x hx => by rw [hfree x hx]; rfl⟩
    rw [hsteps, hfound]
  refine ⟨anchors_of_known now suffix hmem, fun hfree => ?_, hfirst, fun e t after hs heq => ?_⟩
  · have hnone : s.transferIds.find? l.chain.isSettled = none := by
      rw [List.find?_eq_none]
      intro t ht
      rw [hfree t ht]
      exact Bool.false_ne_true
    rw [hsteps, hnone]
  · -- anchoring the statement has settled its transfers
    have ht : l.chain.isSettled t = true :=
      haccounts.isSettled_of_anchored hs (heq ▸ List.mem_cons_self ..)
    exact hfirst [] t after heq (fun x hx => nomatch hx) ht

/-- A statement with one transfer is anchored. -/
def anchoredStatement : Statement := (Statement.blank "stmt:1" "lct:a" "lct:b").withTransfers ["t1"]

/-- After that, a statement with the same id and another transfer is refused for its id. -/
theorem reanchoring_renamedTransfer :
    let l := new Chain.trio .lowestEntryId 10 5 .empty
    let as : List Action := [.anchor .epoch "x1" anchoredStatement]
    let s := anchoredStatement.withTransfers ["t2"]
    s.validate = .ok () ∧
      (∃ p ∈ l.anchorings as, p.1.statementId = s.statementId) ∧
      (∀ t ∈ s.transferIds, (l.run as).chain.isSettled t = false) ∧
      InPlace.anchor .epoch "x2" s (l.run as) =
        .error (.duplicateStatement "stmt:1") (l.run as) := by
  intro l as s
  have hvalid : s.validate = .ok () := by decide +kernel
  have hknown : ∃ p ∈ l.anchorings as, p.1.statementId = s.statementId := by decide +kernel
  have hfree : ∀ t ∈ s.transferIds, (l.run as).chain.isSettled t = false := by decide +kernel
  have hrun := reanchoring_run Chain.trio .lowestEntryId 10 5 .empty as .epoch "x2" s hvalid hknown
  exact ⟨hvalid, hknown, hfree, hrun.2.1 hfree⟩

/-- Trying the anchored statement again is not refused for its id, and an alert is proposed. -/
theorem not_duplicate_anchoredStatement :
    let l := new Chain.trio .lowestEntryId 10 5 .empty
    let as : List Action := [.anchor .epoch "x1" anchoredStatement]
    let again : Action := .anchor .epoch "x2" anchoredStatement
    anchoredStatement.validate = .ok () ∧
      (∃ p ∈ l.anchorings as, p.1.statementId = anchoredStatement.statementId) ∧
      (l.run as).answer again = .error (.doubleSpend "t1" "act:double_spend_alert:x2") ∧
      ((l.run as).act again).chain.pending = (l.run as).chain.pending ++
        ["act:double_spend_alert:x2"] ∧
      ((l.run as).act again).register.alerts ≠ (l.run as).register.alerts := by
  decide +kernel

end Ledger

end WitnessLedger
