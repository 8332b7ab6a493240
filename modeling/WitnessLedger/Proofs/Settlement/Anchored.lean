import WitnessLedger.Proofs.Settlement.Packaging

/-!
# Runs in which settlements are anchored

Where all settlements of a run are anchored, none is proposed directly and none comes from the stem,
nothing can take the statement id of an anchored settlement.  So each of them can be recorded as
soon as it is sealed, and its record is verified.

## Key results

- `suffixes_append_of_isQuiet`, `anchorings_append_of_isQuiet`: operations that propose nothing add
  nothing to what a run has taken and anchored
- `AnchorsOnly.append`, `AnchorsOnly.anchor`: how such a run goes on
- `AnchorsOnly.exists_verified`: an anchored and sealed settlement is recorded and verified
-/

namespace WitnessLedger

namespace Chain

@[simp] theorem suffixes_recordSettlement (c : Chain) (transfers : List String) :
    c.suffixes (transfers.map .recordSettlement) = [] := by
  induction transfers generalizing c with
  | nil => rfl
  | cons t transfers ih => exact ih _

theorem draws_propose {c : Chain} {kind : EntryKind} {content : Content} (now : Instant)
    (suffix : String) (level : Level) (h : content.admit kind = .ok ()) :
    c.draws (.propose now suffix kind content level) = [suffix] := by
  rw [draws, propose_of_admit now suffix level h]

end Chain

namespace Ledger

variable {l : Ledger} {a : Action} {as bs : List Action}

/-- The suffixes that an operation takes for the ids of entries of the chain. -/
def draws (l : Ledger) (a : Action) : List String := l.chain.suffixes (l.onChain a)

theorem suffixes_eq (l : Ledger) (as : List Action) :
    l.suffixes as = Run.chronicle act draws l as :=
  Run.chronicle_chronicle chain_act Chain.draws l as

theorem suffixes_concat (l : Ledger) (as : List Action) (a : Action) :
    l.suffixes (as ++ [a]) = l.suffixes as ++ (l.run as).draws a := by
  rw [suffixes_eq, Run.chronicle_concat, ← suffixes_eq]
  rfl

/-! ## Statements that are anchored or refused -/

/-- A valid statement is refused for its first settled transfer. -/
theorem anchor_of_settled {s : Statement} {transfer : String} (hvalid : s.validate = .ok ())
    (hfirst : s.transferIds.find? l.chain.isSettled = some transfer) (now : Readings)
    (suffix : String) :
    l.anchor now suffix s =
      .ok (.doubleSpend transfer (l.alertOn now suffix s transfer),
        l.refusing now suffix s transfer) := by
  have houtcome := l.anchor_outcome now suffix s
  generalize l.anchor now suffix s = r at houtcome ⊢
  cases houtcome with
  | invalid hinvalid =>
    rw [hvalid] at hinvalid
    cases hinvalid
  | refused _ hfound =>
    rw [hfirst, Option.some.injEq] at hfound
    rw [hfound]
  | repeated _ hfree =>
    rw [hfirst] at hfree
    cases hfree
  | anchored _ hfree =>
    rw [hfirst] at hfree
    cases hfree

/-- A valid statement with a new id and without settled transfers is anchored. -/
theorem anchor_of_free {s : Statement} (hvalid : s.validate = .ok ())
    (hfree : s.transferIds.find? l.chain.isSettled = none)
    (hnew : s.statementId ∉ l.register.anchored) (now : Readings) (suffix : String) :
    l.anchor now suffix s =
      .ok (.proposed (l.settlementOf now suffix s), l.anchoring now suffix s) := by
  have houtcome := l.anchor_outcome now suffix s
  generalize l.anchor now suffix s = r at houtcome ⊢
  cases houtcome with
  | invalid hinvalid =>
    rw [hvalid] at hinvalid
    cases hinvalid
  | refused _ hfound =>
    rw [hfree] at hfound
    cases hfound
  | repeated _ _ hknown => exact absurd hknown hnew
  | anchored => rfl

/-! ## Operations that propose nothing -/

/-- Whether an operation is a vote, makes a block or records a settlement, so that it proposes
    nothing. -/
def Action.IsQuiet : Action → Prop
  | .voteAndFinalize .. | .sealBlock _ | .finalizeSettlement .. => True
  | _ => False

theorem draws_of_isQuiet (ha : a.IsQuiet) : l.draws a = [] := by
  cases a with
  | voteAndFinalize now entry witness accept =>
    simp only [draws, onChain]
    split <;> rfl
  | sealBlock now => rfl
  | finalizeSettlement now entry => rfl
  | _ => exact ha.elim

theorem anchors_of_isQuiet (ha : a.IsQuiet) : l.anchors a = [] := by
  cases a with
  | anchor => exact ha.elim
  | _ => rfl

theorem tiers_act_of_isQuiet (ha : a.IsQuiet) : (l.act a).tiers = l.tiers := by
  cases a with
  | voteAndFinalize now entry witness accept =>
    have hact : l.act (.voteAndFinalize now entry witness accept) = { l with chain := _ } :=
      stateAfter_chain l (l.chain.voteAndFinalize now entry witness accept)
    rw [hact]
  | sealBlock now => rfl
  | finalizeSettlement now entry =>
    simp only [act, finalizeSettlement]
    cases l.register.finalizeSettlement l.chain now entry <;> rfl
  | _ => exact ha.elim

theorem tiers_run_of_isQuiet (h : ∀ b ∈ bs, b.IsQuiet) : (l.run bs).tiers = l.tiers := by
  induction bs generalizing l with
  | nil => rfl
  | cons b bs ih =>
    rw [List.forall_mem_cons] at h
    exact (ih h.2).trans (tiers_act_of_isQuiet h.1)

theorem suffixes_append_of_isQuiet (h : ∀ b ∈ bs, b.IsQuiet) :
    l.suffixes (as ++ bs) = l.suffixes as := by
  rw [suffixes_eq, suffixes_eq]
  exact Run.chronicle_append_of_silent (fun _ b hb => draws_of_isQuiet (h b hb)) l as

theorem anchorings_append_of_isQuiet (h : ∀ b ∈ bs, b.IsQuiet) :
    l.anchorings (as ++ bs) = l.anchorings as :=
  Run.chronicle_append_of_silent (fun _ b hb => anchors_of_isQuiet (h b hb)) l as

/-- Anchoring takes at most the suffix that it is given. -/
theorem draws_anchor (l : Ledger) (now : Readings) (suffix : String) (s : Statement) :
    l.draws (.anchor now suffix s) = [] ∨ l.draws (.anchor now suffix s) = [suffix] := by
  have h := l.anchor_outcome now suffix s
  simp only [draws, onChain]
  generalize l.anchor now suffix s = r at h ⊢
  cases h with
  | invalid => exact .inl rfl
  | refused hvalid hfirst =>
    have hp := validate_alertPayload hvalid (List.mem_of_find?_eq_some hfirst)
    refine .inr ?_
    show l.chain.draws _ ++ [] = _
    rw [List.append_nil]
    exact Chain.draws_propose now.entry suffix .root (Content.admit_plain hp)
  | repeated => exact .inl rfl
  | anchored hvalid =>
    have hp : (Payload.bilateralSettlement s).validate = .ok () := hvalid
    refine .inr ?_
    show l.chain.draws _ ++ Chain.suffixes _ _ = _
    rw [Chain.suffixes_recordSettlement, List.append_nil]
    exact Chain.draws_propose now.entry suffix .root (Content.admit_plain hp)

/-! ## Runs that only anchor -/

/-- Whether all settlements of a run are anchored, and no suffix is taken twice. -/
structure AnchorsOnly (l : Ledger) (as : List Action) : Prop where
  direct : ∀ a ∈ as, ¬ a.ProposesSettlement
  promotions_eq : (l.run as).tiers.promotions = []
  nodup : (l.suffixes as).Nodup

theorem AnchorsOnly.append (h : l.AnchorsOnly as) (hbs : ∀ b ∈ bs, b.IsQuiet) :
    l.AnchorsOnly (as ++ bs) where
  direct a ha := by
    rcases List.mem_append.1 ha with ha | ha
    · exact h.direct a ha
    · have hquiet := hbs a ha
      cases a with
      | propose => exact hquiet.elim
      | _ => exact id
  promotions_eq := by
    have hrun : l.run (as ++ bs) = (l.run as).run bs := List.foldl_append
    rw [hrun, tiers_run_of_isQuiet hbs]
    exact h.promotions_eq
  nodup := by
    rw [suffixes_append_of_isQuiet hbs]
    exact h.nodup

/-- A statement is anchored, or tried to be, with a suffix that has not been taken. -/
theorem AnchorsOnly.anchor (h : l.AnchorsOnly as) (now : Readings) {suffix : String}
    (hnew : suffix ∉ l.suffixes as) (s : Statement) :
    l.AnchorsOnly (as ++ [.anchor now suffix s]) where
  direct a ha := by
    rcases List.mem_append.1 ha with ha | ha
    · exact h.direct a ha
    · rw [List.mem_singleton] at ha
      subst ha
      exact id
  promotions_eq := by
    have houtcome := (l.run as).anchor_outcome now suffix s
    rw [run_concat, act]
    generalize (l.run as).anchor now suffix s = r at houtcome ⊢
    cases houtcome <;> exact h.promotions_eq
  nodup := by
    rw [suffixes_concat]
    rcases draws_anchor (l.run as) now suffix s with hdraws | hdraws <;> rw [hdraws]
    · rw [List.append_nil]
      exact h.nodup
    · rw [List.nodup_append_comm]
      exact List.nodup_cons.2 ⟨hnew, h.nodup⟩

variable {panel : Panel} {rule : ForkRule} {capacity significance : Nat} {scope : SortedSet}

/-- An anchored settlement that is sealed can be recorded, and the record is verified. -/
theorem AnchorsOnly.exists_verified
    (h : (new panel rule capacity significance scope).AnchorsOnly as) {p : Statement × Entry}
    (hp : p ∈ (new panel rule capacity significance scope).anchorings as) :
    let l := (new panel rule capacity significance scope).run as
    l.chain.phase? p.2.id = some .finalized → ∀ now, ∃ record register,
      l.finalizeSettlement now p.2.id = .ok (some record, { l with register }) ∧
        ({ l with register }.verifySettlement record.settlementId).verified = true := by
  intro l hphase now
  obtain ⟨e, he, hs⟩ := exists_entry_of_mem_anchorings h.nodup hp
  obtain ⟨x, hx, hsealed⟩ := Chain.phase?_eq_some_iff.1 hphase
  obtain rfl : x = e := Option.some.inj (hx.symm.trans he)
  have hunclaimed : ∀ r ∈ l.register.settlements, r.entryId ≠ p.2.id →
      r.settlementId ≠ p.1.statementId := by
    intro r hr hne hclaims
    obtain ⟨promotion, hpromotion, -⟩ := isPromoted_of_claims h.direct h.nodup hp hr hne hclaims
    rw [h.promotions_eq] at hpromotion
    exact List.not_mem_nil hpromotion
  obtain ⟨record, register, hok, hmem, -, -, m, hm⟩ :=
    ((coherent_of_nodup h.nodup).packages_iff_unclaimed he hs hsealed now).1.2 hunclaimed
  refine ⟨record, register, hok, ?_⟩
  -- the ledger with the record is that of a run which goes on
  have hquiet : ∀ b ∈ [Action.finalizeSettlement now p.2.id], b.IsQuiet := by simp [Action.IsQuiet]
  have hlater := h.append hquiet
  have hrun : (new panel rule capacity significance scope).run
      (as ++ [.finalizeSettlement now p.2.id]) = { l with register } := by
    rw [run_concat]
    show Run.stateAfter l (l.finalizeSettlement now p.2.id) = _
    rw [hok, Run.stateAfter_ok]
  have hcoherent := coherent_of_nodup hlater.nodup
  have hverified := verified_of_isOf hlater.nodup (r := record) (e := m)
  rw [hrun] at hcoherent hverified
  rw [hcoherent.verifySettlement_eq hmem]
  exact hverified hm

end Ledger

end WitnessLedger
