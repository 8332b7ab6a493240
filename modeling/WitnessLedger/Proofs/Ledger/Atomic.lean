import WitnessLedger.Proofs.InPlace.Ledger
import WitnessLedger.Proofs.Settlement.Anchoring

/-!
# Failures change nothing

An operation that fails, or finds nothing to do, leaves the chain, the tiers and the register as
they were, although it writes them one after the other.  The one exception is the refusal of a
statement for a settled transfer, which keeps the alert.

## Key results

- `noDoubleSpend_answer`: no operation but anchoring refuses anything for a settled transfer
- `act_eq_of_error`, `act_eq_of_false`: what fails or finds nothing to do changes nothing
- `isAlerted_of_doubleSpend`: all that a refusal changes
- `isAtomic_perform`: the steps of an operation that fail leave all as it was, up to that alert
- `atomic_run`: all this of the steps of each operation, at any moment of a run
-/

namespace WitnessLedger

/-! ## Results without a refusal -/

/-- Whether an error is the refusal of a settled transfer. -/
def LedgerError.isDoubleSpend : LedgerError → Bool
  | .doubleSpend _ _ => true
  | _ => false

/-- Whether a result is anything but the refusal of a settled transfer. -/
structure NoDoubleSpend {α : Type} (r : Except LedgerError α) : Prop where
  of_error : ∀ err, r = .error err → err.isDoubleSpend = false

namespace NoDoubleSpend

variable {α β : Type}

theorem ok (a : α) : NoDoubleSpend (.ok a) := ⟨fun _ h => by cases h⟩

theorem error {err : LedgerError} (h : err.isDoubleSpend = false) :
    NoDoubleSpend (.error err : Except LedgerError α) :=
  ⟨fun _ heq => Except.error.inj heq ▸ h⟩

theorem validation (x : Except Invalid α) : NoDoubleSpend (x.mapError LedgerError.validation) := by
  cases x with
  | error why => exact error rfl
  | ok a => exact ok a

theorem bind {x : Except LedgerError α} {f : α → Except LedgerError β} (hx : NoDoubleSpend x)
    (hf : ∀ a, NoDoubleSpend (f a)) : NoDoubleSpend (x >>= f) := by
  cases x with
  | error err => exact error (hx.of_error err rfl)
  | ok a => exact hf a

theorem map {x : Except LedgerError α} (hx : NoDoubleSpend x) (f : α → β) :
    NoDoubleSpend (x.map f) := by
  cases x with
  | error err => exact error (hx.of_error err rfl)
  | ok a => exact ok (f a)

end NoDoubleSpend

namespace Chain

theorem noDoubleSpend_findEntry (c : Chain) (id : String) : NoDoubleSpend (c.findEntry id) := by
  unfold findEntry
  split
  · exact .ok _
  · exact .error rfl

theorem noDoubleSpend_admission (content : Content) (kind : EntryKind) :
    NoDoubleSpend <| content.admit kind := by
  unfold Content.admit
  split
  · exact .validation _
  · exact .error rfl

theorem noDoubleSpend_propose (c : Chain) (now : Instant) (suffix : String) (kind : EntryKind)
    (content : Content) (level : Level) : NoDoubleSpend (c.propose now suffix kind content level) :=
  (noDoubleSpend_admission content kind).bind fun _ => .ok _

theorem noDoubleSpend_submitVote (c : Chain) (now : Instant) (id witness : String) (accept : Bool)
    (reason : Option String) : NoDoubleSpend (c.submitVote now id witness accept reason) := by
  refine (c.noDoubleSpend_findEntry id).bind fun e => ?_
  cases c.panel.contains witness with
  | false => exact .error rfl
  | true =>
    cases e.hasVoteFrom witness with
    | true => exact .error rfl
    | false => cases e.phase.isTerminal <;> first | exact .error rfl | exact .ok _

theorem noDoubleSpend_finalize (c : Chain) (id : String) : NoDoubleSpend (c.finalize id) := by
  refine (c.noDoubleSpend_findEntry id).bind fun e => ?_
  cases e.phase <;> cases c.hasQuorum e <;> first | exact .error rfl | exact .ok _

theorem noDoubleSpend_reject (c : Chain) (id : String) : NoDoubleSpend (c.reject id) := by
  refine (c.noDoubleSpend_findEntry id).bind fun e => ?_
  cases e.phase.isOpen with
  | false => exact .error rfl
  | true =>
    cases c.panel.isQuorum e.requiredWitnesses (c.bestCase e) <;>
      first | exact .error rfl | exact .ok _

theorem noDoubleSpend_voteAndFinalize (c : Chain) (now : Instant) (id witness : String)
    (accept : Bool) : NoDoubleSpend (c.voteAndFinalize now id witness accept) := by
  refine (c.noDoubleSpend_submitVote now id witness accept none).bind fun p => ?_
  dsimp only
  split
  · exact p.2.noDoubleSpend_finalize id
  · exact .ok _

end Chain

namespace Register

theorem noDoubleSpend_updateSettlement (r : Register) (id : String)
    (f : SettlementRecord → SettlementRecord) : NoDoubleSpend (r.updateSettlement id f) := by
  unfold updateSettlement
  split
  · exact .ok _
  · exact .error rfl

theorem noDoubleSpend_attachProof (r : Register) (id proofId : String) :
    NoDoubleSpend (r.attachProof id proofId) := by
  unfold attachProof
  split
  · exact .error rfl
  · exact (r.noDoubleSpend_updateSettlement id _).bind fun _ => .ok _

theorem noDoubleSpend_finalizeSettlement (r : Register) (c : Chain) (now : Instant) (id : String) :
    NoDoubleSpend (r.finalizeSettlement c now id) := by
  unfold finalizeSettlement
  repeat' split
  all_goals first | exact .error rfl | exact .ok _

theorem noDoubleSpend_anchorConservation (r : Register) (c : Chain) (now : Readings)
    (proofSuffix entrySuffix : String) (balances : SortedMap Decimal) (expected : Decimal) :
    NoDoubleSpend (r.anchorConservation c now proofSuffix entrySuffix balances expected) := by
  unfold anchorConservation
  split
  · split
    · exact (NoDoubleSpend.validation _).bind fun content =>
        (c.noDoubleSpend_propose ..).bind fun _ => .ok _
    · exact .error rfl
  · exact .error rfl

theorem noDoubleSpend_anchorDischarge (r : Register) (c : Chain) (now : Readings)
    (adpSuffix entrySuffix grantId : String) (discharged remaining : Decimal)
    (evidenceDigest : String) :
    NoDoubleSpend (r.anchorDischarge c now adpSuffix entrySuffix grantId discharged remaining
      evidenceDigest) :=
  (NoDoubleSpend.validation _).bind fun _ => (c.noDoubleSpend_propose ..).bind fun _ => .ok _

end Register

theorem Tiers.noDoubleSpend_ingest (t : Tiers) (now : Readings) (suffix : String) (kind : EntryKind)
    (content : Content) : NoDoubleSpend (t.ingest now suffix kind content) :=
  (Chain.noDoubleSpend_admission content kind).bind fun _ => .ok _

theorem Tiers.noDoubleSpend_promoteToRoot (t : Tiers) (c : Chain) (now : Readings)
    (suffix id : String) : NoDoubleSpend (t.promoteToRoot c now suffix id) := by
  unfold promoteToRoot
  split
  · exact .ok _
  · exact (c.noDoubleSpend_propose ..).bind fun _ => .ok _

/-! ## Operations that find nothing to do -/

theorem Chain.eq_of_finalize_false {c c' : Chain} {id : String}
    (h : c.finalize id = .ok (false, c')) : c' = c := by
  obtain ⟨e, -, hdone | hdone | ⟨-, -, -, hc⟩⟩ := finalize_eq_ok_iff.1 h
  · cases hdone.2.1
  · cases hdone.2.2.1
  · exact hc

/-- Sealing without a block takes the accepted ids; a consistent chain then has none. -/
theorem Chain.Consistent.eq_of_sealBlock_none {c c' : Chain} (hc : c.Consistent) {now : Instant}
    (h : c.sealBlock now = (none, c')) : c' = c := by
  rw [sealBlock_eq] at h
  split at h
  · next hnone =>
    have haccepted : c.accepted = [] := by rw [← map_id_sealable hc, hnone, List.map_nil]
    rw [← (Prod.mk.inj h).2, ← haccepted]
  · cases h

theorem Tiers.eq_of_promoteToRoot_none {t t' : Tiers} {c c' : Chain} {now : Readings}
    {suffix id : String} (h : t.promoteToRoot c now suffix id = .ok (none, t', c')) :
    t' = t ∧ c' = c := by
  unfold promoteToRoot at h
  split at h
  · cases h
    exact ⟨rfl, rfl⟩
  · obtain ⟨p, -, h⟩ := bind_eq_ok_iff.1 h
    cases h

theorem Register.eq_of_finalizeSettlement_none {r r' : Register} {c : Chain} {now : Instant}
    {id : String} (h : r.finalizeSettlement c now id = .ok (none, r')) : r' = r := by
  unfold finalizeSettlement at h
  repeat' split at h
  all_goals first | (cases h; rfl) | cases h

namespace Ledger

variable {l : Ledger} {a : Action}

/-- No operation but anchoring refuses anything for a settled transfer. -/
theorem noDoubleSpend_answer (ha : ∀ now suffix s, a ≠ .anchor now suffix s) :
    NoDoubleSpend (l.answer a) := by
  cases a with
  | propose => exact ((l.chain.noDoubleSpend_propose ..).bind fun _ => .ok _).map _
  | submitVote => exact ((l.chain.noDoubleSpend_submitVote ..).bind fun _ => .ok _).map _
  | voteAndFinalize => exact ((l.chain.noDoubleSpend_voteAndFinalize ..).bind fun _ => .ok _).map _
  | finalize => exact ((l.chain.noDoubleSpend_finalize ..).bind fun _ => .ok _).map _
  | reject => exact ((l.chain.noDoubleSpend_reject ..).bind fun _ => .ok _).map _
  | sealBlock => exact .ok _
  | recordSettlement => exact .ok _
  | ingest => exact ((l.tiers.noDoubleSpend_ingest ..).bind fun _ => .ok _).map _
  | promoteToRoot => exact ((l.tiers.noDoubleSpend_promoteToRoot ..).bind fun _ => .ok _).map _
  | resetNovelty => exact .ok _
  | anchor now suffix s => exact absurd rfl (ha now suffix s)
  | finalizeSettlement =>
    exact ((l.register.noDoubleSpend_finalizeSettlement ..).bind fun _ => .ok _).map _
  | anchorConservation =>
    exact ((l.register.noDoubleSpend_anchorConservation ..).bind fun _ => .ok _).map _
  | anchorDischarge =>
    exact ((l.register.noDoubleSpend_anchorDischarge ..).bind fun _ => .ok _).map _
  | markConserved =>
    exact ((l.register.noDoubleSpend_updateSettlement ..).bind fun _ => .ok _).map _
  | attachProof => exact ((l.register.noDoubleSpend_attachProof ..).bind fun _ => .ok _).map _

/-! ## What is left -/

/-- All that the refusal of a statement for a settled transfer changes: an alert is proposed with a
    new id, and noted in the register. -/
def IsAlerted (l l' : Ledger) (transfer id : String) : Prop :=
  ∃ (e : Entry) (alert : DoubleSpendAlert),
    e.id = id ∧ e.kind = .doubleSpendAlert ∧ e.phase = .proposed ∧
      (∀ x ∈ l.chain.entries, x.id ≠ id) ∧
      alert.transferId = transfer ∧ alert.alertEntryId = id ∧
      l' = { l with
             chain := { l.chain with
               entries := l.chain.entries ++ [e], pending := l.chain.pending ++ [id]
               latestEntryHash := e.contentHash }
             register := { l.register with alerts := l.register.alerts ++ [alert] } }

/-- Whether steps that fail or find nothing to do leave a ledger as it was, the refusal of a
    settled transfer apart. -/
def IsAtomic (l : Ledger) : EStateM.Result LedgerError Ledger Bool → Prop
  | .ok true _ => True
  | .ok false l' => l' = l
  | .error (.doubleSpend transfer id) l' => l.IsAlerted l' transfer id
  | .error _ l' => l' = l

section Failures

variable {σ β : Type} {s : σ} {r : Except LedgerError (β × σ)} {f : β × σ → Bool}

theorem stateAfter_of_map_error {err : LedgerError} (h : r.map f = .error err) :
    Run.stateAfter s r = s := by
  cases r with
  | error _ => rfl
  | ok _ => cases h

/-- What fails changes nothing, a refusal for a settled transfer apart. -/
theorem act_eq_of_error {err : LedgerError} (h : l.answer a = .error err)
    (hother : err.isDoubleSpend = false) : l.act a = l := by
  cases a with
  | sealBlock => cases h
  | recordSettlement => cases h
  | resetNovelty => cases h
  | anchor now suffix s =>
    have houtcome := l.anchor_outcome now suffix s
    simp only [answer, act] at h ⊢
    generalize l.anchor now suffix s = r at houtcome h ⊢
    cases houtcome with
    | invalid => rfl
    | refused =>
      cases h
      cases hother
    | repeated => rfl
    | anchored => cases h
  | reject entry =>
    simp only [answer, act] at h ⊢
    cases hresult : l.reject entry with
    | error _ => rfl
    | ok _ =>
      rw [hresult] at h
      cases h
  | markConserved settlement =>
    simp only [answer, act] at h ⊢
    cases hresult : l.markConserved settlement with
    | error _ => rfl
    | ok _ =>
      rw [hresult] at h
      cases h
  | _ => exact stateAfter_of_map_error h

end Failures

theorem map_true_ne {β : Type} (r : Except LedgerError β) :
    r.map (fun _ => true) ≠ .ok false := by
  cases r <;> exact fun h => by cases h

/-- What finds nothing to do changes nothing.  Of an accepted id without an accepted entry, sealing
    would leave nothing behind; there is none in a consistent chain. -/
theorem act_eq_of_false (hc : l.chain.Consistent) (h : l.answer a = .ok false) : l.act a = l := by
  cases a with
  | finalize entry =>
    simp only [answer, act, Ledger.finalize] at h ⊢
    rcases hresult : l.chain.finalize entry with err | ⟨done, c⟩
    · rfl
    · rw [hresult] at h
      cases Except.ok.inj h
      rw [Chain.eq_of_finalize_false hresult]
      rfl
  | sealBlock now =>
    simp only [answer, act, Ledger.sealBlock] at h ⊢
    rcases hresult : l.chain.sealBlock now with ⟨block, c⟩
    rw [hresult] at h
    cases block with
    | some _ => cases h
    | none => rw [hc.eq_of_sealBlock_none hresult]
  | promoteToRoot now suffix entry =>
    simp only [answer, act, Ledger.promoteToRoot] at h ⊢
    rcases hresult : l.tiers.promoteToRoot l.chain now suffix entry with err | ⟨root, t, c⟩
    · rfl
    · rw [hresult] at h
      cases root with
      | some _ => cases h
      | none =>
        obtain ⟨rfl, rfl⟩ := Tiers.eq_of_promoteToRoot_none hresult
        rfl
  | finalizeSettlement now entry =>
    simp only [answer, act, Ledger.finalizeSettlement] at h ⊢
    rcases hresult : l.register.finalizeSettlement l.chain now entry with err | ⟨record, r⟩
    · rfl
    · rw [hresult] at h
      cases record with
      | some _ => cases h
      | none =>
        rw [Register.eq_of_finalizeSettlement_none hresult]
        rfl
  | recordSettlement => cases h
  | resetNovelty => cases h
  | anchor now suffix s =>
    have houtcome := l.anchor_outcome now suffix s
    simp only [answer] at h
    generalize l.anchor now suffix s = r at houtcome h
    cases houtcome <;> cases h
  | _ => exact absurd h (map_true_ne _)

/-- The refusal of a statement for a settled transfer keeps its alert and changes nothing else,
    where the id of the alert is new. -/
theorem isAlerted_of_doubleSpend {transfer id : String}
    (hfresh : ∀ x, l.onChain a = [x] → l.chain.IsFresh x)
    (h : l.answer a = .error (.doubleSpend transfer id)) : l.IsAlerted (l.act a) transfer id := by
  by_cases hanchor : ∃ now suffix s, a = .anchor now suffix s
  · obtain ⟨now, suffix, s, rfl⟩ := hanchor
    have houtcome := l.anchor_outcome now suffix s
    simp only [answer, act, onChain] at h hfresh ⊢
    generalize l.anchor now suffix s = r at houtcome h hfresh ⊢
    cases houtcome with
    | invalid => cases h
    | refused hvalid hfirst =>
      cases h
      have hpayload := validate_alertPayload hvalid (List.mem_of_find?_eq_some hfirst)
      have hproposes : l.alertOn now suffix s transfer ∈ l.chain.proposes (.propose now.entry
          suffix .doubleSpendAlert (.plain (Register.alertPayload s transfer)) .root) :=
        Chain.mem_proposes_propose.2 ⟨Content.admit_plain hpayload, rfl⟩
      have hnew : ∀ x ∈ l.chain.entries, x.id ≠ (l.alertOn now suffix s transfer).id :=
        hfresh _ rfl _ hproposes
      refine ⟨l.alertOn now suffix s transfer, ⟨transfer, s.statementId, _, now.record⟩, rfl, rfl,
        rfl, hnew, rfl, rfl, ?_⟩
      rw [← Chain.insertEntry_eq_append hnew]
      rfl
    | repeated => cases h
    | anchored => cases h
  · have hno := noDoubleSpend_answer (l := l) (a := a)
      fun now suffix s ha => hanchor ⟨now, suffix, s, ha⟩
    cases hno.of_error _ h

/-! ## Runs -/

variable {panel : Panel} {rule : ForkRule} {capacity significance : Nat} {scope : SortedSet}
  {as : List Action}

/-- The next proposal of a run makes a new id, if its suffix has not been taken. -/
theorem isFresh_onChain
    (h : ((new panel rule capacity significance scope).suffixes (as ++ [a])).Nodup)
    {x : Chain.Action} :
    let l := (new panel rule capacity significance scope).run as
    l.onChain a = [x] → l.chain.IsFresh x := by
  intro l hx
  have htraced := traced_run panel rule capacity significance scope as (nodup_suffixes_append h)
  refine htraced.isFresh fun s hs hmem => ?_
  have hlast : l.chainRun [a] = [x] := by
    show l.onChain a ++ [] = [x]
    rw [hx, List.append_nil]
  unfold suffixes at h
  rw [chainRun_append, hlast, Chain.suffixes, Run.chronicle_concat, List.nodup_append] at h
  rw [chain_run] at hs
  exact h.2.2 s hmem s hs rfl

/-- The steps of an operation leave the ledger as it was if they fail or find nothing to do, the
    refusal of a settled transfer apart. -/
theorem isAtomic_perform (hc : l.chain.Consistent)
    (hfresh : ∀ x, l.onChain a = [x] → l.chain.IsFresh x) : l.IsAtomic (InPlace.perform a l) := by
  rw [InPlace.perform_eq]
  rcases hanswer : l.answer a with err | done
  · by_cases herr : err.isDoubleSpend = false
    · have hsame : l.act a = l := act_eq_of_error hanswer herr
      cases err with
      | doubleSpend => cases herr
      | _ => exact hsame
    · cases err with
      | doubleSpend transfer id => exact isAlerted_of_doubleSpend hfresh hanswer
      | _ => exact absurd rfl herr
  · cases done with
    | true => trivial
    | false => exact act_eq_of_false hc hanswer

/-- At any moment of a run of a new ledger in which no suffix is taken twice, the steps of the next
    operation, whichever it is, lead to its answer and to the ledger after it.  If they fail or
    find nothing to do, they leave the ledger as it was.  Only if they fail for a settled transfer
    they leave a new alert on the chain and a note of it in the register, and nothing else. -/
theorem atomic_run (panel : Panel) (rule : ForkRule) (capacity significance : Nat)
    (scope : SortedSet) (as : List Action) (a : Action)
    (h : ((new panel rule capacity significance scope).suffixes (as ++ [a])).Nodup) :
    let l := (new panel rule capacity significance scope).run as
    InPlace.perform a l = InPlace.result (l.act a) (l.answer a) ∧
      l.IsAtomic (InPlace.perform a l) := by
  intro l
  have hconsistent : l.chain.Consistent :=
    (traced_run panel rule _ _ scope as (nodup_suffixes_append h)).consistent
  have hfresh : ∀ x, l.onChain a = [x] → l.chain.IsFresh x := fun x hx => isFresh_onChain h hx
  exact ⟨InPlace.perform_eq l a, isAtomic_perform hconsistent hfresh⟩

/-- A statement with the transfer that was marked by hand is refused after the run. -/
theorem atomic_spendingRun :
    let statement := (Statement.blank "stmt:3" "lct:a" "lct:b").withTransfers ["t4"]
    let a := Action.anchor .epoch "x3" statement
    let l := (new Chain.trio .lowestEntryId 10 5 .empty).run spendingRun
    ((new Chain.trio .lowestEntryId 10 5 .empty).suffixes (spendingRun ++ [a])).Nodup ∧
      l.answer a = .error (.doubleSpend "t4" "act:double_spend_alert:x3") ∧
      InPlace.perform a l = InPlace.result (l.act a) (l.answer a) ∧
      l.IsAtomic (InPlace.perform a l) := by
  intro statement a l
  have h : ((new Chain.trio .lowestEntryId 10 5 .empty).suffixes (spendingRun ++ [a])).Nodup := by
    decide +kernel
  have hanswer : l.answer a = .error (.doubleSpend "t4" "act:double_spend_alert:x3") := by
    decide +kernel
  exact ⟨h, hanswer, atomic_run Chain.trio .lowestEntryId 10 5 .empty spendingRun a h⟩

end Ledger

end WitnessLedger
