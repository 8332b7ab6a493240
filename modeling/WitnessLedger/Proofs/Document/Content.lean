import WitnessLedger.Content.Hash
import WitnessLedger.Proofs.Json.Canonical
import WitnessLedger.Proofs.Document.Reading
import WitnessLedger.Proofs.Double.Ratio
import WitnessLedger.Proofs.Except

/-!
# Contents read back

The document of any content with a finite score, or none, is read as the same content, apart from
one thing: a decimal that is zero loses its sign.  The canonical text, which is hashed, shows this
sign.

## Key results

- `Payload.mapDecimals_eq_self_iff`: what a change of the decimals of a payload leaves as it is
- `Payload.ofKind?_members`: a payload is read from its members, its kind being known
- `Content.reloadsAs`: content is read back without the signs of its zeros
- `Content.unsigned_eq_self_iff`: these are all that content can lose
- `Content.canonical_inj`: the canonical text determines the content
-/

namespace WitnessLedger

open Document

/-! ## The decimals of a payload -/

namespace Payload

/-- The decimals that a payload holds. -/
def decimals : Payload → List Decimal
  | bilateralSettlement s => [s.balanceA, s.balanceB, s.netPosition]
  | adpDischarge d => [d.discharged, d.remaining]
  | conservationProof c => [c.totalAtp, c.expectedTotal, c.drift]
  | transferCommit t | transferComplete t => [t.amount]
  | lctRegistration _ | charterAmendment _ | credentialIssuance _ | auditSeal _
  | doubleSpendAlert _ => []

/-- The payload with other decimals. -/
def mapDecimals (f : Decimal → Decimal) : Payload → Payload
  | bilateralSettlement s =>
    bilateralSettlement { s with balanceA := f s.balanceA, balanceB := f s.balanceB
                                 netPosition := f s.netPosition }
  | adpDischarge d =>
    adpDischarge { d with discharged := f d.discharged, remaining := f d.remaining }
  | conservationProof c =>
    conservationProof { c with totalAtp := f c.totalAtp, expectedTotal := f c.expectedTotal
                               drift := f c.drift }
  | transferCommit t => transferCommit { t with amount := f t.amount }
  | transferComplete t => transferComplete { t with amount := f t.amount }
  | p => p

/-- A change of the decimals leaves a payload as it is exactly if it leaves each of them. -/
theorem mapDecimals_eq_self_iff {f : Decimal → Decimal} {p : Payload} :
    p.mapDecimals f = p ↔ ∀ d ∈ p.decimals, f d = d := by
  cases p with
  | bilateralSettlement s => obtain ⟨⟩ := s; simp [mapDecimals, decimals]
  | adpDischarge d => obtain ⟨⟩ := d; simp [mapDecimals, decimals]
  | conservationProof c => obtain ⟨⟩ := c; simp [mapDecimals, decimals]
  | transferCommit t => obtain ⟨⟩ := t; simp [mapDecimals, decimals]
  | transferComplete t => obtain ⟨⟩ := t; simp [mapDecimals, decimals]
  | _ => simp [mapDecimals, decimals]

/-- The payload with its decimals replaced by others in the same order. -/
def withDecimals : Payload → List Decimal → Payload
  | bilateralSettlement s, [a, b, net] =>
    bilateralSettlement { s with balanceA := a, balanceB := b, netPosition := net }
  | adpDischarge d, [discharged, remaining] => adpDischarge { d with discharged, remaining }
  | conservationProof c, [totalAtp, expectedTotal, drift] =>
    conservationProof { c with totalAtp, expectedTotal, drift }
  | transferCommit t, [amount] => transferCommit { t with amount }
  | transferComplete t, [amount] => transferComplete { t with amount }
  | p, _ => p

theorem withDecimals_decimals (f : Decimal → Decimal) (p : Payload) :
    (p.mapDecimals f).withDecimals p.decimals = p := by
  cases p <;> rfl

/-- Payloads are the same if they hold the same decimals and agree in everything else. -/
theorem eq_of_mapDecimals_eq {f : Decimal → Decimal} {p q : Payload}
    (h : p.mapDecimals f = q.mapDecimals f) (hdecimals : p.decimals = q.decimals) : p = q := by
  rw [← withDecimals_decimals f p, h, hdecimals, withDecimals_decimals]

@[simp] theorem kind_mapDecimals (f : Decimal → Decimal) (p : Payload) :
    (p.mapDecimals f).kind = p.kind := by
  cases p <;> rfl

end Payload

namespace Content

/-- The content without the signs of its zeros. -/
def unsigned (c : Content) : Content :=
  { c with payload := c.payload.mapDecimals Decimal.unsigned }

/-- Whether one of the decimals of a content is a zero with a sign. -/
def HasSignedZero (c : Content) : Prop := ∃ d ∈ c.payload.decimals, d.isSignedZero = true

instance (c : Content) : Decidable c.HasSignedZero :=
  inferInstanceAs (Decidable (∃ d ∈ c.payload.decimals, d.isSignedZero = true))

/-- Only content with a signed zero changes without the signs of its zeros. -/
theorem unsigned_eq_self_iff {c : Content} : c.unsigned = c ↔ ¬ c.HasSignedZero := by
  obtain ⟨subtype, score, payload⟩ := c
  simp only [unsigned, Content.mk.injEq, true_and, Payload.mapDecimals_eq_self_iff,
    Decimal.unsigned_eq_self_iff, HasSignedZero, not_exists, not_and, Bool.not_eq_true]

end Content

/-! ## Scores -/

/-- Content that passes its checks has a finite score, or none. -/
theorem Content.isFinite_of_validate {c : Content} (h : c.validate = .ok ()) :
    ∀ x ∈ c.anomalyScore, x.isFinite = true := by
  intro x hx
  rw [Option.mem_def] at hx
  obtain ⟨_, -, hscore⟩ := bind_eq_ok_iff.1 h
  rw [hx] at hscore
  simp only [checkAnomalyScore] at hscore
  split at hscore
  · next hrange =>
    rw [Bool.and_eq_true] at hrange
    exact Double.isFinite_of_le hrange.1 hrange.2
  · cases hscore

/-! ## Payloads -/

namespace Payload

variable {f : Fields}

open ReloadsAs

theorem ofJson?_transfer {t : Transfer} (h : f.Holds t.members) :
    Transfer.ofJson? (.object f.members) = some { t with amount := t.amount.unsigned } := by
  obtain ⟨hid, hsource, htarget, hamount, hreason, -⟩ := h
  rw [Transfer.ofJson?, Fields.of?_bind, Fields.get_eq hid (string _),
    Fields.get_eq hsource (string _), Fields.get_eq htarget (string _),
    Fields.get_eq hamount (decimal _), Fields.optional_eq hreason (optionString _)]
  rfl

/-- A payload is read from its members, its kind being known. -/
theorem ofKind?_members {p : Payload} (h : f.Holds p.members) :
    ofKind? (.object f.members) p.kind = some (p.mapDecimals Decimal.unsigned) := by
  cases p with
  | bilateralSettlement s =>
    obtain ⟨hid, ha, hb, hbalanceA, hbalanceB, hnet, hcount, hids, -⟩ := h
    show Option.map _ _ = _
    rw [Statement.ofJson?, Fields.of?_bind, Fields.get_eq hid (string _),
      Fields.get_eq ha (string _), Fields.get_eq hb (string _), Fields.get_eq hbalanceA (decimal _),
      Fields.get_eq hbalanceB (decimal _), Fields.get_eq hnet (decimal _),
      Fields.get_eq hcount (word32 _), Fields.get_eq hids (strings _)]
    rfl
  | adpDischarge d =>
    obtain ⟨hid, hgrant, hdischarged, hremaining, hevidence, -⟩ := h
    show Option.map _ _ = _
    rw [Discharge.ofJson?, Fields.of?_bind, Fields.get_eq hid (string _),
      Fields.get_eq hgrant (string _), Fields.get_eq hdischarged (decimal _),
      Fields.get_eq hremaining (decimal _), Fields.get_eq hevidence (string _)]
    rfl
  | conservationProof c =>
    obtain ⟨hid, htotal, hexpected, hdrift, hconserved, hcount, -⟩ := h
    show Option.map _ _ = _
    rw [Conservation.ofJson?, Fields.of?_bind, Fields.get_eq hid (string _),
      Fields.get_eq htotal (decimal _), Fields.get_eq hexpected (decimal _),
      Fields.get_eq hdrift (decimal _), Fields.get_eq hconserved (bool _),
      Fields.get_eq hcount (word64 _)]
    rfl
  | lctRegistration r =>
    obtain ⟨hentity, hsociety, -⟩ := h
    show Option.map _ _ = _
    rw [Registration.ofJson?, Fields.of?_bind, Fields.get_eq hentity (string _),
      Fields.get_eq hsociety (string _)]
    rfl
  | charterAmendment a =>
    obtain ⟨hsociety, hamendment, hvalue, -⟩ := h
    show Option.map _ _ = _
    rw [Amendment.ofJson?, Fields.of?_bind, Fields.get_eq hsociety (string _),
      Fields.get_eq hamendment (string _), Fields.get_eq hvalue (string _)]
    rfl
  | credentialIssuance c =>
    obtain ⟨hentity, hissuer, htype, -⟩ := h
    show Option.map _ _ = _
    rw [Credential.ofJson?, Fields.of?_bind, Fields.get_eq hentity (string _),
      Fields.get_eq hissuer (string _), Fields.get_eq htype (string _)]
    rfl
  | auditSeal a =>
    obtain ⟨hscope, hdigest, hentity, -⟩ := h
    show Option.map _ _ = _
    rw [AuditSeal.ofJson?, Fields.of?_bind, Fields.get_eq hscope (string _),
      Fields.get_eq hdigest (string _), Fields.optional_eq hentity (optionString _)]
    rfl
  | transferCommit t => exact congrArg (Option.map transferCommit) (ofJson?_transfer h)
  | transferComplete t => exact congrArg (Option.map transferComplete) (ofJson?_transfer h)
  | doubleSpendAlert r =>
    obtain ⟨hid, hstatement, ha, hb, -⟩ := h
    show Option.map _ _ = _
    rw [Respent.ofJson?, Fields.of?_bind, Fields.get_eq hid (string _),
      Fields.get_eq hstatement (string _), Fields.get_eq ha (string _), Fields.get_eq hb (string _)]
    rfl

theorem wellFormed_members (p : Payload) : Json.WellFormedMembers p.members := by
  cases p with
  | bilateralSettlement s =>
    have hcount := (word32 s.transfersReconciled).wellFormed
    have hids := (strings s.transferIds).wellFormed
    exact ⟨trivial, trivial, trivial, trivial, trivial, trivial, hcount, hids, trivial⟩
  | adpDischarge d => exact ⟨trivial, trivial, trivial, trivial, trivial, trivial⟩
  | conservationProof c =>
    exact ⟨trivial, trivial, trivial, trivial, trivial, (word64 c.societyCount).wellFormed, trivial⟩
  | lctRegistration r => exact ⟨trivial, trivial, trivial⟩
  | charterAmendment a => exact ⟨trivial, trivial, trivial, trivial⟩
  | credentialIssuance c => exact ⟨trivial, trivial, trivial, trivial⟩
  | auditSeal a => exact ⟨trivial, trivial, (optionString a.entityId).wellFormed, trivial⟩
  | transferCommit t =>
    exact ⟨trivial, trivial, trivial, trivial, (optionString t.reason).wellFormed, trivial⟩
  | transferComplete t =>
    exact ⟨trivial, trivial, trivial, trivial, (optionString t.reason).wellFormed, trivial⟩
  | doubleSpendAlert r => exact ⟨trivial, trivial, trivial, trivial, trivial⟩

/-- The names of the members of a payload differ from each other and from the name of its kind. -/
theorem nodup_names (p : Payload) : (tagName :: p.members.map Prod.fst).Nodup := by
  cases p <;>
    simp [tagName, members, Statement.members, Discharge.members, Conservation.members,
      Registration.members, Amendment.members, Credential.members, AuditSeal.members,
      Transfer.members, Respent.members]

/-- A payload is read back without the signs of its zeros. -/
theorem reloadsAs (p : Payload) : ReloadsAs p (p.mapDecimals Decimal.unsigned) := by
  refine .of_members rfl p.nodup_names ⟨trivial, p.wellFormed_members⟩ fun f h => ?_
  -- the kind is looked up first, and says which fields to expect
  obtain ⟨htag, hmembers⟩ := h
  have htag : SortedMap.find? tagName f.members = some (.string p.kind.name) := htag
  show Payload.ofJson? (.object f.members) = _
  simp only [Payload.ofJson?, htag, EntryKind.ofName?_name, Option.bind_some,
    ofKind?_members hmembers]

/-- The names of the decimals of a payload, in the order in which it holds them. -/
def decimalNames : EntryKind → List String
  | .bilateralSettlement => ["a_balance", "b_balance", "net_position"]
  | .adpDischarge => ["discharged", "remaining"]
  | .conservationProof => ["total_atp", "expected_total", "drift"]
  | .transferCommit | .transferComplete => ["amount"]
  | .lctRegistration | .charterAmendment | .credentialIssuance | .auditSeal | .doubleSpendAlert =>
    []

/-- The texts of the decimals of a payload are found under their names. -/
theorem map_part?_decimalNames {p : Payload} (h : f.Holds p.members) :
    (decimalNames p.kind).map f.part? = p.decimals.map fun d => some (.string d.text) := by
  cases p with
  | bilateralSettlement s =>
    obtain ⟨-, -, -, ha, hb, hnet, -⟩ := h
    exact congrArg₂ List.cons ha (congrArg₂ List.cons hb (congrArg₂ List.cons hnet rfl))
  | adpDischarge d =>
    obtain ⟨-, -, hdischarged, hremaining, -⟩ := h
    exact congrArg₂ List.cons hdischarged (congrArg₂ List.cons hremaining rfl)
  | conservationProof c =>
    obtain ⟨-, htotal, hexpected, hdrift, -⟩ := h
    exact congrArg₂ List.cons htotal (congrArg₂ List.cons hexpected (congrArg₂ List.cons hdrift rfl))
  | transferCommit t =>
    obtain ⟨-, -, -, hamount, -⟩ := h
    exact congrArg₂ List.cons hamount rfl
  | transferComplete t =>
    obtain ⟨-, -, -, hamount, -⟩ := h
    exact congrArg₂ List.cons hamount rfl
  | _ => rfl

/-- Payloads of one kind that are the same document have the same decimals. -/
theorem decimals_eq_of_holds {p q : Payload} (hkind : p.kind = q.kind) (hp : f.Holds p.members)
    (hq : f.Holds q.members) : p.decimals = q.decimals := by
  have htexts := map_part?_decimalNames hp
  rw [hkind, map_part?_decimalNames hq] at htexts
  refine List.map_injective_iff.2 (fun d e h => ?_) htexts.symm
  exact Decimal.text_inj (Json.string.inj (Option.some.inj h))

end Payload

namespace Content

open ReloadsAs

/-- Content with a finite score, or none, is read back without the signs of its zeros. -/
theorem reloadsAs {c : Content} (h : ∀ x ∈ c.anomalyScore, x.isFinite = true) :
    ReloadsAs c c.unsigned := by
  have hscore := optionDouble h
  have hpayload := c.payload.reloadsAs
  refine .of_members rfl (by simp)
    ⟨(optionString c.subtype).wellFormed, hscore.wellFormed, hpayload.wellFormed, trivial⟩
    fun f ⟨hsubtype, hanomaly, hbody, _⟩ => ?_
  show Content.ofJson? _ = _
  rw [Content.ofJson?, Fields.of?_bind, Fields.optional_eq hsubtype (optionString _),
    Fields.optional_eq hanomaly hscore, Fields.get_eq hbody hpayload]
  rfl

/-- The canonical text determines content with a finite score, or none, down to the places of its
    decimals and the signs of its zeros. -/
theorem canonical_inj {a b : Content} (ha : ∀ x ∈ a.anomalyScore, x.isFinite = true)
    (hb : ∀ x ∈ b.anomalyScore, x.isFinite = true) : a.canonical = b.canonical ↔ a = b := by
  refine ⟨fun h => ?_, congrArg canonical⟩
  have hreads := reloadsAs ha
  have hreads' := reloadsAs hb
  -- the text determines the document up to the order of members
  have hsorted : (toJson a).sorted = (toJson b).sorted :=
    Json.sorted_eq_of_canonical_eq hreads.wellFormed hreads'.wellFormed h
  -- everything but the signs of zeros is read from the document
  have hunsigned : a.unsigned = b.unsigned := by
    apply Option.some.inj
    rw [← hreads.ofJson?_eq, hsorted, hreads'.ofJson?_eq]
  obtain ⟨hsubtype, hscore, hrest⟩ := Content.mk.inj hunsigned
  have hkind : a.payload.kind = b.payload.kind := by
    simpa using congrArg Payload.kind hrest
  -- the decimals are compared by their texts
  obtain ⟨-, -, hbody, -⟩ := Fields.holds_read hreads.wellFormed.1
  obtain ⟨-, -, hbody', -⟩ := Fields.holds_of_sorted_eq hsorted hreads'.wellFormed.1
  have hpayload : (toJson a.payload).sorted = (toJson b.payload).sorted :=
    Option.some.inj (hbody.symm.trans hbody')
  obtain ⟨-, hparts⟩ := Fields.holds_read a.payload.reloadsAs.wellFormed.1
  obtain ⟨-, hparts'⟩ := Fields.holds_of_sorted_eq hpayload b.payload.reloadsAs.wellFormed.1
  have hdecimals := Payload.decimals_eq_of_holds hkind hparts hparts'
  calc a = ⟨a.subtype, a.anomalyScore, a.payload⟩ := rfl
    _ = ⟨b.subtype, b.anomalyScore, b.payload⟩ := by
      rw [hsubtype, hscore, Payload.eq_of_mapDecimals_eq hrest hdecimals]

/-- The canonical text of content shows the signs of its zeros. -/
theorem canonical_unsigned_eq_iff {c : Content} (h : ∀ x ∈ c.anomalyScore, x.isFinite = true) :
    c.unsigned.canonical = c.canonical ↔ ¬ c.HasSignedZero := by
  have hunsigned : ∀ x ∈ c.unsigned.anomalyScore, x.isFinite = true := h
  rw [canonical_inj hunsigned h, unsigned_eq_self_iff]

end Content

end WitnessLedger
