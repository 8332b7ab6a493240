import WitnessLedger.Document.Basic
import WitnessLedger.Content.Basic

/-! # Documents of content

The document of a payload names its kind next to its fields.  As an array it begins with the
name of its kind. -/

namespace WitnessLedger

open Document

instance : Document EntryKind where
  toJson k := .string k.name
  ofJson? v := v.name?.bind EntryKind.ofName?

namespace Statement

/-- The members of a statement. -/
def members (s : Statement) : List (String × Json) :=
  [ ("statement_id", toJson s.statementId), ("society_a", toJson s.societyA),
    ("society_b", toJson s.societyB), ("a_balance", toJson s.balanceA),
    ("b_balance", toJson s.balanceB), ("net_position", toJson s.netPosition),
    ("transfers_reconciled", toJson s.transfersReconciled),
    ("transfer_ids", toJson s.transferIds)]

/-- Reads a statement. -/
def ofJson? (v : Json) : Option Statement := do
  let f ← Fields.of? ["statement_id", "society_a", "society_b", "a_balance", "b_balance",
    "net_position", "transfers_reconciled", "transfer_ids"] v
  return { statementId := ← f.get "statement_id", societyA := ← f.get "society_a"
           societyB := ← f.get "society_b", balanceA := ← f.get "a_balance"
           balanceB := ← f.get "b_balance", netPosition := ← f.get "net_position"
           transfersReconciled := ← f.get "transfers_reconciled"
           transferIds := ← f.get "transfer_ids" }

end Statement

instance : Document Statement where
  toJson s := .object s.members
  ofJson? := Statement.ofJson?

namespace Discharge

/-- The members of a discharge. -/
def members (d : Discharge) : List (String × Json) :=
  [ ("adp_id", toJson d.adpId), ("grant_id", toJson d.grantId),
    ("discharged", toJson d.discharged), ("remaining", toJson d.remaining),
    ("evidence_digest", toJson d.evidenceDigest)]

/-- Reads a discharge. -/
def ofJson? (v : Json) : Option Discharge := do
  let f ← Fields.of? ["adp_id", "grant_id", "discharged", "remaining", "evidence_digest"] v
  return { adpId := ← f.get "adp_id", grantId := ← f.get "grant_id"
           discharged := ← f.get "discharged", remaining := ← f.get "remaining"
           evidenceDigest := ← f.get "evidence_digest" }

end Discharge

namespace Conservation

/-- The members of a check of balances. -/
def members (c : Conservation) : List (String × Json) :=
  [ ("proof_id", toJson c.proofId), ("total_atp", toJson c.totalAtp),
    ("expected_total", toJson c.expectedTotal), ("drift", toJson c.drift),
    ("conserved", toJson c.conserved), ("society_count", toJson c.societyCount)]

/-- Reads a check of balances. -/
def ofJson? (v : Json) : Option Conservation := do
  let f ← Fields.of? ["proof_id", "total_atp", "expected_total", "drift", "conserved",
    "society_count"] v
  return { proofId := ← f.get "proof_id", totalAtp := ← f.get "total_atp"
           expectedTotal := ← f.get "expected_total", drift := ← f.get "drift"
           conserved := ← f.get "conserved", societyCount := ← f.get "society_count" }

end Conservation

namespace Registration

/-- The members of a registration. -/
def members (r : Registration) : List (String × Json) :=
  [("entity_id", toJson r.entityId), ("society_id", toJson r.societyId)]

/-- Reads a registration. -/
def ofJson? (v : Json) : Option Registration := do
  let f ← Fields.of? ["entity_id", "society_id"] v
  return { entityId := ← f.get "entity_id", societyId := ← f.get "society_id" }

end Registration

namespace Amendment

/-- The members of an amendment. -/
def members (a : Amendment) : List (String × Json) :=
  [ ("society_id", toJson a.societyId), ("amendment", toJson a.amendment),
    ("new_value", toJson a.newValue)]

/-- Reads an amendment. -/
def ofJson? (v : Json) : Option Amendment := do
  let f ← Fields.of? ["society_id", "amendment", "new_value"] v
  return { societyId := ← f.get "society_id", amendment := ← f.get "amendment"
           newValue := ← f.get "new_value" }

end Amendment

namespace Credential

/-- The members of a credential. -/
def members (c : Credential) : List (String × Json) :=
  [ ("entity_id", toJson c.entityId), ("issuer_id", toJson c.issuerId),
    ("credential_type", toJson c.credentialType)]

/-- Reads a credential. -/
def ofJson? (v : Json) : Option Credential := do
  let f ← Fields.of? ["entity_id", "issuer_id", "credential_type"] v
  return { entityId := ← f.get "entity_id", issuerId := ← f.get "issuer_id"
           credentialType := ← f.get "credential_type" }

end Credential

namespace AuditSeal

/-- The members of the close of an audit. -/
def members (a : AuditSeal) : List (String × Json) :=
  [ ("scope", toJson a.scope), ("sealed_digest", toJson a.sealedDigest),
    ("entity_id", toJson a.entityId)]

/-- Reads the close of an audit. -/
def ofJson? (v : Json) : Option AuditSeal := do
  let f ← Fields.of? ["scope", "sealed_digest", "entity_id"] v
  return { scope := ← f.get "scope", sealedDigest := ← f.get "sealed_digest"
           entityId := ← f.optional "entity_id" }

end AuditSeal

namespace Transfer

/-- The members of a transfer. -/
def members (t : Transfer) : List (String × Json) :=
  [ ("transfer_id", toJson t.transferId), ("source_society", toJson t.sourceSociety),
    ("target_society", toJson t.targetSociety), ("amount", toJson t.amount),
    ("reason", toJson t.reason)]

/-- Reads a transfer. -/
def ofJson? (v : Json) : Option Transfer := do
  let f ← Fields.of? ["transfer_id", "source_society", "target_society", "amount", "reason"] v
  return { transferId := ← f.get "transfer_id", sourceSociety := ← f.get "source_society"
           targetSociety := ← f.get "target_society", amount := ← f.get "amount"
           reason := ← f.optional "reason" }

end Transfer

instance : Document Transfer where
  toJson t := .object t.members
  ofJson? := Transfer.ofJson?

namespace Respent

/-- The members of a notice of a transfer that was to be settled again. -/
def members (r : Respent) : List (String × Json) :=
  [ ("transfer_id", toJson r.transferId), ("statement_id", toJson r.statementId),
    ("society_a", toJson r.societyA), ("society_b", toJson r.societyB)]

/-- Reads a notice of a transfer that was to be settled again. -/
def ofJson? (v : Json) : Option Respent := do
  let f ← Fields.of? ["transfer_id", "statement_id", "society_a", "society_b"] v
  return { transferId := ← f.get "transfer_id", statementId := ← f.get "statement_id"
           societyA := ← f.get "society_a", societyB := ← f.get "society_b" }

end Respent

namespace Payload

/-- The name of the member that tells the kind of a payload. -/
def tagName : String := "entry_type"

/-- The members of a payload besides its kind. -/
def members : Payload → List (String × Json)
  | bilateralSettlement s => s.members
  | adpDischarge d => d.members
  | conservationProof c => c.members
  | lctRegistration r => r.members
  | charterAmendment a => a.members
  | credentialIssuance c => c.members
  | auditSeal a => a.members
  | transferCommit t => t.members
  | transferComplete t => t.members
  | doubleSpendAlert r => r.members

/-- Reads the fields of a payload of a kind. -/
def ofKind? (v : Json) : EntryKind → Option Payload
  | .bilateralSettlement => (Statement.ofJson? v).map bilateralSettlement
  | .adpDischarge => (Discharge.ofJson? v).map adpDischarge
  | .conservationProof => (Conservation.ofJson? v).map conservationProof
  | .lctRegistration => (Registration.ofJson? v).map lctRegistration
  | .charterAmendment => (Amendment.ofJson? v).map charterAmendment
  | .credentialIssuance => (Credential.ofJson? v).map credentialIssuance
  | .auditSeal => (AuditSeal.ofJson? v).map auditSeal
  | .transferCommit => (Transfer.ofJson? v).map transferCommit
  | .transferComplete => (Transfer.ofJson? v).map transferComplete
  | .doubleSpendAlert => (Respent.ofJson? v).map doubleSpendAlert

/-- Reads a payload, its kind first. -/
def ofJson? : Json → Option Payload
  | .object members =>
    match SortedMap.find? tagName members with
    | some (.string name) => (EntryKind.ofName? name).bind (ofKind? (.object members))
    | _ => none
  | .array (.string name :: elements) => (EntryKind.ofName? name).bind (ofKind? (.array elements))
  | _ => none

end Payload

instance : Document Payload where
  toJson p := .object ((Payload.tagName, .string p.kind.name) :: p.members)
  ofJson? := Payload.ofJson?

namespace Content

/-- Reads content; it is not validated. -/
def ofJson? (v : Json) : Option Content := do
  let f ← Fields.of? ["subtype", "anomaly_score", "payload"] v
  return { subtype := ← f.optional "subtype", anomalyScore := ← f.optional "anomaly_score"
           payload := ← f.get "payload" }

end Content

instance : Document Content where
  toJson c := .object [ ("subtype", toJson c.subtype), ("anomaly_score", toJson c.anomalyScore),
    ("payload", toJson c.payload)]
  ofJson? := Content.ofJson?

end WitnessLedger
