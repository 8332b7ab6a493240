import WitnessLedger.Content.Statement

/-! # Payloads

Each kind of entry has a payload of its own, with the fields that it needs. -/

namespace WitnessLedger

/-- A discharge of ATP against a grant. -/
structure Discharge where
  adpId : String
  grantId : String
  discharged : Decimal
  remaining : Decimal
  evidenceDigest : String
  deriving DecidableEq

/-- A check that the balances add up to the expected total. -/
structure Conservation where
  proofId : String
  totalAtp : Decimal
  expectedTotal : Decimal
  drift : Decimal
  conserved : Bool
  societyCount : UInt64
  deriving DecidableEq

/-- An entity that joins a society. -/
structure Registration where
  entityId : String
  societyId : String
  deriving DecidableEq

/-- A change of a society's charter. -/
structure Amendment where
  societyId : String
  amendment : String
  newValue : String
  deriving DecidableEq

/-- A credential that an issuer gives to an entity. -/
structure Credential where
  entityId : String
  issuerId : String
  credentialType : String
  deriving DecidableEq

/-- A digest that closes an audit. -/
structure AuditSeal where
  scope : String
  sealedDigest : String
  entityId : Option String
  deriving DecidableEq

/-- A transfer between societies. -/
structure Transfer where
  transferId : String
  sourceSociety : String
  targetSociety : String
  amount : Decimal
  reason : Option String
  deriving DecidableEq

/-- A transfer that a statement tried to settle again. -/
structure Respent where
  transferId : String
  statementId : String
  societyA : String
  societyB : String
  deriving DecidableEq

/-- What an entry says, by its kind. -/
inductive Payload where
  | bilateralSettlement (statement : Statement)
  | adpDischarge (discharge : Discharge)
  | conservationProof (conservation : Conservation)
  | lctRegistration (registration : Registration)
  | charterAmendment (amendment : Amendment)
  | credentialIssuance (credential : Credential)
  | auditSeal (auditSeal : AuditSeal)
  | transferCommit (transfer : Transfer)
  | transferComplete (transfer : Transfer)
  | doubleSpendAlert (respent : Respent)
  deriving DecidableEq

namespace Payload

/-- The kind that a payload belongs to. -/
def kind : Payload → EntryKind
  | bilateralSettlement _ => .bilateralSettlement
  | adpDischarge _ => .adpDischarge
  | conservationProof _ => .conservationProof
  | lctRegistration _ => .lctRegistration
  | charterAmendment _ => .charterAmendment
  | credentialIssuance _ => .credentialIssuance
  | auditSeal _ => .auditSeal
  | transferCommit _ => .transferCommit
  | transferComplete _ => .transferComplete
  | doubleSpendAlert _ => .doubleSpendAlert

/-- The societies and entities that a payload refers to. -/
def references : Payload → List String
  | bilateralSettlement s => [s.societyA, s.societyB]
  | doubleSpendAlert r => [r.societyA, r.societyB]
  | transferCommit t | transferComplete t => [t.sourceSociety, t.targetSociety]
  | lctRegistration r => [r.entityId]
  | credentialIssuance c => [c.entityId]
  | auditSeal a => a.entityId.toList
  | adpDischarge _ | conservationProof _ | charterAmendment _ => []

/-- Refuses a payload with a blank field that must be there; the first such field is
    reported. -/
def validate : Payload → Except Invalid Unit
  | bilateralSettlement s => s.validate
  | adpDischarge d => do
    requireNonBlank "adp_id" d.adpId
    requireNonBlank "grant_id" d.grantId
    requireNonBlank "evidence_digest" d.evidenceDigest
  | conservationProof c => do
    requireNonBlank "proof_id" c.proofId
    if c.drift.isNegative then throw .negativeDrift
  | lctRegistration r => do
    requireNonBlank "entity_id" r.entityId
    requireNonBlank "society_id" r.societyId
  | charterAmendment a => do
    requireNonBlank "society_id" a.societyId
    requireNonBlank "amendment" a.amendment
  | credentialIssuance c => do
    requireNonBlank "entity_id" c.entityId
    requireNonBlank "issuer_id" c.issuerId
    requireNonBlank "credential_type" c.credentialType
  | auditSeal a => do
    requireNonBlank "scope" a.scope
    requireNonBlank "sealed_digest" a.sealedDigest
  | transferCommit t | transferComplete t => do
    requireNonBlank "transfer_id" t.transferId
    requireNonBlank "source_society" t.sourceSociety
    requireNonBlank "target_society" t.targetSociety
  | doubleSpendAlert r => requireNonBlank "transfer_id" r.transferId

end Payload

end WitnessLedger
