/-! # Kinds of entries

What an entry is about fixes how many witnesses have to accept it and whether it has
consequences beyond the ledger.  Every kind has a name of its own (`ofName?_name`). -/

namespace WitnessLedger

/-- What an entry is about. -/
inductive EntryKind where
  | bilateralSettlement
  | adpDischarge
  | conservationProof
  | lctRegistration
  | charterAmendment
  | credentialIssuance
  | auditSeal
  | transferCommit
  | transferComplete
  | doubleSpendAlert
  deriving DecidableEq, Inhabited

namespace EntryKind

/-- All kinds, in the order in which they are listed. -/
def all : List EntryKind :=
  [ bilateralSettlement, adpDischarge, conservationProof, lctRegistration, charterAmendment,
    credentialIssuance, auditSeal, transferCommit, transferComplete, doubleSpendAlert]

/-- The name of a kind. -/
def name : EntryKind → String
  | bilateralSettlement => "bilateral_settlement"
  | adpDischarge => "adp_discharge"
  | conservationProof => "conservation_proof"
  | lctRegistration => "lct_registration"
  | charterAmendment => "charter_amendment"
  | credentialIssuance => "credential_issuance"
  | auditSeal => "audit_seal"
  | transferCommit => "transfer_commit"
  | transferComplete => "transfer_complete"
  | doubleSpendAlert => "double_spend_alert"

/-- The kind with a given name. -/
def ofName? (s : String) : Option EntryKind := all.find? fun k => k.name == s

/-- The number of accepting witnesses that an entry of a kind needs. -/
def requiredWitnesses : EntryKind → Nat
  | bilateralSettlement => 3
  | adpDischarge => 2
  | conservationProof => 3
  | lctRegistration => 3
  | charterAmendment => 5
  | credentialIssuance => 2
  | auditSeal => 3
  | transferCommit => 2
  | transferComplete => 2
  | doubleSpendAlert => 1

/-- Whether an entry of a kind has consequences beyond the ledger. -/
def isConsequential : EntryKind → Bool
  | bilateralSettlement | doubleSpendAlert | conservationProof | charterAmendment => true
  | _ => false

theorem ofName?_name (k : EntryKind) : ofName? k.name = some k := by cases k <;> rfl

theorem requiredWitnesses_pos (k : EntryKind) : 0 < k.requiredWitnesses := by cases k <;> decide

end EntryKind

end WitnessLedger
