import WitnessLedger.Ledger

/-! # Sessions

A ledger with a clock and a supply of suffixes for new ids.  An operation takes as many suffixes as
it makes ids, and reads the clock for each moment that it writes down; one that fails takes
neither, except where an id is made before the content is checked. -/

namespace WitnessLedger

/-- The suffixes of new ids. -/
abbrev Suffixes := Supply String

namespace Suffixes

/-- A number as twelve hexadecimal digits. -/
def numbered (n : Nat) : String :=
  let ds := Text.Quoted.hexDigits n
  String.ofList (List.replicate (12 - ds.length) '0' ++ ds)

/-- The suffixes of a list, and after them the numbers of those that are taken. -/
def listed (given : List String) : Suffixes := ⟨fun n => given[n]?.getD (numbered n), 0⟩

/-- Suffixes that depend on a seed: the first twelve digits of the digests of the seed and a
    number. -/
def seeded (seed : String) : Suffixes :=
  let digitsOf (n : Nat) := (Digest.ofText (seed ++ ":" ++ Text.Numeral.text n)).hexCharacters
  ⟨fun n => String.ofList ((digitsOf n).take 12), 0⟩

end Suffixes

/-- A ledger with its clock and its supply of suffixes. -/
structure Session where
  ledger : Ledger
  suffixes : Suffixes
  now : Clock

/-- How often an operation reads the clock and how many suffixes it takes. -/
structure Usage where
  readings : Nat
  suffixes : Nat

/-- What anchoring a statement takes.  The record of an alert has a reading of its own. -/
def Anchoring.usage : Anchoring → Usage
  | .proposed _ => ⟨1, 1⟩
  | .doubleSpend .. => ⟨2, 1⟩

namespace Session

/-- The session after some readings and some suffixes are taken. -/
def spend (s : Session) (u : Usage) : Session :=
  { s with suffixes := s.suffixes.take u.suffixes, now := s.now.take u.readings }

/-- Goes on with the ledger of an operation, which took what its result tells if it succeeded. -/
def commit {α : Type} (s : Session) (usage : α → Usage) :
    Except LedgerError (α × Ledger) → Except LedgerError α × Session
  | .ok (x, ledger) => (.ok x, { s.spend (usage x) with ledger })
  | .error e => (.error e, s)

/-- A new statement between two societies. -/
def newStatement (s : Session) (societyA societyB : String) :
    Except LedgerError Statement × Session :=
  ((Statement.between (s.suffixes.peek 0) societyA societyB).mapError .validation,
    s.spend ⟨0, 1⟩)

/-- Proposes content for a level. -/
def propose (s : Session) (kind : EntryKind) (content : Content) (level : Level) :
    Except LedgerError Entry × Session :=
  s.commit (fun _ => ⟨1, 1⟩)
    (s.ledger.propose (s.now.peek 0) (s.suffixes.peek 0) kind content level)

/-- Records a vote. -/
def submitVote (s : Session) (entry witness : String) (accept : Bool) (reason : Option String) :
    Except LedgerError Vote × Session :=
  s.commit (fun _ => ⟨1, 0⟩) (s.ledger.submitVote (s.now.peek 0) entry witness accept reason)

/-- Records a vote and accepts the entry if it then has a quorum. -/
def voteAndFinalize (s : Session) (entry witness : String) (accept : Bool) :
    Except LedgerError Bool × Session :=
  s.commit (fun _ => ⟨1, 0⟩) (s.ledger.voteAndFinalize (s.now.peek 0) entry witness accept)

/-- Accepts an entry if it has a quorum. -/
def finalize (s : Session) (entry : String) : Except LedgerError Bool × Session :=
  s.commit (fun _ => ⟨0, 0⟩) (s.ledger.finalize entry)

/-- Rejects an entry that cannot reach a quorum. -/
def reject (s : Session) (entry : String) : Except LedgerError Unit × Session :=
  s.commit (fun _ => ⟨0, 0⟩) ((s.ledger.reject entry).map fun ledger => ((), ledger))

/-- Seals the accepted entries, if there are any. -/
def sealBlock (s : Session) : Option Block × Session :=
  let (block, ledger) := s.ledger.sealBlock (s.now.peek 0)
  (block, { s.spend ⟨if block.isSome then 1 else 0, 0⟩ with ledger })

/-- Marks a transfer as settled. -/
def recordSettlement (s : Session) (transfer : String) : Session :=
  { s with ledger := s.ledger.recordSettlement transfer }

/-- Takes content into the tiers.  The step to a level above the compost has a reading of its
    own. -/
def ingest (s : Session) (kind : EntryKind) (content : Content) :
    Except LedgerError Entry × Session :=
  s.commit (fun e => ⟨if e.level = .compost then 1 else 2, 1⟩)
    (s.ledger.ingest s.now.readings (s.suffixes.peek 0) kind content)

/-- Proposes an entry of the stem to the chain. -/
def promoteToRoot (s : Session) (entry : String) : Except LedgerError (Option Entry) × Session :=
  s.commit (fun root => if root.isSome then ⟨2, 1⟩ else ⟨0, 0⟩)
    (s.ledger.promoteToRoot s.now.readings (s.suffixes.peek 0) entry)

/-- Forgets which kinds and subtypes have been seen. -/
def resetNovelty (s : Session) : Session := { s with ledger := s.ledger.resetNovelty }

/-- Anchors a statement.  A settled transfer is an error here, and the alert that it leads to is
    kept. -/
def anchor (s : Session) (statement : Statement) : Except LedgerError Entry × Session :=
  let (outcome, s) :=
    s.commit Anchoring.usage (s.ledger.anchor s.now.readings (s.suffixes.peek 0) statement)
  match outcome with
  | .ok (.proposed e) => (.ok e, s)
  | .ok (.doubleSpend transfer alert) => (.error (.doubleSpend transfer alert.id), s)
  | .error e => (.error e, s)

/-- Records the settlement of a sealed entry.  A record that is there already has its moment. -/
def finalizeSettlement (s : Session) (entry : String) :
    Except LedgerError (Option SettlementRecord) × Session :=
  let isRecorded := s.ledger.register.settlements.any (·.entryId == entry)
  s.commit (fun record => ⟨if record.isSome && !isRecorded then 1 else 0, 0⟩)
    (s.ledger.finalizeSettlement (s.now.peek 0) entry)

/-- Anchors a check of balances. -/
def anchorConservation (s : Session) (balances : SortedMap Decimal) (expected : Decimal) :
    Except LedgerError ConservationProof × Session :=
  s.commit (fun _ => ⟨2, 2⟩)
    (s.ledger.anchorConservation s.now.readings (s.suffixes.peek 0) (s.suffixes.peek 1) balances
      expected)

/-- Anchors a discharge.  Its id is made before its fields are checked. -/
def anchorDischarge (s : Session) (grantId : String) (discharged remaining : Decimal)
    (evidenceDigest : String) : Except LedgerError AdpProof × Session :=
  (s.spend ⟨0, 1⟩).commit (fun _ => ⟨2, 1⟩)
    (s.ledger.anchorDischarge s.now.readings (s.suffixes.peek 0) (s.suffixes.peek 1) grantId
      discharged remaining evidenceDigest)

/-- Notes on a settlement that the balances were checked. -/
def markConserved (s : Session) (settlement : String) : Except LedgerError Unit × Session :=
  s.commit (fun _ => ⟨0, 0⟩)
    ((s.ledger.markConserved settlement).map fun ledger => ((), ledger))

/-- Attaches a check of balances to a settlement. -/
def attachProof (s : Session) (settlement proofId : String) :
    Except LedgerError Bool × Session :=
  s.commit (fun _ => ⟨0, 0⟩) (s.ledger.attachProof settlement proofId)

end Session

end WitnessLedger
