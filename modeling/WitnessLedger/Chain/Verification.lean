import WitnessLedger.Chain.Basic
import WitnessLedger.Number.Total

/-! # Verification

Reports on single entries and on the whole chain.  A report never fails; `ensureValid` turns a
bad one into an error. -/

namespace WitnessLedger

/-- Why an entry is not verified. -/
inductive VerificationFailure where
  | entryNotFound
  | notFinalized
  | merkleInvalid
  | insufficientWitnesses
  deriving DecidableEq, Inhabited

namespace VerificationFailure

/-- All failures. -/
def all : List VerificationFailure :=
  [entryNotFound, notFinalized, merkleInvalid, insufficientWitnesses]

/-- The name of a failure. -/
def name : VerificationFailure → String
  | entryNotFound => "entry_not_found"
  | notFinalized => "not_finalized"
  | merkleInvalid => "merkle_invalid"
  | insufficientWitnesses => "insufficient_witnesses"

/-- The failure with a given name. -/
def ofName? (s : String) : Option VerificationFailure := all.find? fun f => f.name == s

end VerificationFailure

/-- A report on an entry. -/
structure EntryVerification where
  entryId : String
  verified : Bool
  reason : Option VerificationFailure
  state : Option Phase
  blockHeight : Option Nat
  /-- Whether the proof leads from the content hash to the root of the block. -/
  merkleValid : Bool
  /-- Whether the content still has the stored hash. -/
  contentHashValid : Bool
  witnesses : Nat
  requiredWitnesses : Nat
  contentHash : Option Digest
  deriving DecidableEq

/-- A report on a chain. -/
structure ChainProof where
  /-- Whether every block links to the one before it. -/
  valid : Bool
  blocks : Nat
  entries : Nat
  latestHash : Digest
  totalCost : Nat
  /-- The height of the first block that does not. -/
  brokenAt : Option Nat
  /-- Whether every block has the root of its entries. -/
  merkleRootsValid : Bool
  deriving DecidableEq

/-- The report on an entry that is not known. -/
def EntryVerification.unknown (id : String) : EntryVerification :=
  { entryId := id, verified := false, reason := some .entryNotFound, state := none
    blockHeight := none, merkleValid := false, contentHashValid := false, witnesses := 0
    requiredWitnesses := 0, contentHash := none }

/-- Turns the report on a damaged chain into an error. -/
def ChainProof.ensureValid (p : ChainProof) : Except LedgerError Unit := do
  match p.brokenAt with
  | some height => throw (.integrityViolation (.brokenAt height))
  | none =>
    if !p.valid then throw (.integrityViolation .broken)
    if !p.merkleRootsValid then throw (.integrityViolation .wrongRoot)

namespace Chain

/-- Whether the proof of an entry leads from its content hash to the root of its block. -/
def isIncluded (c : Chain) (e : Entry) : Bool :=
  match e.proof, e.blockHeight.bind c.block? with
  | some proof, some block =>
    proof.leafHash == e.contentHash && proof.verifyAgainst block.merkleRoot
  | _, _ => false

/-- Why an entry is not verified, if it is not. -/
def failure? (c : Chain) (e : Entry) : Option VerificationFailure :=
  if e.phase != .finalized then some .notFinalized
  else if !c.isIncluded e then some .merkleInvalid
  else if e.accepts < e.requiredWitnesses then some .insufficientWitnesses
  else none

/-- The report on an entry. -/
def verifyEntry (c : Chain) (id : String) : EntryVerification :=
  match c.entry? id with
  | none => .unknown id
  | some e =>
    { entryId := id, verified := (c.failure? e).isNone, reason := c.failure? e, state := e.phase
      blockHeight := e.blockHeight, merkleValid := e.phase == .finalized && c.isIncluded e
      contentHashValid := e.contentIntact, witnesses := e.accepts
      requiredWitnesses := e.requiredWitnesses, contentHash := e.contentHash }

/-- The height of the first of some blocks that does not link to the digest before it. -/
def firstBroken? (height : Nat) (before : Digest) : List Block → Option Nat
  | [] => none
  | b :: rest => if b.prevHash = before then firstBroken? (height + 1) b.hash rest else some height

/-- The report on the chain. -/
def proof (c : Chain) : ChainProof :=
  let brokenAt := firstBroken? 0 genesis c.blocks
  { valid := brokenAt.isNone, blocks := c.blocks.length
    entries := Number.total (·.entries.length) c.blocks, latestHash := c.latestBlockHash
    totalCost := Number.total (·.totalCost) c.blocks, brokenAt
    merkleRootsValid := c.blocks.all fun b => b.recomputedRoot == b.merkleRoot }

end Chain

end WitnessLedger
