import WitnessLedger.Entry.Level
import WitnessLedger.Entry.Vote
import WitnessLedger.Content.Hash
import WitnessLedger.Merkle.Proof

/-! # Entries

An entry holds its content with the hash of it, a link to the entry proposed before it, and
what has happened to it since: votes, phase, and its place in a block. -/

namespace WitnessLedger

/-- An entry of the chain or of one of the lower levels. -/
structure Entry where
  id : String
  kind : EntryKind
  level : Level
  timestamp : Instant
  prevHash : Digest
  content : Content
  contentHash : Digest
  votes : List Vote
  proof : Option Merkle.Proof
  blockHeight : Option Nat
  phase : Phase
  cost : Nat
  deriving DecidableEq

namespace Entry

/-- A new entry without votes, with the hash of its content and the cost of its level. -/
def new (id : String) (kind : EntryKind) (level : Level) (content : Content) (prevHash : Digest)
    (now : Instant) : Entry :=
  { id, kind, level, timestamp := now, prevHash, content, contentHash := content.hash, votes := []
    proof := none, blockHeight := none, phase := .proposed, cost := level.cost }

/-- The number of votes that accept. -/
def accepts (e : Entry) : Nat := e.votes.countP (·.accept)

/-- The number of votes that reject. -/
def rejects (e : Entry) : Nat := e.votes.countP (!·.accept)

/-- Whether a witness has voted. -/
def hasVoteFrom (e : Entry) (witness : String) : Bool := e.votes.any (·.witness == witness)

/-- The number of accepting votes that an entry needs. -/
def requiredWitnesses (e : Entry) : Nat := e.kind.requiredWitnesses

/-- The entry in a phase, if the phase may follow its own. -/
def advance? (e : Entry) (next : Phase) : Option Entry :=
  if e.phase.canAdvanceTo next then some { e with phase := next } else none

/-- The entry in a phase if the phase may follow its own, and otherwise as it is. -/
def advanced (e : Entry) (next : Phase) : Entry := (e.advance? next).getD e

/-- The entry with one more vote; the vote on it is then open. -/
def withVote (e : Entry) (v : Vote) : Entry :=
  { e with votes := e.votes ++ [v] }.advanced .voting

/-- Whether the content still has the stored hash. -/
def contentIntact (e : Entry) : Bool := e.content.hash == e.contentHash

/-- The signatures of the accepting votes, by witness. -/
def acceptSignatures (e : Entry) : List (String × Digest) :=
  (e.votes.filter (·.accept)).map fun v => (v.witness, v.signature)

end Entry

end WitnessLedger
