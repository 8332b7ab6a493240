import WitnessLedger.Document.Content
import WitnessLedger.Document.Merkle
import WitnessLedger.Block

/-! # Documents of votes, entries and blocks

A chain is kept as the documents of its blocks. -/

namespace WitnessLedger

open Document

instance : Document Level where
  toJson l := .string l.name
  ofJson? v := v.name?.bind Level.ofName?

instance : Document Phase where
  toJson p := .string p.name
  ofJson? v := v.name?.bind Phase.ofName?

/-- Reads a vote. -/
def Vote.ofJson? (v : Json) : Option Vote := do
  let f ← Fields.of? ["witness_id", "entry_id", "accept", "signature", "reason", "timestamp"] v
  return { witness := ← f.get "witness_id", entry := ← f.get "entry_id"
           accept := ← f.get "accept", signature := ← f.get "signature"
           reason := ← f.optional "reason", timestamp := ← f.get "timestamp" }

instance : Document Vote where
  toJson v := .object [ ("witness_id", toJson v.witness), ("entry_id", toJson v.entry),
    ("accept", toJson v.accept), ("signature", toJson v.signature), ("reason", toJson v.reason),
    ("timestamp", toJson v.timestamp)]
  ofJson? := Vote.ofJson?

/-- Reads an entry; it is not checked. -/
def Entry.ofJson? (v : Json) : Option Entry := do
  let f ← Fields.of? ["entry_id", "entry_type", "chain_level", "timestamp", "prev_hash", "content",
    "content_hash", "votes", "merkle_proof", "block_height", "consensus_state", "atp_cost"] v
  return { id := ← f.get "entry_id", kind := ← f.get "entry_type", level := ← f.get "chain_level"
           timestamp := ← f.get "timestamp", prevHash := ← f.get "prev_hash"
           content := ← f.get "content", contentHash := ← f.get "content_hash"
           votes := ← f.get "votes", proof := ← f.optional "merkle_proof"
           blockHeight := ← f.optional "block_height", phase := ← f.get "consensus_state"
           cost := ← f.get "atp_cost" }

instance : Document Entry where
  toJson e := .object [ ("entry_id", toJson e.id), ("entry_type", toJson e.kind),
    ("chain_level", toJson e.level), ("timestamp", toJson e.timestamp),
    ("prev_hash", toJson e.prevHash), ("content", toJson e.content),
    ("content_hash", toJson e.contentHash), ("votes", toJson e.votes),
    ("merkle_proof", toJson e.proof), ("block_height", toJson e.blockHeight),
    ("consensus_state", toJson e.phase), ("atp_cost", toJson e.cost)]
  ofJson? := Entry.ofJson?

/-- Reads a block; it is not checked. -/
def Block.ofJson? (v : Json) : Option Block := do
  let f ← Fields.of? ["height", "timestamp", "entries", "prev_block_hash", "merkle_root",
    "consensus_signatures", "total_atp_cost"] v
  return { height := ← f.get "height", timestamp := ← f.get "timestamp"
           entries := ← f.get "entries", prevHash := ← f.get "prev_block_hash"
           merkleRoot := ← f.get "merkle_root", signatures := ← f.get "consensus_signatures"
           totalCost := ← f.get "total_atp_cost" }

instance : Document Block where
  toJson b := .object [ ("height", toJson b.height), ("timestamp", toJson b.timestamp),
    ("entries", toJson b.entries), ("prev_block_hash", toJson b.prevHash),
    ("merkle_root", toJson b.merkleRoot), ("consensus_signatures", toJson b.signatures),
    ("total_atp_cost", toJson b.totalCost)]
  ofJson? := Block.ofJson?

end WitnessLedger
