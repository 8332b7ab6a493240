import WitnessLedger.Document.Basic
import WitnessLedger.Merkle.Tree

/-! # Documents of Merkle trees and proofs

A tree is read as it is given; its nodes need not belong to its leaves. -/

namespace WitnessLedger

open Document

namespace Merkle

/-- Reads a side. -/
def Side.ofName? : String → Option Side
  | "left" => some .left
  | "right" => some .right
  | _ => none

/-- Reads one level of a proof. -/
def Step.ofJson? (v : Json) : Option Step := do
  let f ← Fields.of? ["sibling", "side"] v
  return { sibling := ← f.get "sibling"
           side := ← ((f.part? "side").bind Json.name?).bind Side.ofName? }

end Merkle

instance : Document Merkle.Side where
  toJson s := .string s.name
  ofJson? v := v.name?.bind Merkle.Side.ofName?

instance : Document Merkle.Step where
  toJson s := .object [("sibling", toJson s.sibling), ("side", toJson s.side)]
  ofJson? := Merkle.Step.ofJson?

namespace Merkle

/-- Reads a proof. -/
def Proof.ofJson? (v : Json) : Option Proof := do
  let f ← Fields.of? ["leaf_index", "leaf_hash", "path", "root"] v
  return { leafIndex := ← f.get "leaf_index", leafHash := ← f.get "leaf_hash"
           path := ← f.get "path", root := ← f.get "root" }

/-- Reads a tree. -/
def Tree.ofJson? (v : Json) : Option Tree := do
  let f ← Fields.of? ["nodes", "leaf_count"] v
  return { nodes := ← f.get "nodes", leafCount := ← f.get "leaf_count" }

end Merkle

instance : Document Merkle.Proof where
  toJson p := .object [ ("leaf_index", toJson p.leafIndex), ("leaf_hash", toJson p.leafHash),
    ("path", toJson p.path), ("root", toJson p.root)]
  ofJson? := Merkle.Proof.ofJson?

instance : Document Merkle.Tree where
  toJson t := .object [("nodes", toJson t.nodes), ("leaf_count", toJson t.leafCount)]
  ofJson? := Merkle.Tree.ofJson?

end WitnessLedger
