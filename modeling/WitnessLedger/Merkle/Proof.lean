import WitnessLedger.Digest.Tagged

/-! # Inclusion proofs

A proof leads from a leaf to a root: at each level it holds the sibling and the side on which
the sibling stands.  Combining them in turn gives the root that the proof computes, and the
proof is right when that is the root it names. -/

namespace WitnessLedger.Merkle

/-- The side on which a sibling stands. -/
inductive Side where
  | left
  | right
  deriving DecidableEq

/-- One level of a proof. -/
structure Step where
  sibling : Digest
  side : Side
  deriving DecidableEq

/-- A proof that a leaf stands at a place under a root. -/
structure Proof where
  leafIndex : Nat
  leafHash : Digest
  path : List Step
  root : Digest
  deriving DecidableEq

/-- The name of a side. -/
def Side.name : Side → String
  | .left => "left"
  | .right => "right"

/-- Combines a digest with the sibling of a level. -/
def Step.combine (current : Digest) (s : Step) : Digest :=
  match s.side with
  | .left => Digest.combine s.sibling current
  | .right => Digest.combine current s.sibling

/-- The digest that a path leads to from a leaf. -/
def foldPath (leaf : Digest) (path : List Step) : Digest := path.foldl Step.combine leaf

namespace Proof

/-- The root that a proof leads to. -/
def computedRoot (p : Proof) : Digest := foldPath p.leafHash p.path

/-- Whether a proof leads to the root it names. -/
def verify (p : Proof) : Bool := p.computedRoot == p.root

/-- Whether a proof names a given root and leads to it. -/
def verifyAgainst (p : Proof) (root : Digest) : Bool := p.root == root && p.verify

end Proof

end WitnessLedger.Merkle
