import WitnessLedger.Digest.Sha256

/-! # Tagged digests

What is hashed for one purpose is kept apart from what is hashed for another by a tag and a
zero byte in front.  Two digests are combined without a tag, which is how the inner nodes of a
Merkle tree are made. -/

namespace WitnessLedger.Digest

/-- The tag of entry contents. -/
def contentTag : String := "act:content:v1"

/-- The tag of block headers. -/
def blockTag : String := "act:block:v1"

/-- The tag of the constants of Merkle trees. -/
def merkleTag : String := "act:merkle:v1"

/-- The bytes that stand for data under a tag. -/
def taggedBytes (tag : String) (data : List UInt8) : List UInt8 := Text.bytes tag ++ 0 :: data

/-- The digest of data under a tag. -/
def tagged (tag : String) (data : List UInt8) : Digest := sha256 (taggedBytes tag data)

/-- The digest of two digests side by side. -/
def combine (left right : Digest) : Digest := sha256 (left.bytes ++ right.bytes)

end WitnessLedger.Digest
