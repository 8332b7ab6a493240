import WitnessLedger.Digest.Basic

/-! # SHA-256

The message is padded to whole blocks of 64 bytes, and each block is folded into a state of
eight words.  A block supplies sixteen words; the other forty-eight of its rounds follow from
a recurrence over the sixteen words before them. -/

namespace WitnessLedger.Digest.Sha256

/-- The eight words that the blocks are folded into. -/
structure State where
  a : UInt32
  b : UInt32
  c : UInt32
  d : UInt32
  e : UInt32
  f : UInt32
  g : UInt32
  h : UInt32

/-- The state before the first block. -/
def start : State :=
  ⟨0x6a09e667, 0xbb67ae85, 0x3c6ef372, 0xa54ff53a, 0x510e527f, 0x9b05688c, 0x1f83d9ab, 0x5be0cd19⟩

/-- The constants of the sixty-four rounds. -/
def constants : List UInt32 :=
  [ 0x428a2f98, 0x71374491, 0xb5c0fbcf, 0xe9b5dba5, 0x3956c25b, 0x59f111f1, 0x923f82a4, 0xab1c5ed5,
    0xd807aa98, 0x12835b01, 0x243185be, 0x550c7dc3, 0x72be5d74, 0x80deb1fe, 0x9bdc06a7, 0xc19bf174,
    0xe49b69c1, 0xefbe4786, 0x0fc19dc6, 0x240ca1cc, 0x2de92c6f, 0x4a7484aa, 0x5cb0a9dc, 0x76f988da,
    0x983e5152, 0xa831c66d, 0xb00327c8, 0xbf597fc7, 0xc6e00bf3, 0xd5a79147, 0x06ca6351, 0x14292967,
    0x27b70a85, 0x2e1b2138, 0x4d2c6dfc, 0x53380d13, 0x650a7354, 0x766a0abb, 0x81c2c92e, 0x92722c85,
    0xa2bfe8a1, 0xa81a664b, 0xc24b8b70, 0xc76c51a3, 0xd192e819, 0xd6990624, 0xf40e3585, 0x106aa070,
    0x19a4c116, 0x1e376c08, 0x2748774c, 0x34b0bcb5, 0x391c0cb3, 0x4ed8aa4a, 0x5b9cca4f, 0x682e6ff3,
    0x748f82ee, 0x78a5636f, 0x84c87814, 0x8cc70208, 0x90befffa, 0xa4506ceb, 0xbef9a3f7, 0xc67178f2]

/-- Rotates a word to the right. -/
def rotate (x n : UInt32) : UInt32 := (x >>> n) ||| (x <<< (32 - n))

/-- The mixing function of the recurrence for the word fifteen places back. -/
def smallSigma0 (x : UInt32) : UInt32 := rotate x 7 ^^^ rotate x 18 ^^^ (x >>> 3)

/-- The mixing function of the recurrence for the word two places back. -/
def smallSigma1 (x : UInt32) : UInt32 := rotate x 17 ^^^ rotate x 19 ^^^ (x >>> 10)

/-- The mixing function of a round for the first word. -/
def bigSigma0 (x : UInt32) : UInt32 := rotate x 2 ^^^ rotate x 13 ^^^ rotate x 22

/-- The mixing function of a round for the fifth word. -/
def bigSigma1 (x : UInt32) : UInt32 := rotate x 6 ^^^ rotate x 11 ^^^ rotate x 25

/-- Continues the words of a block, the latest first, by a number of words. -/
def extend : Nat → List UInt32 → List UInt32
  | n + 1, w1 :: w2 :: w3 :: w4 :: w5 :: w6 :: w7 :: w8 :: w9 :: w10 :: w11 :: w12 :: w13 :: w14
      :: w15 :: w16 :: rest =>
    extend n ((smallSigma1 w2 + w7 + smallSigma0 w15 + w16) :: w1 :: w2 :: w3 :: w4 :: w5 :: w6
      :: w7 :: w8 :: w9 :: w10 :: w11 :: w12 :: w13 :: w14 :: w15 :: w16 :: rest)
  | _, words => words

/-- The words of a block of bytes, the most significant byte first. -/
def words : List UInt8 → List UInt32
  | p :: q :: r :: s :: rest =>
    ((p.toUInt32 <<< 24) ||| (q.toUInt32 <<< 16) ||| (r.toUInt32 <<< 8) ||| s.toUInt32)
      :: words rest
  | _ => []

/-- One round with its constant and its word. -/
def round (s : State) (k w : UInt32) : State :=
  let choice := (s.e &&& s.f) ^^^ (~~~s.e &&& s.g)
  let majority := (s.a &&& s.b) ^^^ (s.a &&& s.c) ^^^ (s.b &&& s.c)
  let t1 := s.h + bigSigma1 s.e + choice + k + w
  let t2 := bigSigma0 s.a + majority
  ⟨t1 + t2, s.a, s.b, s.c, s.d + t1, s.e, s.f, s.g⟩

/-- The rounds in order. -/
def rounds (s : State) : List UInt32 → List UInt32 → State
  | k :: ks, w :: ws => rounds (round s k w) ks ws
  | _, _ => s

/-- Folds a block into the state. -/
def absorb (s : State) (block : List UInt8) : State :=
  let t := rounds s constants (extend 48 (words block).reverse).reverse
  ⟨s.a + t.a, s.b + t.b, s.c + t.c, s.d + t.d, s.e + t.e, s.f + t.f, s.g + t.g, s.h + t.h⟩

/-- The bytes of a word, the most significant first. -/
def wordBytes (w : UInt32) : List UInt8 :=
  [(w >>> 24).toUInt8, (w >>> 16).toUInt8, (w >>> 8).toUInt8, w.toUInt8]

/-- What follows a message of a length: one set bit, zeros up to the last eight bytes of a
    block, and the length in bits. -/
def padding (length : Nat) : List UInt8 :=
  let bits := UInt64.ofNat (8 * length)
  (0x80 : UInt8) :: List.replicate ((119 - length % 64) % 64) 0
    ++ wordBytes (bits >>> 32).toUInt32 ++ wordBytes bits.toUInt32

/-- Folds the blocks of a padded message, `count` of them. -/
def absorbBlocks (s : State) (message : List UInt8) : Nat → State
  | 0 => s
  | count + 1 => absorbBlocks (absorb s (message.take 64)) (message.drop 64) count

/-- The state after all blocks of a message. -/
def run (message : List UInt8) : State :=
  let padded := message ++ padding message.length
  absorbBlocks start padded (padded.length / 64)

/-- The bytes of a state. -/
def State.bytes (s : State) : List UInt8 :=
  wordBytes s.a ++ wordBytes s.b ++ wordBytes s.c ++ wordBytes s.d
    ++ wordBytes s.e ++ wordBytes s.f ++ wordBytes s.g ++ wordBytes s.h

end Sha256

/-- The SHA-256 digest of a message. -/
def sha256 (message : List UInt8) : Digest := ⟨(Sha256.run message).bytes, rfl⟩

/-- The SHA-256 digest of the bytes of a text. -/
def ofText (s : String) : Digest := sha256 (Text.bytes s)

end WitnessLedger.Digest
