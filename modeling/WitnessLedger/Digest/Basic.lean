import WitnessLedger.Text.Hex
import WitnessLedger.Text.Bytes
import WitnessLedger.Text.Numeral
import WitnessLedger.Text.Quoted

/-! # Digests

A digest is 32 bytes, written as 64 lowercase hexadecimal digits. -/

namespace WitnessLedger

/-- A digest of 32 bytes. -/
structure Digest where
  bytes : List UInt8
  length_eq : bytes.length = 32
  deriving DecidableEq

/-- Why a text is not the hexadecimal form of a digest. -/
inductive DigestFault where
  | wrongLength (actual : Nat)
  | invalidHex (fault : Text.Hex.Fault)
  deriving DecidableEq

namespace Digest

/-- The number of bytes of a digest. -/
def size : Nat := 32

/-- The digest of the given bytes, if there are 32 of them. -/
def ofBytes? (bytes : List UInt8) : Option Digest :=
  if h : bytes.length = 32 then some ⟨bytes, h⟩ else none

/-- The digest that holds only zero bytes, which marks that there is none. -/
def zero : Digest := ⟨List.replicate 32 0, by decide⟩

instance : Inhabited Digest := ⟨zero⟩

/-- Whether all bytes are zero. -/
def isZero (d : Digest) : Bool := d.bytes.all (· == 0)

/-- The hexadecimal digits. -/
def hexCharacters (d : Digest) : List Char := Text.Hex.encode d.bytes

/-- The hexadecimal text. -/
def hex (d : Digest) : String := String.ofList d.hexCharacters

theorem eq_of_bytes_eq {d d' : Digest} (h : d.bytes = d'.bytes) : d = d' := by
  cases d
  cases d'
  cases h
  rfl

theorem length_hexCharacters (d : Digest) : d.hexCharacters.length = 64 := by
  rw [hexCharacters, Text.Hex.length_encode, d.length_eq]

/-- The hexadecimal digits tell digests apart. -/
theorem hexCharacters_inj {d d' : Digest} (h : d.hexCharacters = d'.hexCharacters) : d = d' :=
  eq_of_bytes_eq (Text.Hex.encode_inj h)

/-- The name of a digest in messages, which shows its first eight bytes. -/
def abbreviation (d : Digest) : String :=
  "ActDigest(" ++ String.ofList (d.hexCharacters.take 16) ++ "...)"

/-- The digest that a list of bytes in hexadecimal form denotes. -/
def ofHexBytes (text : List UInt8) : Except DigestFault Digest :=
  match Text.Hex.decode text with
  | .error fault => .error (.invalidHex fault)
  | .ok bytes =>
    if h : bytes.length = 32 then .ok ⟨bytes, h⟩ else .error (.wrongLength bytes.length)

/-- Reads the hexadecimal text of a digest, in either case. -/
def ofHex (s : String) : Except DigestFault Digest := ofHexBytes (Text.bytes s)

end Digest

namespace DigestFault

/-- The cause of a fault in a hexadecimal text. -/
def hexMessage : Text.Hex.Fault → String
  | .oddLength => "Odd number of digits"
  | .invalidDigit byte position =>
    "Invalid character " ++ Text.Quoted.character (Char.ofNat byte.toNat) ++ " at position "
      ++ Text.Numeral.text position

/-- What a message says about a fault. -/
def message : DigestFault → String
  | .wrongLength actual =>
    "Invalid digest length: expected " ++ Text.Numeral.text Digest.size ++ " bytes, got "
      ++ Text.Numeral.text actual
  | .invalidHex fault => "Invalid hex string: " ++ hexMessage fault

end DigestFault

end WitnessLedger
