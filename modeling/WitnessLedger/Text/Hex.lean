/-! # Hexadecimal text of bytes

Two lowercase digits a byte on the way out, which are read back as they were
(`decodePairs_encode`).  On the way in either case is read, and a text fails for one of two
causes: an odd number of bytes, which is noticed first, or the first byte that is no digit,
reported with its position.  Positions count bytes of the UTF-8 text. -/

namespace WitnessLedger.Text.Hex

/-- Why a text is not the hexadecimal form of bytes. -/
inductive Fault where
  | oddLength
  | invalidDigit (byte : UInt8) (position : Nat)
  deriving DecidableEq, Repr

/-- The lowercase hexadecimal digit for a number below sixteen. -/
def digit (n : Nat) : Char := if n < 10 then Char.ofNat (48 + n) else Char.ofNat (87 + n)

/-- The value of a byte that is a hexadecimal digit in either case. -/
def digitValue? (b : UInt8) : Option Nat :=
  let n := b.toNat
  if 48 ≤ n && n ≤ 57 then some (n - 48)
  else if 97 ≤ n && n ≤ 102 then some (n - 87)
  else if 65 ≤ n && n ≤ 70 then some (n - 55)
  else none

/-- The two digits of a byte. -/
def ofByte (b : UInt8) : List Char := [digit (b.toNat / 16), digit (b.toNat % 16)]

/-- The hexadecimal text of bytes. -/
def encode (bytes : List UInt8) : List Char := bytes.flatMap ofByte

/-- Reads the digits pairwise; `position` counts the bytes before the rest. -/
def decodePairs (position : Nat) : List UInt8 → Except Fault (List UInt8)
  | hi :: lo :: rest =>
    match digitValue? hi, digitValue? lo with
    | none, _ => .error (.invalidDigit hi position)
    | some _, none => .error (.invalidDigit lo (position + 1))
    | some h, some l => (decodePairs (position + 2) rest).map (UInt8.ofNat (16 * h + l) :: ·)
  | _ => .ok []

/-- The bytes that a hexadecimal text stands for. -/
def decode (text : List UInt8) : Except Fault (List UInt8) :=
  if text.length % 2 = 1 then .error .oddLength else decodePairs 0 text

theorem digitValue?_digit {n : Nat} (h : n < 16) :
    digitValue? (UInt8.ofNat (digit n).toNat) = some n := by
  have : ∀ n < 16, digitValue? (UInt8.ofNat (digit n).toNat) = some n := by decide
  exact this n h

theorem length_encode (bytes : List UInt8) : (encode bytes).length = 2 * bytes.length := by
  induction bytes with
  | nil => rfl
  | cons b bytes ih =>
    simp only [encode, List.flatMap_cons, List.length_append, List.length_cons] at ih ⊢
    simp only [ofByte, ih, List.length_cons, List.length_nil]
    omega

/-- What is written is read back. -/
theorem decodePairs_encode (position : Nat) (bytes : List UInt8) :
    decodePairs position ((encode bytes).map fun c => UInt8.ofNat c.toNat) = .ok bytes := by
  induction bytes generalizing position with
  | nil => rfl
  | cons b bytes ih =>
    have hlt : b.toNat < 256 := b.toNat_lt
    have hhigh := digitValue?_digit (show b.toNat / 16 < 16 by omega)
    have hlow := digitValue?_digit (show b.toNat % 16 < 16 by omega)
    have hbyte : UInt8.ofNat (16 * (b.toNat / 16) + b.toNat % 16) = b := by
      rw [Nat.div_add_mod, UInt8.ofNat_toNat]
    have hsplit : encode (b :: bytes) =
        digit (b.toNat / 16) :: digit (b.toNat % 16) :: encode bytes := rfl
    rw [hsplit, List.map_cons, List.map_cons, decodePairs, hhigh, hlow]
    simp only [ih, hbyte]
    rfl

/-- Different bytes have different texts. -/
theorem encode_inj {bytes bytes' : List UInt8} (h : encode bytes = encode bytes') :
    bytes = bytes' := by
  have hread := decodePairs_encode 0 bytes
  rw [h, decodePairs_encode, Except.ok.injEq] at hread
  exact hread.symm

end WitnessLedger.Text.Hex
