import WitnessLedger.Text.Numeral

/-! # Decimals

Amounts are decimal numbers with a mantissa of 96 bits and up to 28 places.  Two decimals may
denote one amount with a different number of places, and the places are kept: `60.5` and
`60.50` are written as they were read.  A zero carries a sign only where rounding left nothing
else of a negative amount; the sign is written and makes no other difference. -/

namespace WitnessLedger

/-- Mantissas have 96 bits and lie below this bound. -/
def Decimal.bound : Nat := 0x1_0000_0000_0000_0000_0000_0000

/-- Places never exceed this number. -/
def Decimal.maxScale : Nat := 28

/-- A decimal number, `mantissa` shifted right by `scale` decimal places. -/
structure Decimal where
  negative : Bool
  mantissa : Nat
  scale : Nat
  inRange : mantissa < Decimal.bound ∧ scale ≤ Decimal.maxScale
  deriving DecidableEq

namespace Decimal

/-- Zero with no places. -/
def zero : Decimal := ⟨false, 0, 0, by decide⟩

instance : Inhabited Decimal := ⟨zero⟩

/-- The decimal with the given parts, where they are in range. -/
def ofSignedParts? (negative : Bool) (mantissa scale : Nat) : Option Decimal :=
  if h : mantissa < bound ∧ scale ≤ maxScale then some ⟨negative, mantissa, scale, h⟩ else none

/-- The decimal with the given parts, where they are in range.  The sign of a zero is
    dropped. -/
def ofParts? (negative : Bool) (mantissa scale : Nat) : Option Decimal :=
  ofSignedParts? (negative && mantissa != 0) mantissa scale

/-- A whole amount. -/
def ofInt? (n : Int) : Option Decimal := ofParts? (n < 0) n.natAbs 0

/-- A whole amount of at most 64 bits; a larger one counts as zero. -/
def ofInt (n : Int) : Decimal := (ofInt? n).getD zero

/-- The mantissa with its sign. -/
def signed (d : Decimal) : Int := if d.negative then -(d.mantissa : Int) else d.mantissa

/-- The amount as a whole number of the places of another scale that is no smaller. -/
def signedAt (d : Decimal) (scale : Nat) : Int := d.signed * Nat.pow 10 (scale - d.scale)

/-- The amount as a whole number of the smallest representable places. -/
def amount (d : Decimal) : Int := d.signedAt maxScale

/-- Whether two decimals denote the same amount. -/
def sameAmount (a b : Decimal) : Bool := a.amount == b.amount

/-- Whether an amount is below zero. -/
def isNegative (d : Decimal) : Bool := d.negative && d.mantissa != 0

/-- Whether one amount is below another. -/
def lt (a b : Decimal) : Bool := a.amount < b.amount

theorem mantissa_lt (d : Decimal) : d.mantissa < bound := d.inRange.1

theorem scale_le (d : Decimal) : d.scale ≤ maxScale := d.inRange.2

theorem ofParts?_eq_none_iff {negative : Bool} {mantissa scale : Nat} :
    ofParts? negative mantissa scale = none ↔ ¬(mantissa < bound ∧ scale ≤ maxScale) := by
  simp [ofParts?, ofSignedParts?]

/-- Every digit of the places is written, and at least one before the point. -/
def characters (d : Decimal) : List Char :=
  let ds := Text.Numeral.padded (d.scale + 1) d.mantissa
  let whole := ds.length - d.scale
  (if d.negative then ['-'] else []) ++ ds.take whole
    ++ (if d.scale = 0 then [] else '.' :: ds.drop whole)

/-- The text of a decimal. -/
def text (d : Decimal) : String := String.ofList d.characters

end Decimal

end WitnessLedger
