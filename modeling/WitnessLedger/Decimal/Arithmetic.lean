import WitnessLedger.Decimal.Basic
import WitnessLedger.Number.Rounding

/-! # Arithmetic on decimals

A sum has the larger number of places of its two parts.  Where it does not fit the mantissa,
places are given up, one rounding to even for all of them, and with no place left to give up
the sum overflows.  A zero leaves the other part as it is, places included. -/

namespace WitnessLedger.Decimal

/-- The value `signed / 10 ^ scale`, with as few places given up as the mantissa demands. -/
def fit? (signed : Int) (scale : Nat) : Option Decimal :=
  (List.range (scale + 1)).findSome? fun dropped =>
    let mantissa := Number.roundHalfEven signed.natAbs (Nat.pow 10 dropped)
    ofParts? (signed < 0) mantissa (scale - dropped)

/-- The same amount with the sign turned round; a zero stays as it is. -/
def negated (d : Decimal) : Decimal :=
  if d.mantissa = 0 then d else { d with negative := !d.negative }

/-- The amount without its sign. -/
def absolute (d : Decimal) : Decimal := { d with negative := false }

/-- The sum, unless it overflows. -/
def add? (a b : Decimal) : Option Decimal :=
  if a.mantissa = 0 then some b
  else if b.mantissa = 0 then some a
  else
    let scale := max a.scale b.scale
    fit? (a.signedAt scale + b.signedAt scale) scale

/-- The difference, unless it overflows. -/
def sub? (a b : Decimal) : Option Decimal := a.add? b.negated

/-- A whole amount divided into a number of equal parts: with as few places as make it exact,
    or rounded to even at the last place. -/
def share (total : Int) (parts : Nat) : Decimal :=
  let exact := (List.range (maxScale + 1)).find? fun scale =>
    total.natAbs * Nat.pow 10 scale % parts == 0
  let scale := exact.getD maxScale
  let mantissa := Number.roundHalfEven (total.natAbs * Nat.pow 10 scale) parts
  (ofParts? (total < 0) mantissa scale).getD zero

end WitnessLedger.Decimal
