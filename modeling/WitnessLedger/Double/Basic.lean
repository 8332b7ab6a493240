import WitnessLedger.Number.Rounding

/-! # Doubles

Binary floating-point numbers of 64 bits, kept as what they denote: a finite number is a
sign and a whole number of significand bits times a power of two, and the least positive
one, 2 to the power -1074, is the unit.  Comparison is exact, and a quotient of naturals
becomes the nearest double, a tie going to the even significand. -/

namespace WitnessLedger

/-- What the leading bit of a full significand stands for. -/
def Magnitude.leadingBit : Nat := 0x10_0000_0000_0000

/-- The greatest exponent of a finite double. -/
def Magnitude.maxExponent : Nat := 2045

/-- Whether a significand has at most 53 bits, and all of them whenever the exponent is not
    zero, so that each value has one form. -/
def Magnitude.Canonical (significand exponent : Nat) : Prop :=
  significand < 2 * leadingBit ∧ (exponent = 0 ∨ leadingBit ≤ significand) ∧
    exponent ≤ maxExponent

/-- The absolute value of a finite double, `significand * 2 ^ exponent` units. -/
structure Magnitude where
  significand : Nat
  exponent : Nat
  canonical : Magnitude.Canonical significand exponent
  deriving DecidableEq

/-- A 64-bit floating-point number. -/
inductive Double where
  | nan
  | infinite (negative : Bool)
  | finite (negative : Bool) (magnitude : Magnitude)
  deriving DecidableEq

namespace Magnitude

instance (significand exponent : Nat) : Decidable (Canonical significand exponent) :=
  inferInstanceAs (Decidable (_ ∧ _))

/-- The absolute value zero. -/
def zero : Magnitude := ⟨0, 0, by decide⟩

instance : Inhabited Magnitude := ⟨zero⟩

/-- The value as a number of units. -/
def units (a : Magnitude) : Nat := a.significand * Nat.pow 2 a.exponent

/-- How many units make one. -/
def one : Nat := Nat.pow 2 1074

/-- The magnitude with the given parts, unless they are out of range. -/
def ofParts? (significand exponent : Nat) : Option Magnitude :=
  if h : Canonical significand exponent then some ⟨significand, exponent, h⟩ else none

/-- The exponent at which a number of units has at most 53 significand bits. -/
def exponentFor (units : Nat) : Nat := if units < 2 * leadingBit then 0 else units.log2 - 52

/-- The magnitude nearest to `num / den`, unless it is too large.  Rounding up may carry into
    the next power of two. -/
def ofRatio? (num den : Nat) : Option Magnitude :=
  let scaled := num * one
  let exponent := exponentFor (scaled / den)
  let significand := Number.roundHalfEven scaled (den * Nat.pow 2 exponent)
  if significand = 2 * leadingBit then ofParts? leadingBit (exponent + 1)
  else ofParts? significand exponent

end Magnitude

namespace Double

instance : Inhabited Double := ⟨.finite false .zero⟩

/-- The double nearest to `num / den`, which is infinite where it is too large. -/
def ofRatio (negative : Bool) (num den : Nat) : Double :=
  (Magnitude.ofRatio? num den).elim (.infinite negative) (.finite negative)

/-- The double nearest to a quotient of naturals. -/
def ratio (num den : Nat) : Double := ofRatio false num den

/-- The double nearest to an integer. -/
def ofInt (n : Int) : Double := ofRatio (n < 0) n.natAbs 1

/-- A finite double as an integer number of units; both zeros are zero. -/
def signedUnits (negative : Bool) (a : Magnitude) : Int :=
  if negative then -(a.units : Int) else a.units

/-- Whether one double is at most another; nothing compares to `nan`. -/
def le : Double → Double → Bool
  | .nan, _ => false
  | _, .nan => false
  | .infinite true, _ => true
  | _, .infinite false => true
  | .infinite false, _ => false
  | _, .infinite true => false
  | .finite s a, .finite t b => signedUnits s a ≤ signedUnits t b

/-- Whether one double is below another; nothing compares to `nan`. -/
def lt (x y : Double) : Bool := x.le y && !y.le x

/-- Whether a double is neither infinite nor `nan`. -/
def isFinite : Double → Bool
  | .finite _ _ => true
  | _ => false

end Double

end WitnessLedger
