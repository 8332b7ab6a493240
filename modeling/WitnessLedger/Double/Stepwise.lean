import WitnessLedger.Double.Basic
import WitnessLedger.Text.Numeral

/-! # Digits as a double, step by step

A quick way from decimal digits to a double.  The digits that fit 64 bits become a double, and that
is multiplied or divided by a power of ten.  Each step rounds, and digits that do not fit are left
out, so that the result can be off by a little from the double nearest to the digits. -/

namespace WitnessLedger.Magnitude

/-- The product of two magnitudes, rounded, unless it is too large. -/
def times? (a b : Magnitude) : Option Magnitude := ofRatio? (a.units * b.units) (one * one)

/-- The quotient of two magnitudes, rounded, unless it is too large. -/
def over? (a b : Magnitude) : Option Magnitude := ofRatio? a.units b.units

/-- The greatest power of ten that is multiplied or divided by at once. -/
def greatestPower : Nat := 308

/-- The magnitude nearest to a power of ten, unless it is too large. -/
def powerOfTen? (k : Nat) : Option Magnitude := ofRatio? (Nat.pow 10 k) 1

/-- Divides by the greatest power of ten a number of times.  Zero is divided no more. -/
def lowered? (a : Magnitude) : Nat → Option Magnitude
  | 0 => some a
  | n + 1 =>
    if a.significand = 0 then some a
    else do
      let b ← a.over? (← powerOfTen? greatestPower)
      b.lowered? n

/-- Multiplies or divides by a power of ten. -/
def scaled? (a : Magnitude) (power : Int) : Option Magnitude :=
  let places := power.natAbs
  if 0 ≤ power then
    if places ≤ greatestPower then do a.times? (← powerOfTen? places)
    else if a.significand = 0 then some a else none
  else do
    let times := (places - 1) / greatestPower
    let b ← a.lowered? times
    b.over? (← powerOfTen? (places - greatestPower * times))

/-- Puts digits behind a number as long as it has 64 bits, and counts them. -/
def packed (n : Nat) : List Char → Nat × Nat
  | [] => (n, 0)
  | d :: ds =>
    let next := 10 * n + (d.toNat - 48)
    if next < UInt64.size then
      let (m, taken) := packed next ds
      (m, taken + 1)
    else (n, 0)

/-- What digits before and behind a point, with an exponent, become.  The digits before the point
    that do not fit count as zeros. -/
def stepwise? (whole fraction : List Char) (exponent : Int) : Option Magnitude := do
  let (start, kept) := packed 0 whole
  let (n, taken) := packed start fraction
  let a ← ofRatio? n 1
  a.scaled? (exponent + ((whole.length - kept : Nat) : Int) - (taken : Int))

end WitnessLedger.Magnitude
