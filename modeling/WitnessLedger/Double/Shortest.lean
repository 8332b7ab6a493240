import WitnessLedger.Double.Basic
import WitnessLedger.Text.Numeral

/-! # Shortest digits of a double

The fewest decimal digits that read back as the same double, and of those the nearest to it.
The reals that round to a double form an interval around it, closed where the significand is
even.  For each number of digits the value's two neighbours on that decimal grid are tried in
exact arithmetic, and the first grid with a neighbour inside the interval wins. -/

namespace WitnessLedger

/-- A decimal number `digits * 10 ^ power`. -/
structure Scientific where
  digits : Nat
  power : Int
  deriving DecidableEq

/-- Where the choice between two equally near digits falls. -/
inductive Tie where
  | up
  | even
  deriving DecidableEq

namespace Magnitude

/-- The exponent of the first decimal digit of `num / den`, for a positive quotient. -/
def leadingPower (num den : Nat) : Int :=
  if den ≤ num then ((Text.Numeral.digits (num / den)).length : Int) - 1
  else -((Text.Numeral.digits ((den - 1) / num)).length : Int)

/-- The interval of the reals that round to a magnitude, in quarters of a unit.  Below a power
    of two the neighbour is only half as far. -/
structure Interval where
  low : Nat
  mid : Nat
  high : Nat
  closed : Bool

/-- The interval of the reals that round to a magnitude. -/
def interval (a : Magnitude) : Interval :=
  let gap := Nat.pow 2 a.exponent
  let below := if a.significand = leadingBit ∧ 0 < a.exponent then gap else 2 * gap
  { low := 4 * a.units - below, mid := 4 * a.units, high := 4 * a.units + 2 * gap
    closed := a.significand % 2 == 0 }

/-- Whether `x` lies in an interval whose ends are multiplied by `scale`. -/
def Interval.contains (i : Interval) (scale x : Nat) : Bool :=
  if i.closed then i.low * scale ≤ x && x ≤ i.high * scale
  else i.low * scale < x && x < i.high * scale

/-- The neighbour of the value that is nearest among those on a decimal grid, `10 ^ power`
    apart, that lie in the interval. -/
def onGrid? (tie : Tie) (i : Interval) (power : Int) : Option Scientific :=
  -- Both the value and the grid are scaled to whole numbers.
  let up := Nat.pow 10 (-power).toNat
  let step := 4 * one * Nat.pow 10 power.toNat
  let value := i.mid * up
  let q := value / step
  let lowerFits := i.contains up (q * step)
  let upperFits := i.contains up ((q + 1) * step)
  let r := 2 * (value % step)
  let lowerNearer := r < step || (r == step && tie == .even && q % 2 == 0)
  if lowerFits && (lowerNearer || !upperFits) then some ⟨q, power⟩
  else if upperFits then some ⟨q + 1, power⟩
  else none

/-- The fewest digits that read back as a positive magnitude; seventeen always do. -/
def shortest (tie : Tie) (a : Magnitude) : Scientific :=
  let i := a.interval
  let first := leadingPower a.units one
  ((List.range 17).findSome? fun (n : Nat) => onGrid? tie i (first - n)).getD ⟨a.units, -1074⟩

end Magnitude

end WitnessLedger
