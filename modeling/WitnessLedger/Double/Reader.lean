import WitnessLedger.Double.Basic
import WitnessLedger.Text.Numeral

/-! # Reading a double

A number text is an optional sign and decimal digits with an optional point and exponent, or
one of the words for infinity and for no number.  It denotes the double nearest to it. -/

namespace WitnessLedger.Double

/-- The double nearest to `digits * 10 ^ power`.  Beyond the range of doubles the answer is
    settled without the power. -/
def ofScientific (negative : Bool) (digits : Nat) (power : Int) : Double :=
  let size := power + (Text.Numeral.digits digits).length
  if digits = 0 || size < -330 then .finite negative .zero
  else if 310 < size then .infinite negative
  else ofRatio negative (digits * Nat.pow 10 power.toNat) (Nat.pow 10 (-power).toNat)

/-- Reads an exponent, its sign first; nothing may follow it. -/
def readExponent? : List Char → Option Int
  | '-' :: ds => (Text.Numeral.read? ds).map fun n => -(n : Int)
  | '+' :: ds => (Text.Numeral.read? ds).map Int.ofNat
  | ds => (Text.Numeral.read? ds).map Int.ofNat

/-- Reads digits with an optional point and an optional exponent.  Either side of the point
    may be empty, but not both. -/
def readUnsigned? (negative : Bool) (cs : List Char) : Option Double := do
  let whole := cs.takeWhile Char.isDigit
  let afterWhole := cs.dropWhile Char.isDigit
  let (fraction, rest) := match afterWhole with
    | '.' :: tail => (tail.takeWhile Char.isDigit, tail.dropWhile Char.isDigit)
    | _ => ([], afterWhole)
  if whole.isEmpty && fraction.isEmpty then none
  let exponent ← match rest with
    | [] => some 0
    | c :: tail => if c = 'e' || c = 'E' then readExponent? tail else none
  return ofScientific negative (Text.Numeral.value (whole ++ fraction))
    (exponent - (fraction.length : Int))

/-- Reads a number text without its sign. -/
def readMagnitude? (negative : Bool) (cs : List Char) : Option Double :=
  match String.ofList (cs.map Char.toLower) with
  | "inf" => some (.infinite negative)
  | "infinity" => some (.infinite negative)
  | "nan" => some .nan
  | _ => readUnsigned? negative cs

/-- Reads a number text. -/
def read? (s : String) : Option Double :=
  match s.toList with
  | '-' :: cs => readMagnitude? true cs
  | '+' :: cs => readMagnitude? false cs
  | cs => readMagnitude? false cs

end WitnessLedger.Double
