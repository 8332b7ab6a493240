import WitnessLedger.Double.Shortest

/-! # Text of a double

Two forms share the shortest digits.  The plain form never uses an exponent and writes whole
numbers without a point; it stands in messages and reports.  The document form keeps the point
and takes an exponent for large and small numbers; it stands in documents and is what is
hashed. -/

namespace WitnessLedger

/-- How the digits of a double are laid out. -/
structure Layout where
  /-- Whether a number whose first digit has this decimal exponent is written without one. -/
  positional : Int → Bool
  /-- Whether a whole number keeps a point and a zero. -/
  pointed : Bool
  /-- Which of two equally near digits is taken. -/
  tie : Tie

namespace Layout

/-- Never an exponent, no point on whole numbers, a half goes up. -/
def plain : Layout := ⟨fun _ => true, false, .up⟩

/-- Positional from 10 to the power -5 up to 10 to the power 16, a point on whole numbers, a
    half goes to the even digit. -/
def document : Layout := ⟨fun e => -5 ≤ e && e < 16, true, .even⟩

/-- The digits of a number without the zeros at its end. -/
def significantDigits (n : Nat) : List Char :=
  ((Text.Numeral.digits n).reverse.dropWhile (· == '0')).reverse

/-- Digits whose first one has the decimal exponent `e`, without an exponent. -/
def positionally (l : Layout) (ds : List Char) (e : Int) : List Char :=
  if e < 0 then '0' :: '.' :: List.replicate (-e - 1).toNat '0' ++ ds
  else
    let whole := e.toNat + 1
    if ds.length ≤ whole then
      ds ++ List.replicate (whole - ds.length) '0' ++ (if l.pointed then ['.', '0'] else [])
    else ds.take whole ++ '.' :: ds.drop whole

/-- Digits whose first one has the decimal exponent `e`, with that exponent and its sign. -/
def scientifically (ds : List Char) (e : Int) : List Char :=
  ds.take 1 ++ (if ds.length ≤ 1 then [] else '.' :: ds.drop 1)
    ++ 'e' :: (if e < 0 then '-' else '+') :: Text.Numeral.digits e.natAbs

/-- The digits of a magnitude in a layout. -/
def magnitude (l : Layout) (a : Magnitude) : List Char :=
  if a.significand = 0 then if l.pointed then ['0', '.', '0'] else ['0']
  else
    let s := a.shortest l.tie
    let e := s.power + ((Text.Numeral.digits s.digits).length : Int) - 1
    let ds := significantDigits s.digits
    if l.positional e then l.positionally ds e else scientifically ds e

/-- A finite double in a layout. -/
def signed (l : Layout) (negative : Bool) (a : Magnitude) : List Char :=
  if negative then '-' :: l.magnitude a else l.magnitude a

end Layout

/-- The plain form of a double. -/
def Double.text : Double → String
  | .nan => "NaN"
  | .infinite false => "inf"
  | .infinite true => "-inf"
  | .finite s a => String.ofList (Layout.plain.signed s a)

end WitnessLedger
