import WitnessLedger.Decimal.Basic
import WitnessLedger.Number.Rounding

/-! # Reading a decimal

A decimal text is an optional sign, digits and at most one point; underscores may stand
anywhere after the first digit.  Places beyond those that fit are dropped, and the first
dropped one decides the rounding, a five going up.  A text that is not of this form may still
have an exponent, which moves the point. -/

namespace WitnessLedger.Decimal

/-- What has been read of a decimal text: its digits so far, their places, and whether a point
    and whether a digit has been seen. -/
structure Reading where
  mantissa : Nat
  scale : Nat
  pointed : Bool
  started : Bool

namespace Reading

/-- Nothing has been read. -/
def start : Reading := ⟨0, 0, false, false⟩

/-- One more digit. -/
def push (r : Reading) (c : Char) : Reading :=
  { mantissa := 10 * r.mantissa + (c.toNat - 48), scale := if r.pointed then r.scale + 1 else 0
    pointed := r.pointed, started := true }

/-- The bound of the mantissas that take one more digit as a word of 64 bits, less a margin. -/
def narrowBound : Nat := 1844674407370954906

/-- Whether the last digit was read while the mantissa was narrow. -/
def isNarrow (r : Reading) : Bool := r.mantissa / 10 < narrowBound

/-- The parts of the decimal when `digit` is the first that does not fit.  Rounding up may
    itself need a place to be given up. -/
def roundAt? (r : Reading) (digit : Nat) : Option (Nat × Nat) :=
  if digit < 5 then some (r.mantissa, r.scale)
  else if r.mantissa + 1 < bound then some (r.mantissa + 1, r.scale)
  else if r.scale = 0 then none
  else some ((r.mantissa + 5) / 10, r.scale - 1)

/-- The parts of the decimal when `digit` is the first that does not fit and `rest` follows it.
    Only digits and underscores may follow, and they change nothing. -/
def finish? (r : Reading) (digit : Nat) (rest : List Char) : Option (Nat × Nat) :=
  if rest.all fun c => c.isDigit || c = '_' then r.roundAt? digit else none

/-- Reads the rest of a decimal text into its mantissa and places. -/
def read? (r : Reading) : List Char → Option (Nat × Nat)
  | [] => if r.started then some (r.mantissa, r.scale) else none
  | c :: cs =>
    if maxScale ≤ r.scale then
      if c.isDigit then r.finish? (c.toNat - 48) cs
      -- Here an underscore is passed over, or fills the place of the deciding digit.
      else if c = '_' then if r.isNarrow then r.finish? 0 cs else r.read? cs
      else none
    else if c.isDigit then
      if (r.push c).mantissa < bound then (r.push c).read? cs
      -- A place that the mantissa cannot hold is rounded away; a whole number has none to lose.
      else if r.pointed then r.finish? (c.toNat - 48) cs
      else none
    else if c = '.' && !r.pointed then { r with pointed := true }.read? cs
    else if c = '_' && r.started then r.read? cs
    else none

end Reading

/-- Reads a decimal text without an exponent. -/
def readPlain? (cs : List Char) : Option Decimal := do
  let (negative, rest) := match cs with
    | '-' :: rest => (true, rest)
    | '+' :: rest => (false, rest)
    | _ => (false, cs)
  let (mantissa, scale) ← Reading.start.read? rest
  ofParts? negative mantissa scale

/-- Moves the point of a decimal to the left.  Places beyond those that fit are rounded away, a
    half going up, and the sign stays whatever is left. -/
def pointLeft? (d : Decimal) (places : Nat) : Option Decimal :=
  if maxScale < places then none
  else
    let excess := d.scale + places - maxScale
    ofSignedParts? d.negative (Number.roundHalfUp d.mantissa (Nat.pow 10 excess))
      (d.scale + places - excess)

/-- Moves the point of a decimal to the right, first over its places and then by adding
    zeros. -/
def pointRight? (d : Decimal) (places : Nat) : Option Decimal :=
  if places ≤ d.scale then ofParts? d.negative d.mantissa (d.scale - places)
  else if maxScale < places then none
  else ofParts? d.negative (d.mantissa * Nat.pow 10 (places - d.scale)) 0

/-- Reads a decimal text with an exponent, an unsigned number with a minus sign in front where
    the point moves to the left. -/
def readScientific? (cs : List Char) : Option Decimal := do
  let isMark (c : Char) : Bool := c = 'e' || c = 'E'
  let base ← readPlain? (cs.takeWhile (!isMark ·))
  match cs.dropWhile (!isMark ·) with
  | [] => none
  | _ :: '-' :: ds => base.pointLeft? (← Text.Numeral.readUnsigned? UInt32.size ds)
  | _ :: ds => base.pointRight? (← Text.Numeral.readUnsigned? UInt32.size ds)

/-- Reads a decimal text. -/
def read? (s : String) : Option Decimal :=
  readPlain? s.toList <|> readScientific? s.toList

end WitnessLedger.Decimal
