import WitnessLedger.Json.Basic
import WitnessLedger.Double.Reader
import WitnessLedger.Double.Stepwise
import WitnessLedger.Text.Hex

/-! # Reading JSON

Blanks may stand between any two tokens.  An integer literal of 64 bits becomes an integer,
any other number a double; minus zero is a double.  A reader finds the nearest double or, which
is quicker, goes step by step.  The members of an object are sorted, and of two members of one
name the last counts.  Arrays and objects stand in one another up to a limit. -/

namespace WitnessLedger.Json

/-- Drops the blanks at the front. -/
def skipBlanks (cs : List Char) : List Char :=
  cs.dropWhile fun c => c = ' ' || c = '\n' || c = '\r' || c = '\t'

/-- The value of four hexadecimal digits. -/
def unit? (a b c d : Char) : Option Nat := do
  let digit? (c : Char) : Option Nat :=
    if c.toNat < 128 then Text.Hex.digitValue? (UInt8.ofNat c.toNat) else none
  return 4096 * (← digit? a) + 256 * (← digit? b) + 16 * (← digit? c) + (← digit? d)

/-- The character that a letter after a backslash stands for. -/
def unescape? : Char → Option Char
  | '"' => some '"'
  | '\\' => some '\\'
  | '/' => some '/'
  | 'b' => some '\x08'
  | 'f' => some '\x0c'
  | 'n' => some '\n'
  | 'r' => some '\r'
  | 't' => some '\t'
  | _ => none

/-- Reads the rest of a string after its first quotation mark.  A character outside the basic
    plane may be given by its two surrogates, which do not stand alone. -/
def readString? : List Char → Option (List Char × List Char)
  | [] => none
  | '"' :: rest => some ([], rest)
  | '\\' :: 'u' :: a :: b :: c :: d :: '\\' :: 'u' :: e :: f :: g :: h :: rest => do
    let first ← unit? a b c d
    if 0xD800 ≤ first && first < 0xDC00 then
      let second ← unit? e f g h
      if 0xDC00 ≤ second && second < 0xE000 then
        let (cs, rest) ← readString? rest
        some (Char.ofNat (0x10000 + 0x400 * (first - 0xD800) + (second - 0xDC00)) :: cs, rest)
      else none
    else if 0xDC00 ≤ first && first < 0xE000 then none
    else
      let (cs, rest) ← readString? ('\\' :: 'u' :: e :: f :: g :: h :: rest)
      some (Char.ofNat first :: cs, rest)
  | '\\' :: 'u' :: a :: b :: c :: d :: rest => do
    let n ← unit? a b c d
    if 0xD800 ≤ n && n < 0xE000 then none
    let (cs, rest) ← readString? rest
    some (Char.ofNat n :: cs, rest)
  | '\\' :: c :: rest => do
    let c ← unescape? c
    let (cs, rest) ← readString? rest
    some (c :: cs, rest)
  | c :: rest => do
    if c.toNat < 32 || c = '\\' then none
    let (cs, rest) ← readString? rest
    some (c :: cs, rest)

/-- The digits at the front, of which there is at least one. -/
def readDigits? (cs : List Char) : Option (List Char × List Char) :=
  let ds := cs.takeWhile Char.isDigit
  if ds.isEmpty then none else some (ds, cs.drop ds.length)

/-- The exponent of a number, zero where there is none. -/
def readExponent? : List Char → Option (Int × List Char)
  | c :: rest =>
    if c = 'e' || c = 'E' then
      match rest with
      | '-' :: ds => (readDigits? ds).map fun (ds, rest) => (-(Text.Numeral.value ds : Int), rest)
      | '+' :: ds => (readDigits? ds).map fun (ds, rest) => ((Text.Numeral.value ds : Int), rest)
      | ds => (readDigits? ds).map fun (ds, rest) => ((Text.Numeral.value ds : Int), rest)
    else some (0, c :: rest)
  | [] => some (0, [])

/-- The integer of a literal without point and exponent, where it has 64 bits. -/
def wordOf? (negative : Bool) (n : Nat) : Option Json :=
  if negative then
    if n = 0 || Text.Numeral.signedBound < n then none else some (.integer (-(n : Int)))
  else if n < UInt64.size then some (.integer n) else none

/-- How a reader finds the double for decimal digits. -/
inductive Precision where
  /-- The nearest one. -/
  | nearest
  /-- Step by step, with a rounding at each. -/
  | stepwise
  deriving DecidableEq

/-- The double for digits before and behind a point, with an exponent, unless it is too large. -/
def realOf? (p : Precision) (negative : Bool) (whole fraction : List Char) (exponent : Int) :
    Option Json :=
  match p with
  | .nearest =>
    match Double.ofScientific negative (Text.Numeral.value (whole ++ fraction))
      (exponent - (fraction.length : Int)) with
    | .finite s a => some (.real s a)
    | _ => none
  | .stepwise => (Magnitude.stepwise? whole fraction exponent).map (.real negative)

/-- Reads a number without its sign. -/
def readUnsigned? (p : Precision) (negative : Bool) (cs : List Char) :
    Option (Json × List Char) := do
  let (whole, afterWhole) ← readDigits? cs
  if whole.head? = some '0' && 1 < whole.length then none
  let (fraction, afterFraction) ← match afterWhole with
    | '.' :: rest => readDigits? rest
    | _ => some ([], afterWhole)
  let (exponent, rest) ← readExponent? afterFraction
  let word :=
    if rest.length = afterWhole.length then wordOf? negative (Text.Numeral.value whole) else none
  match word with
  | some v => some (v, rest)
  | none => (realOf? p negative whole fraction exponent).map fun v => (v, rest)

/-- Reads a number. -/
def readNumber? (p : Precision) : List Char → Option (Json × List Char)
  | '-' :: cs => readUnsigned? p true cs
  | cs => readUnsigned? p false cs

/-- How many arrays and objects may stand in one another. -/
def nestingLimit : Nat := 127

mutual

/-- Reads a value, in which arrays and objects stand in one another up to a depth, and leaves the
    rest; every call takes one from `fuel`. -/
def readValue? (p : Precision) (fuel depth : Nat) (cs : List Char) :
    Option (Json × List Char) :=
  match fuel with
  | 0 => none
  | fuel + 1 =>
    match skipBlanks cs with
    | 'n' :: 'u' :: 'l' :: 'l' :: rest => some (.null, rest)
    | 't' :: 'r' :: 'u' :: 'e' :: rest => some (.bool true, rest)
    | 'f' :: 'a' :: 'l' :: 's' :: 'e' :: rest => some (.bool false, rest)
    | '"' :: rest => (readString? rest).map fun (s, rest) => (.string (String.ofList s), rest)
    | '[' :: rest =>
      match depth with
      | 0 => none
      | depth + 1 =>
        match skipBlanks rest with
        | ']' :: rest => some (.array [], rest)
        | rest => (readElements? p fuel depth rest).map fun (xs, rest) => (.array xs, rest)
    | '\x7b' :: rest =>
      match depth with
      | 0 => none
      | depth + 1 =>
        match skipBlanks rest with
        | '\x7d' :: rest => some (.object [], rest)
        | rest => (readMembers? p fuel depth rest).map fun (ms, rest) => (sortedObject ms, rest)
    | rest => readNumber? p rest

/-- Reads the elements of an array up to its end. -/
def readElements? (p : Precision) (fuel depth : Nat) (cs : List Char) :
    Option (List Json × List Char) :=
  match fuel with
  | 0 => none
  | fuel + 1 => do
    let (x, rest) ← readValue? p fuel depth cs
    match skipBlanks rest with
    | ',' :: rest => do
      let (xs, rest) ← readElements? p fuel depth rest
      some (x :: xs, rest)
    | ']' :: rest => some ([x], rest)
    | _ => none

/-- Reads the members of an object up to its end. -/
def readMembers? (p : Precision) (fuel depth : Nat) (cs : List Char) :
    Option (List (String × Json) × List Char) :=
  match fuel with
  | 0 => none
  | fuel + 1 =>
    match skipBlanks cs with
    | '"' :: rest => do
      let (name, rest) ← readString? rest
      match skipBlanks rest with
      | ':' :: rest => do
        let (x, rest) ← readValue? p fuel depth rest
        match skipBlanks rest with
        | ',' :: rest => do
          let (ms, rest) ← readMembers? p fuel depth rest
          some ((String.ofList name, x) :: ms, rest)
        | '\x7d' :: rest => some ([(String.ofList name, x)], rest)
        | _ => none
      | _ => none
    | _ => none

end

/-- Reads a value that takes the whole text. -/
def readWith? (p : Precision) (s : String) : Option Json := do
  let cs := s.toList
  let (v, rest) ← readValue? p (2 * cs.length + 2) nestingLimit cs
  if (skipBlanks rest).isEmpty then some v else none

/-- Reads a value that takes the whole text, with each double the nearest one. -/
def read? (s : String) : Option Json := readWith? .nearest s

end WitnessLedger.Json
