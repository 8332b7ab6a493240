import WitnessLedger.Text.Hex
import WitnessLedger.Text.Concealed

/-! # Quoted text

A text between quotation marks, as error messages show the parts they speak of.  The
quotation mark, the backslash and four control characters have short forms, the other
concealed characters are written by number, and all else stands for itself. -/

namespace WitnessLedger.Text.Quoted

/-- The short form of a control character or backslash that has one. -/
def shortForm? : Char → Option (List Char)
  | '\x00' => some ['\\', '0']
  | '\t' => some ['\\', 't']
  | '\n' => some ['\\', 'n']
  | '\r' => some ['\\', 'r']
  | '\\' => some ['\\', '\\']
  | _ => none

/-- The lowercase hexadecimal digits of a number, without leading zeros. -/
def hexDigits (n : Nat) : List Char :=
  if n < 16 then [Hex.digit n] else hexDigits (n / 16) ++ [Hex.digit (n % 16)]

/-- One character inside a pair of marks. -/
def encodeChar (mark c : Char) : List Char :=
  if c = mark then ['\\', mark]
  else
    match shortForm? c with
    | some form => form
    | none => if isConcealed c then "\\u\x7b".toList ++ hexDigits c.toNat ++ ['\x7d'] else [c]

/-- A text between a pair of marks. -/
def encode (mark : Char) (cs : List Char) : List Char :=
  mark :: cs.flatMap (encodeChar mark) ++ [mark]

/-- A text in double quotes. -/
def text (s : String) : String := String.ofList (encode '"' s.toList)

/-- A single character in single quotes. -/
def character (c : Char) : String := String.ofList (encode '\'' [c])

/-- A list of texts in double quotes, between square brackets. -/
def texts (parts : List String) : String := "[" ++ ", ".intercalate (parts.map text) ++ "]"

end WitnessLedger.Text.Quoted
