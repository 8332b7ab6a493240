import WitnessLedger.Json.Basic
import WitnessLedger.Double.Printer
import WitnessLedger.Text.Hex

/-! # Writing JSON

The compact form has no blanks.  The wide form puts every element and member on a line of its
own, two blanks deeper than what it stands in; an empty array or object stays on one line. -/

namespace WitnessLedger.Json

/-- One character of a string.  The control characters below the space are escaped, five of
    them with a letter. -/
def escape (c : Char) : List Char :=
  match c with
  | '"' => ['\\', '"']
  | '\\' => ['\\', '\\']
  | '\x08' => ['\\', 'b']
  | '\x0c' => ['\\', 'f']
  | '\n' => ['\\', 'n']
  | '\r' => ['\\', 'r']
  | '\t' => ['\\', 't']
  | _ => if c.toNat < 32 then "\\u00".toList ++ Text.Hex.ofByte (UInt8.ofNat c.toNat) else [c]

/-- A string between its quotation marks. -/
def quote (s : String) : List Char := '"' :: s.toList.flatMap escape ++ ['"']

/-- A value that has no parts. -/
def scalar : Json → List Char
  | .null => "null".toList
  | .bool true => "true".toList
  | .bool false => "false".toList
  | .integer n => Text.Numeral.intDigits n
  | .real s a => Layout.document.signed s a
  | .string s => quote s
  | _ => []

mutual

/-- The compact form. -/
def characters : Json → List Char
  | .array [] => ['[', ']']
  | .array (x :: xs) => '[' :: x.characters ++ elementCharacters xs
  | .object [] => ['\x7b', '\x7d']
  | .object ((k, x) :: rest) => '\x7b' :: quote k ++ ':' :: x.characters ++ memberCharacters rest
  | .null => scalar .null
  | .bool b => scalar (.bool b)
  | .integer n => scalar (.integer n)
  | .real s a => scalar (.real s a)
  | .string s => scalar (.string s)

/-- The elements after the first, and the bracket that ends them. -/
def elementCharacters : List Json → List Char
  | [] => [']']
  | x :: xs => ',' :: x.characters ++ elementCharacters xs

/-- The members after the first, and the brace that ends them. -/
def memberCharacters : List (String × Json) → List Char
  | [] => ['\x7d']
  | (k, x) :: rest => ',' :: quote k ++ ':' :: x.characters ++ memberCharacters rest

end

/-- The compact text. -/
def text (v : Json) : String := String.ofList v.characters

/-- The start of a line at a depth. -/
def newLine (depth : Nat) : List Char := '\n' :: List.replicate (2 * depth) ' '

mutual

/-- The wide form at a depth. -/
def wideCharacters (depth : Nat) : Json → List Char
  | .array [] => ['[', ']']
  | .array (x :: xs) =>
    '[' :: newLine (depth + 1) ++ wideCharacters (depth + 1) x ++ wideElements depth xs
  | .object [] => ['\x7b', '\x7d']
  | .object ((k, x) :: rest) =>
    '\x7b' :: newLine (depth + 1) ++ quote k ++ ':' :: ' ' :: wideCharacters (depth + 1) x
      ++ wideMembers depth rest
  | .null => scalar .null
  | .bool b => scalar (.bool b)
  | .integer n => scalar (.integer n)
  | .real s a => scalar (.real s a)
  | .string s => scalar (.string s)

/-- The elements after the first in wide form. -/
def wideElements (depth : Nat) : List Json → List Char
  | [] => newLine depth ++ [']']
  | x :: xs =>
    ',' :: newLine (depth + 1) ++ wideCharacters (depth + 1) x ++ wideElements depth xs

/-- The members after the first in wide form. -/
def wideMembers (depth : Nat) : List (String × Json) → List Char
  | [] => newLine depth ++ ['\x7d']
  | (k, x) :: rest =>
    ',' :: newLine (depth + 1) ++ quote k ++ ':' :: ' ' :: wideCharacters (depth + 1) x
      ++ wideMembers depth rest

end

/-- The wide text. -/
def wideText (v : Json) : String := String.ofList (wideCharacters 0 v)

end WitnessLedger.Json
