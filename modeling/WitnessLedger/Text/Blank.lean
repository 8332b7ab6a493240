/-! # Blank characters

The White_Space property of Unicode, and trimming a text at both ends.  A name that
consists of blanks only counts as missing everywhere in the ledger. -/

namespace WitnessLedger.Text

/-- Whether a character has the White_Space property: the ASCII blanks, the next-line
    character, and the spaces and separators beyond ASCII.  The zero-width characters
    U+200B, U+180E and U+FEFF are not blank. -/
def isBlank (c : Char) : Bool :=
  let n := c.toNat
  (9 ≤ n && n ≤ 13) || n == 0x20 || n == 0x85 || n == 0xA0 || n == 0x1680
    || (0x2000 ≤ n && n ≤ 0x200A) || n == 0x2028 || n == 0x2029 || n == 0x202F
    || n == 0x205F || n == 0x3000

/-- Drops the blanks at the front. -/
def trimStart (cs : List Char) : List Char := cs.dropWhile isBlank

/-- Drops the blanks at the back. -/
def trimEnd (cs : List Char) : List Char := (cs.reverse.dropWhile isBlank).reverse

/-- Drops the blanks at both ends. -/
def trim (cs : List Char) : List Char := trimEnd (trimStart cs)

/-- Whether a text is empty or holds blanks only, so that trimming leaves nothing. -/
def isBlankText (s : String) : Bool := s.toList.all isBlank

/-- Trims a string at both ends. -/
def trimmed (s : String) : String := String.ofList (trim s.toList)

end WitnessLedger.Text
