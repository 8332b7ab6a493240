/-! # Decimal numerals

Writing a natural number in decimal and reading it back (`value_digits`), zero padding, and
the readings that a bounded integer allows: an unsigned one takes an optional plus sign, a
signed one either sign. -/

namespace WitnessLedger.Text.Numeral

/-- The decimal digit for a number below ten. -/
def digit (d : Nat) : Char := Char.ofNat (48 + d)

/-- The decimal digits of a number, without leading zeros; zero is one digit. -/
def digits (n : Nat) : List Char :=
  if n < 10 then [digit n] else digits (n / 10) ++ [digit (n % 10)]

/-- The number that a list of decimal digits denotes. -/
def value (cs : List Char) : Nat := cs.foldl (fun n c => 10 * n + (c.toNat - 48)) 0

theorem toNat_digit {d : Nat} (h : d < 10) : (digit d).toNat = 48 + d := by
  have : ∀ d < 10, (digit d).toNat = 48 + d := by decide
  exact this d h

theorem isDigit_digit {d : Nat} (h : d < 10) : (digit d).isDigit = true := by
  have : ∀ d < 10, (digit d).isDigit = true := by decide
  exact this d h

/-- What is written is read back. -/
theorem value_digits (n : Nat) : value (digits n) = n := by
  induction n using Nat.strongRecOn with
  | _ n ih =>
    rw [digits]
    split
    · next h => simp [value, toNat_digit h]
    · next h =>
      have := ih (n / 10) (by omega)
      simp only [value, List.foldl_append, List.foldl_cons, List.foldl_nil] at this ⊢
      rw [this, toNat_digit (by omega)]
      omega

/-- Different numbers have different digits. -/
theorem digits_inj {n n' : Nat} (h : digits n = digits n') : n = n' := by
  rw [← value_digits n, h, value_digits]

theorem isDigit_of_mem_digits {n : Nat} {c : Char} (h : c ∈ digits n) : c.isDigit = true := by
  induction n using Nat.strongRecOn with
  | _ n ih =>
    rw [digits] at h
    split at h
    · next hn => simp only [List.mem_singleton] at h; subst h; exact isDigit_digit hn
    · next hn =>
      rcases List.mem_append.1 h with h | h
      · exact ih (n / 10) (by omega) h
      · simp only [List.mem_singleton] at h; subst h; exact isDigit_digit (by omega)

/-- The decimal text of a number. -/
def text (n : Nat) : String := String.ofList (digits n)

/-- The decimal text of an integer, with a minus sign below zero. -/
def intDigits : Int → List Char
  | .ofNat n => digits n
  | .negSucc n => '-' :: digits (n + 1)

/-- The digits of a number, filled with zeros at the front to a least width. -/
def padded (width n : Nat) : List Char :=
  let ds := digits n
  List.replicate (width - ds.length) '0' ++ ds

/-- Reads a non-empty run of digits that takes the whole text. -/
def read? (cs : List Char) : Option Nat :=
  if cs.isEmpty || !cs.all Char.isDigit then none else some (value cs)

/-- Reads an unsigned number below a bound; a plus sign may stand in front. -/
def readUnsigned? (bound : Nat) (cs : List Char) : Option Nat := do
  let n ← read? (match cs with | '+' :: rest => rest | _ => cs)
  if n < bound then some n else none

/-- Signed numbers of 64 bits lie below this bound, and not below its negation. -/
def signedBound : Nat := 0x8000_0000_0000_0000

/-- Reads a signed number of at most 64 bits; either sign may stand in front. -/
def readSigned? (cs : List Char) : Option Int :=
  match cs with
  | '-' :: rest => do
    let n ← read? rest
    if n ≤ signedBound then some (-(n : Int)) else none
  | _ => (readUnsigned? signedBound cs).map Int.ofNat

end WitnessLedger.Text.Numeral
