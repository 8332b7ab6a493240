import WitnessLedger.Time.Calendar
import WitnessLedger.Text.Numeral

/-! # Instants

A moment in universal time: whole seconds since the first of January 1970 and a fraction in
nanoseconds.  A leap second extends the last second of a minute, its fraction starting at one
second, and is written as second 60.

Three texts differ in the fraction and in how the zone is named: reports always show nine
fraction digits, documents as many groups of three as are needed, and the text that a vote
signs names the zone by its offset. -/

namespace WitnessLedger

/-- The number of nanoseconds in a second. -/
def Instant.nanosPerSecond : Nat := 1_000_000_000

/-- Whether seconds lie in the years from -262143 to 262142, and nanoseconds below one second,
    or below two in the last second of a minute. -/
def Instant.InRange (seconds : Int) (nanos : Nat) : Prop :=
  -8334601228800 ≤ seconds ∧ seconds ≤ 8210266876799 ∧
    (nanos < Instant.nanosPerSecond ∨
      nanos < 2 * Instant.nanosPerSecond ∧ seconds % 60 = 59)

/-- A moment in universal time. -/
structure Instant where
  seconds : Int
  nanos : Nat
  inRange : Instant.InRange seconds nanos
  deriving DecidableEq

namespace Instant

instance (seconds : Int) (nanos : Nat) : Decidable (InRange seconds nanos) :=
  inferInstanceAs (Decidable (_ ∧ _))

/-- The first of January 1970. -/
def epoch : Instant := ⟨0, 0, by decide⟩

instance : Inhabited Instant := ⟨epoch⟩

/-- The moment with the given parts, where they are in range. -/
def ofParts? (seconds : Int) (nanos : Nat) : Option Instant :=
  if h : InRange seconds nanos then some ⟨seconds, nanos, h⟩ else none

/-- Whether one moment is not after another. -/
def le (a b : Instant) : Bool :=
  a.seconds < b.seconds || (a.seconds == b.seconds && a.nanos ≤ b.nanos)

/-- Moves a moment by milliseconds.  Inside a leap second it may stay there; on leaving one,
    the leap second counts as the second before it on the way forward and as the one after it
    on the way back. -/
def advance? (t : Instant) (milliseconds : Int) : Option Instant :=
  let whole := milliseconds.tdiv 1000
  let part := milliseconds.tmod 1000 * 1_000_000
  let moved (seconds fraction : Int) : Option Instant :=
    let total := fraction + part
    ofParts? (seconds + whole + total / nanosPerSecond) (total % nanosPerSecond).toNat
  -- An ordinary moment: the two fractions are added and whole seconds are carried.
  if t.nanos < nanosPerSecond then moved t.seconds t.nanos
  -- Out of a leap second, forward.
  else if 0 < whole || (0 < part && 2 * nanosPerSecond ≤ t.nanos + part) then
    moved t.seconds (t.nanos - nanosPerSecond)
  -- Out of a leap second, back by a second or more.
  else if whole < 0 then moved (t.seconds + 1) (t.nanos - nanosPerSecond)
  -- Within the same clock second, so the fraction alone changes.
  else ofParts? t.seconds (t.nanos + part).toNat

/-- A year has four digits, or a sign and at least four where it lies outside 0 to 9999. -/
def yearText (year : Int) : List Char :=
  let ds := Text.Numeral.padded 4 year.natAbs
  if year < 0 then '-' :: ds else if 9999 < year then '+' :: ds else ds

/-- The fraction of a second, in nine digits. -/
def fullFraction (nanos : Nat) : List Char := '.' :: Text.Numeral.padded 9 nanos

/-- The fraction of a second, in the fewest groups of three digits that are exact. -/
def shortFraction (nanos : Nat) : List Char :=
  if nanos = 0 then []
  else if nanos % 1_000_000 = 0 then '.' :: Text.Numeral.padded 3 (nanos / 1_000_000)
  else if nanos % 1000 = 0 then '.' :: Text.Numeral.padded 6 (nanos / 1000)
  else fullFraction nanos

/-- A moment as date, time, fraction and zone. -/
def characters (fraction : Nat → List Char) (zone : List Char) (t : Instant) : List Char :=
  let date := Date.ofDays (t.seconds / 86400)
  let inDay := (t.seconds % 86400).toNat
  let leap := t.nanos / nanosPerSecond
  let two := Text.Numeral.padded 2
  yearText date.year ++ '-' :: two date.month ++ '-' :: two date.day
    ++ 'T' :: two (inDay / 3600) ++ ':' :: two (inDay / 60 % 60)
    ++ ':' :: two (inDay % 60 + leap) ++ fraction (t.nanos % nanosPerSecond) ++ zone

/-- The text of reports. -/
def reportText (t : Instant) : String := String.ofList (t.characters fullFraction ['Z'])

/-- The text of documents. -/
def text (t : Instant) : String := String.ofList (t.characters shortFraction ['Z'])

/-- The text that a vote signs. -/
def signedCharacters (t : Instant) : List Char := t.characters shortFraction "+00:00".toList

/-- The text that a vote signs. -/
def signedText (t : Instant) : String := String.ofList t.signedCharacters

end Instant

end WitnessLedger
