import WitnessLedger.Time.Instant
import WitnessLedger.Text.Blank

/-! # Reading an instant

A date, one of `T`, `t` or a space, a time with an optional fraction, and a zone.  Blanks may
stand before every number and every dash or colon of the date and the time.  The moment is
kept in universal time. -/

namespace WitnessLedger.Instant

/-- A number of at most `width` digits after optional blanks, below a bound. -/
def readNumber? (width bound : Nat) (cs : List Char) : Option (Nat × List Char) := do
  let cs := Text.trimStart cs
  let ds := (cs.takeWhile Char.isDigit).take width
  let n ← Text.Numeral.read? ds
  if n < bound then some (n, cs.drop ds.length) else none

/-- A year: a sign and any number of digits, or at most four digits. -/
def readYear? (cs : List Char) : Option (Int × List Char) :=
  match Text.trimStart cs with
  | '-' :: ds => (readSigned? ds).map fun (n, rest) => (-(n : Int), rest)
  | '+' :: ds => (readSigned? ds).map fun (n, rest) => ((n : Int), rest)
  | ds => (readNumber? 4 10000 ds).map fun (n, rest) => ((n : Int), rest)
where
  /-- The digits after a sign follow it at once. -/
  readSigned? (cs : List Char) : Option (Nat × List Char) := do
    let ds := cs.takeWhile Char.isDigit
    let n ← Text.Numeral.read? ds
    some (n, cs.drop ds.length)

/-- A given character after optional blanks. -/
def readMark? (mark : Char) (cs : List Char) : Option (List Char) :=
  match Text.trimStart cs with
  | c :: rest => if c = mark then some rest else none
  | [] => none

/-- A date whose month and day exist. -/
def readDate? (cs : List Char) : Option (Date × List Char) := do
  let (year, cs) ← readYear? cs
  let (month, cs) ← readNumber? 2 13 (← readMark? '-' cs)
  let (day, cs) ← readNumber? 2 32 (← readMark? '-' cs)
  let date : Date := ⟨year, month, day⟩
  if date.exists? then some (date, cs) else none

/-- The nanoseconds of an optional fraction; digits after the ninth are skipped. -/
def readFraction? : List Char → Option (Nat × List Char)
  | '.' :: cs =>
    let ds := cs.takeWhile Char.isDigit
    let used := ds.take 9
    (Text.Numeral.read? used).map fun n => (n * Nat.pow 10 (9 - used.length), cs.drop ds.length)
  | cs => some (0, cs)

/-- A time of day as seconds and nanoseconds.  Second 60 is the leap second that extends
    second 59. -/
def readTime? (cs : List Char) : Option ((Nat × Nat) × List Char) := do
  let (hour, cs) ← readNumber? 2 24 cs
  let (minute, cs) ← readNumber? 2 60 (← readMark? ':' cs)
  let (second, cs) ← readNumber? 2 61 (← readMark? ':' cs)
  let (nanos, cs) ← readFraction? cs
  let inDay := 3600 * hour + 60 * minute
  if second = 60 then some ((inDay + 59, nanos + nanosPerSecond), cs)
  else some ((inDay + second, nanos), cs)

/-- Two digits with nothing before them. -/
def readTwoDigits? (bound : Nat) : List Char → Option (Nat × List Char)
  | a :: b :: rest => do
    let n ← Text.Numeral.read? [a, b]
    if n < bound then some (n, rest) else none
  | _ => none

/-- A sign, hours and minutes, with any colons and blanks between the two. -/
def readOffset? (negative : Bool) (cs : List Char) : Option (Int × List Char) := do
  let (hours, cs) ← readTwoDigits? 100 cs
  let (minutes, cs) ← readTwoDigits? 60 (cs.dropWhile fun c => c = ':' || Text.isBlank c)
  let seconds : Int := 3600 * hours + 60 * minutes
  if seconds < 86400 then some (if negative then -seconds else seconds, cs) else none

/-- The zone of a text as the seconds that its clock is ahead. -/
def readZone? : List Char → Option (Int × List Char)
  | 'Z' :: cs => some (0, cs)
  | 'z' :: cs => some (0, cs)
  | '+' :: cs => readOffset? false cs
  | '-' :: cs => readOffset? true cs
  | '\u2212' :: cs => readOffset? true cs
  | a :: b :: c :: cs =>
    if String.ofList ([a, b, c].map Char.toLower) = "utc" then some (0, cs) else none
  | _ => none

/-- The first and the last year of the calendar. -/
def yearInRange (year : Int) : Bool := -262143 ≤ year && year ≤ 262142

/-- Reads an instant. -/
def read? (s : String) : Option Instant := do
  let (date, cs) ← readDate? s.toList
  if !yearInRange date.year then none
  let cs ← match cs with
    | c :: rest => if c = 'T' || c = 't' || c = ' ' then some rest else none
    | [] => none
  let ((inDay, nanos), cs) ← readTime? cs
  let (ahead, cs) ← readZone? (Text.trimStart cs)
  if !cs.all Text.isBlank then none
  ofParts? (86400 * date.toDays + inDay - ahead) nanos

end WitnessLedger.Instant
