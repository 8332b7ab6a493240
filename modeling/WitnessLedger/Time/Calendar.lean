/-! # The calendar

The proleptic Gregorian calendar as a count of days from the first of January 1970.  Years are
counted from March, so that the leap day comes last, in eras of 400 years. -/

namespace WitnessLedger

/-- A day of the calendar. -/
structure Date where
  year : Int
  month : Nat
  day : Nat
  deriving DecidableEq

namespace Date

/-- The number of days in 400 years. -/
def eraDays : Nat := 146097

/-- The days from the first of March of year zero to the first of January 1970. -/
def epochOffset : Int := 719468

/-- Whether a year has a leap day. -/
def isLeapYear (year : Int) : Bool := year % 4 == 0 && (year % 100 != 0 || year % 400 == 0)

/-- The number of days in a month. -/
def daysInMonth (year : Int) (month : Nat) : Nat :=
  if month = 2 then if isLeapYear year then 29 else 28
  else if month = 4 ∨ month = 6 ∨ month = 9 ∨ month = 11 then 30
  else 31

/-- Whether the month and the day exist. -/
def exists? (d : Date) : Bool :=
  1 ≤ d.month && d.month ≤ 12 && 1 ≤ d.day && d.day ≤ daysInMonth d.year d.month

/-- The days from the first of January 1970 to a day. -/
def toDays (d : Date) : Int :=
  let year := if d.month ≤ 2 then d.year - 1 else d.year
  let yearOfEra := (year % 400).toNat
  let monthFromMarch := (d.month + 9) % 12
  let dayOfYear := (153 * monthFromMarch + 2) / 5 + (d.day - 1)
  let dayOfEra := 365 * yearOfEra + yearOfEra / 4 - yearOfEra / 100 + dayOfYear
  year / 400 * eraDays + dayOfEra - epochOffset

/-- The day that is a number of days after the first of January 1970. -/
def ofDays (days : Int) : Date :=
  let shifted := days + epochOffset
  let dayOfEra := (shifted % eraDays).toNat
  let yearOfEra := (dayOfEra - dayOfEra / 1460 + dayOfEra / 36524 - dayOfEra / 146096) / 365
  let dayOfYear := dayOfEra - (365 * yearOfEra + yearOfEra / 4 - yearOfEra / 100)
  let monthFromMarch := (5 * dayOfYear + 2) / 153
  let month := if monthFromMarch < 10 then monthFromMarch + 3 else monthFromMarch - 9
  let year := shifted / eraDays * 400 + yearOfEra
  { year := if month ≤ 2 then year + 1 else year, month
    day := dayOfYear - (153 * monthFromMarch + 2) / 5 + 1 }

end Date

end WitnessLedger
