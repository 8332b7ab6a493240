import WitnessLedger.Time.Calendar
import Mathlib.Data.Nat.Init

/-!
# The calendar counts days

A day of an era of 400 years has a year and a day of this year, counted from March, and a day of
the year has a month and a day of this month.  Each of the two steps has its inverse, so that the
date of a number of days is one that exists, and it is this number of days away from 1970.

## Key results

- `exists?_ofDays`: the date of a number of days exists
- `toDays_ofDays`: its days are counted back
-/

namespace WitnessLedger.Date

/-- The year of an era that a day of the era belongs to. -/
def yearOfEra (dayOfEra : Nat) : Nat :=
  (dayOfEra - dayOfEra / 1460 + dayOfEra / 36524 - dayOfEra / 146096) / 365

/-- The days of an era before a year of it. -/
def daysBefore (year : Nat) : Nat := 365 * year + year / 4 - year / 100

/-- The days of an era before the year after a year of it, which are one more after the last. -/
def daysUpTo (year : Nat) : Nat := daysBefore (year + 1) + (year + 1) / 400

theorem yearOfEra_succ {n : Nat} (h : n + 1 < eraDays) : yearOfEra n ≤ yearOfEra (n + 1) := by
  unfold eraDays at h
  unfold yearOfEra
  apply Nat.div_le_div_right
  by_cases hlast : n + 1 = 146096
  · -- the leap day of the era, which the last of the corrections is made for
    obtain rfl : n = 146095 := by omega
    decide
  · have hsame : n / 146096 = (n + 1) / 146096 := by omega
    have hfour : (n + 1) / 1460 ≤ n / 1460 + 1 := by omega
    have hcentury : n / 36524 ≤ (n + 1) / 36524 := by omega
    have hsmall : n / 1460 ≤ n := by omega
    omega

/-- A later day belongs to no earlier year. -/
theorem yearOfEra_mono {m n : Nat} (h : m ≤ n) (hn : n < eraDays) :
    yearOfEra m ≤ yearOfEra n := by
  induction n, h using Nat.le_induction with
  | base => exact Nat.le_refl _
  | succ n hmn ih => exact Nat.le_trans (ih (by omega)) (yearOfEra_succ hn)

/-- The first and the last day of each year belong to it. -/
theorem yearOfEra_ends : ∀ y < 400, yearOfEra (daysBefore y) = y ∧
    yearOfEra (daysUpTo y - 1) = y ∧ daysBefore y < daysUpTo y ∧ daysUpTo y ≤ eraDays := by
  decide +kernel

theorem exists_year_of_lt {n : Nat} (m : Nat) (h : n < daysBefore m) :
    ∃ y < m, daysBefore y ≤ n ∧ n < daysBefore (y + 1) := by
  induction m with
  | zero => exact absurd h (Nat.not_lt_zero n)
  | succ m ih =>
    by_cases hm : n < daysBefore m
    · obtain ⟨y, hy, hdays⟩ := ih hm
      exact ⟨y, by omega, hdays⟩
    · exact ⟨m, by omega, by omega, h⟩

theorem exists_year {n : Nat} (h : n < eraDays) :
    ∃ y < 400, daysBefore y ≤ n ∧ n < daysUpTo y := by
  by_cases hlast : n = daysBefore 400
  · exact ⟨399, by decide, by rw [hlast]; decide, by rw [hlast]; decide⟩
  · have hall : daysBefore 400 + 1 = eraDays := by decide
    obtain ⟨y, hy, hfirst, hnext⟩ := exists_year_of_lt 400 (show n < daysBefore 400 by omega)
    exact ⟨y, hy, hfirst, Nat.lt_of_lt_of_le hnext (Nat.le_add_right ..)⟩

/-- A day of an era lies in its year. -/
theorem yearOfEra_spec {n : Nat} (h : n < eraDays) :
    yearOfEra n < 400 ∧ daysBefore (yearOfEra n) ≤ n ∧ n < daysUpTo (yearOfEra n) := by
  obtain ⟨y, hy, hfirst, hlast⟩ := exists_year h
  obtain ⟨hstart, hend, hlt, hle⟩ := yearOfEra_ends y hy
  have heq : yearOfEra n = y := by
    have hlower := yearOfEra_mono hfirst h
    have hupper := yearOfEra_mono (show n ≤ daysUpTo y - 1 by omega) (by omega)
    omega
  rw [heq]
  exact ⟨hy, hfirst, hlast⟩

/-- The days of a year, counted from March, before a month of it, counted from March as well. -/
def daysBeforeMonth (month : Nat) : Nat := (153 * month + 2) / 5

/-- The month that a day of a year belongs to. -/
def monthOfYear (dayOfYear : Nat) : Nat := (5 * dayOfYear + 2) / 153

/-- The name of a month, counted from January. -/
def monthName (month : Nat) : Nat := if month < 10 then month + 3 else month - 9

/-- A day of a year lies in its month; only the last one of a leap year is the 29th of
    February. -/
theorem monthOfYear_spec : ∀ d < 366,
    monthOfYear d < 12 ∧ daysBeforeMonth (monthOfYear d) ≤ d ∧
      (monthName (monthOfYear d) ≤ 2 ↔ 10 ≤ monthOfYear d) ∧
      1 ≤ monthName (monthOfYear d) ∧ monthName (monthOfYear d) ≤ 12 ∧
      (monthName (monthOfYear d) + 9) % 12 = monthOfYear d ∧
      d - daysBeforeMonth (monthOfYear d) + 1 ≤
        if monthName (monthOfYear d) = 2 then if d = 365 then 29 else 28
        else if monthName (monthOfYear d) = 4 ∨ monthName (monthOfYear d) = 6 ∨
          monthName (monthOfYear d) = 9 ∨ monthName (monthOfYear d) = 11 then 30
        else 31 := by
  decide +kernel

/-- A year with 366 days, counted from March, ends with the leap day of the next year. -/
theorem isLeapYear_of_lt {era : Int} {y : Nat} (hy : y < 400)
    (h : daysBefore y + 365 < daysUpTo y) : isLeapYear (era * 400 + y + 1) = true := by
  -- the rule repeats with the eras
  have hrule : ∀ y < 400, daysBefore y + 365 < daysUpTo y →
      (y + 1) % 4 = 0 ∧ ((y + 1) % 100 ≠ 0 ∨ (y + 1) % 400 = 0) := by
    decide +kernel
  obtain ⟨hfour, hcentury⟩ := hrule y hy h
  have hyear : (era * 400 + y + 1) % 4 = 0 := by omega
  rcases hcentury with hcentury | hcentury
  · have hnot : (era * 400 + y + 1) % 100 ≠ 0 := by omega
    simp [isLeapYear, hyear, hnot]
  · have hera : (era * 400 + y + 1) % 400 = 0 := by omega
    simp [isLeapYear, hyear, hera]

theorem ofDays_eq (days : Int) :
    let era := (days + epochOffset) / eraDays
    let n := ((days + epochOffset) % eraDays).toNat
    let y := yearOfEra n
    let d := n - daysBefore y
    let m := monthOfYear d
    ofDays days =
      { year := if monthName m ≤ 2 then era * 400 + y + 1 else era * 400 + y
        month := monthName m, day := d - daysBeforeMonth m + 1 } := by
  rfl

/-- The parts of a date, as the steps of the computation have them. -/
theorem ofDays_spec (days : Int) :
    ∃ (era : Int) (y d m : Nat), y < 400 ∧ d < 366 ∧ m = monthOfYear d ∧
      (d = 365 → isLeapYear (era * 400 + y + 1) = true) ∧
      days = era * eraDays + (daysBefore y + d) - epochOffset ∧
      ofDays days =
        { year := if monthName m ≤ 2 then era * 400 + y + 1 else era * 400 + y
          month := monthName m, day := d - daysBeforeMonth m + 1 } := by
  have hera : (0 : Int) < eraDays := by decide
  have hn : ((days + epochOffset) % eraDays).toNat < eraDays := by
    have hlt := Int.emod_lt_of_pos (days + epochOffset) hera
    omega
  obtain ⟨hy, hfirst, hlast⟩ := yearOfEra_spec hn
  have hlength : ∀ y < 400, daysUpTo y ≤ daysBefore y + 366 := by decide +kernel
  have hyear := hlength _ hy
  refine ⟨(days + epochOffset) / eraDays, _, _, _, hy, ?_, rfl, fun hd => ?_, ?_, ofDays_eq days⟩
  · omega
  · exact isLeapYear_of_lt hy (by omega)
  · have hsplit := Int.mul_ediv_add_emod (days + epochOffset) eraDays
    have hpos := Int.emod_nonneg (days + epochOffset) (Int.ne_of_gt hera)
    have hwhole : (daysBefore (yearOfEra ((days + epochOffset) % eraDays).toNat) : Int) +
        (((days + epochOffset) % eraDays).toNat -
          daysBefore (yearOfEra ((days + epochOffset) % eraDays).toNat) : Nat) =
        (days + epochOffset) % eraDays := by
      omega
    rw [hwhole, Int.mul_comm]
    omega

/-- The date of a number of days exists. -/
theorem exists?_ofDays (days : Int) : (ofDays days).exists? = true := by
  obtain ⟨era, y, d, m, hy, hd, rfl, hleap, -, heq⟩ := ofDays_spec days
  obtain ⟨hm, hbefore, hname, hone, htwelve, -, hday⟩ := monthOfYear_spec d hd
  rw [heq, exists?]
  simp only [Bool.and_eq_true, decide_eq_true_eq]
  refine ⟨⟨⟨hone, htwelve⟩, by omega⟩, Nat.le_trans hday ?_⟩
  rw [daysInMonth]
  by_cases hfebruary : monthName (monthOfYear d) = 2
  · have hearly : monthName (monthOfYear d) ≤ 2 := by omega
    simp only [hfebruary, if_true, Nat.le_refl]
    split
    · next hlast => simp only [hleap hlast, if_true, Nat.le_refl]
    · split <;> decide
  · simp only [hfebruary, if_false, Nat.le_refl]

/-- The days of the date of a number of days are this number. -/
theorem toDays_ofDays (days : Int) : (ofDays days).toDays = days := by
  obtain ⟨era, y, d, m, hy, hd, rfl, -, hdays, heq⟩ := ofDays_spec days
  obtain ⟨hm, hbefore, hname, hone, htwelve, hback, -⟩ := monthOfYear_spec d hd
  have hyear : (if monthName (monthOfYear d) ≤ 2 then
      (if monthName (monthOfYear d) ≤ 2 then era * 400 + y + 1 else era * 400 + y) - 1
      else if monthName (monthOfYear d) ≤ 2 then era * 400 + y + 1 else era * 400 + y) =
      era * 400 + y := by
    split <;> omega
  have hmod : ((era * 400 + y) % 400).toNat = y := by omega
  have hdiv : (era * 400 + y) / 400 = era := by omega
  rw [heq, toDays]
  simp only [hyear, hmod, hdiv, hback]
  have hday :
      (153 * monthOfYear d + 2) / 5 + (d - daysBeforeMonth (monthOfYear d) + 1 - 1) = d := by
    rw [← daysBeforeMonth]
    omega
  rw [hday, hdays, daysBefore]
  rfl

end WitnessLedger.Date
