import WitnessLedger.Proofs.Time.Text
import WitnessLedger.Text.Split

/-!
# Instants that are signed

The text of an instant that a vote signs tells all instants apart, in all years and with fractions
of any length.  The date ends at the only `T`, and its month and day have a fixed width; the time of
day is read back.

## Key results

- `yearText_inj`, `dateCharacters_inj`: years and dates are told apart by their texts
- `readTime?_clock`: the time of day is read back, with its fraction and its leap second
- `signedText_inj`: instants are told apart by their signed texts
- `count_colon_signedCharacters`: the number of colons does not depend on the instant
-/

namespace WitnessLedger.Instant

open Text.Numeral

theorem notMem_padded {c : Char} (hc : c.isDigit = false) (width n : Nat) : c ∉ padded width n := by
  intro hmem
  rw [isDigit_of_mem_padded hmem] at hc
  cases hc

/-! ## Dates -/

/-- The year that a sign and digits denote. -/
def yearOf : List Char → Int
  | '-' :: ds => -(value ds : Int)
  | '+' :: ds => value ds
  | ds => value ds

theorem yearOf_padded (width n : Nat) : yearOf (padded width n) = n := by
  unfold yearOf
  split
  · next h => exact absurd (h ▸ List.mem_cons_self ..) (notMem_padded (by decide) width n)
  · next h => exact absurd (h ▸ List.mem_cons_self ..) (notMem_padded (by decide) width n)
  · rw [value_padded]

theorem yearOf_yearText (year : Int) : yearOf (yearText year) = year := by
  simp only [yearText]
  split
  · show -(value (padded 4 year.natAbs) : Int) = year
    rw [value_padded]
    omega
  · split
    · show (value (padded 4 year.natAbs) : Int) = year
      rw [value_padded]
      omega
    · rw [yearOf_padded]
      omega

/-- Years are told apart by their texts. -/
theorem yearText_inj {year year' : Int} (h : yearText year = yearText year') : year = year' := by
  rw [← yearOf_yearText year, h, yearOf_yearText]

/-- A date as it is written. -/
def dateCharacters (d : Date) : List Char :=
  yearText d.year ++ '-' :: (padded 2 d.month ++ '-' :: padded 2 d.day)

theorem notMem_dateCharacters {c : Char} (hc : c.isDigit = false) (hminus : c ≠ '-')
    (hplus : c ≠ '+') (d : Date) : c ∉ dateCharacters d := by
  have hyear : c ∉ yearText d.year := by
    simp only [yearText]
    split
    · simp [hminus, notMem_padded hc]
    · split
      · simp [hplus, notMem_padded hc]
      · exact notMem_padded hc _ _
  simp [dateCharacters, hyear, hminus, notMem_padded hc]

/-- Dates that exist are told apart by their texts. -/
theorem dateCharacters_inj {d d' : Date} (hd : d.exists? = true) (hd' : d'.exists? = true)
    (h : dateCharacters d = dateCharacters d') : d = d' := by
  -- months and days have two digits
  have hlength : ∀ x : Date, x.exists? = true →
      (padded 2 x.month).length = 2 ∧ (padded 2 x.day).length = 2 := by
    intro x hx
    simp only [Date.exists?, Bool.and_eq_true, decide_eq_true_eq] at hx
    have hlast : Date.daysInMonth x.year x.month ≤ 31 := by
      rw [Date.daysInMonth]
      split
      · split <;> decide
      · split <;> decide
    exact ⟨length_padded (by decide) (by omega), length_padded (by decide) (by omega)⟩
  obtain ⟨hmonth, hday⟩ := hlength d hd
  obtain ⟨hmonth', hday'⟩ := hlength d' hd'
  simp only [dateCharacters] at h
  obtain ⟨hyears, h⟩ := List.append_inj' h (by simp [hmonth, hmonth', hday, hday'])
  obtain ⟨hmonths, h⟩ := List.append_inj (List.cons.inj h).2 (hmonth.trans hmonth'.symm)
  have hdays := (List.cons.inj h).2
  have hyear := yearText_inj hyears
  have hmonth : d.month = d'.month := by rw [← value_padded 2 d.month, hmonths, value_padded]
  have hday : d.day = d'.day := by rw [← value_padded 2 d.day, hdays, value_padded]
  cases d
  cases d'
  simp only at hyear hmonth hday
  rw [hyear, hmonth, hday]

/-! ## Times of day -/

/-- The time of day of an instant as it is written, with its fraction. -/
def clockCharacters (t : Instant) : List Char :=
  let inDay := (t.seconds % 86400).toNat
  padded 2 (inDay / 3600) ++ ':' :: (padded 2 (inDay / 60 % 60) ++ ':' ::
    (padded 2 (inDay % 60 + t.nanos / nanosPerSecond) ++ shortFraction (t.nanos % nanosPerSecond)))

/-- The time of day is read back, with its fraction and its leap second. -/
theorem readTime?_clock (t : Instant) {c : Char} (hc : c.isDigit = false) (hpoint : c ≠ '.')
    (rest : List Char) :
    readTime? (t.clockCharacters ++ c :: rest) =
      some (((t.seconds % 86400).toNat, t.nanos), c :: rest) := by
  have hleap := t.leap_cases
  have hsplit := Nat.div_add_mod t.nanos nanosPerSecond
  have hless : t.nanos % nanosPerSecond < nanosPerSecond := Nat.mod_lt _ (by decide)
  have hinDay : (t.seconds % 86400).toNat < 86400 := by omega
  simp only [clockCharacters, List.append_assoc, List.cons_append]
  generalize (t.seconds % 86400).toNat = inDay at *
  generalize t.nanos / nanosPerSecond = leap at *
  generalize t.nanos % nanosPerSecond = nanos at *
  rw [readTime?_parts (by omega) (by omega) (by omega) hless hc hpoint]
  rcases hleap with hzero | ⟨hone, hlast⟩
  · rw [hzero, Nat.mul_zero, Nat.zero_add] at hsplit
    rw [if_neg (by omega), hsplit]
    have hback : 3600 * (inDay / 3600) + 60 * (inDay / 60 % 60) + (inDay % 60 + leap) = inDay := by
      omega
    rw [hback]
  · rw [hone, Nat.mul_one, Nat.add_comm] at hsplit
    rw [if_pos (by omega), hsplit]
    have hback : 3600 * (inDay / 3600) + 60 * (inDay / 60 % 60) + 59 = inDay := by omega
    rw [hback]

/-! ## Signed texts -/

/-- A signed text is the date, a `T`, the time of day and the zone. -/
theorem signedCharacters_eq (t : Instant) :
    t.signedCharacters = dateCharacters (Date.ofDays (t.seconds / 86400)) ++
      'T' :: (t.clockCharacters ++ ['+', '0', '0', ':', '0', '0']) := by
  simp only [signedCharacters, characters, dateCharacters, clockCharacters, List.append_assoc,
    List.cons_append]
  rfl

/-- Instants are told apart by the texts that votes sign. -/
theorem signedText_inj {t t' : Instant} (h : t.signedText = t'.signedText) : t = t' := by
  have hchars : t.signedCharacters = t'.signedCharacters := String.ofList_inj.1 h
  rw [signedCharacters_eq, signedCharacters_eq] at hchars
  have hmark : ∀ d, 'T' ∉ dateCharacters d :=
    notMem_dateCharacters (by decide) (by decide) (by decide)
  obtain ⟨hdates, hclocks⟩ := Text.append_cons_inj (hmark _) (hmark _) hchars
  have hdate := dateCharacters_inj (Date.exists?_ofDays _) (Date.exists?_ofDays _) hdates
  have hdays : t.seconds / 86400 = t'.seconds / 86400 := by
    rw [← Date.toDays_ofDays (t.seconds / 86400), hdate, Date.toDays_ofDays]
  have htimes := t.readTime?_clock (c := '+') (by decide) (by decide) ['0', '0', ':', '0', '0']
  rw [hclocks, t'.readTime?_clock (by decide) (by decide)] at htimes
  simp only [Option.some.injEq, Prod.mk.injEq] at htimes
  obtain ⟨⟨hinDay, hnanos⟩, -⟩ := htimes
  have hseconds : t.seconds = t'.seconds := by omega
  cases t
  cases t'
  simp only at hseconds hnanos
  subst hseconds hnanos
  rfl

theorem notMem_shortFraction {c : Char} (hc : c.isDigit = false) (hpoint : c ≠ '.') (nanos : Nat) :
    c ∉ shortFraction nanos := by
  rw [shortFraction]
  split
  · exact List.not_mem_nil
  · split
    · simp [hpoint, notMem_padded hc]
    · split
      · simp [hpoint, notMem_padded hc]
      · simp [fullFraction, hpoint, notMem_padded hc]

/-- Every signed text has three colons: two in the time of day and one in the zone. -/
theorem count_colon_signedCharacters (t : Instant) : t.signedCharacters.count ':' = 3 := by
  have hdate : ∀ d, (dateCharacters d).count ':' = 0 := fun d =>
    List.count_eq_zero.2 (notMem_dateCharacters (by decide) (by decide) (by decide) d)
  have hpadded : ∀ n, (padded 2 n).count ':' = 0 := fun n =>
    List.count_eq_zero.2 (notMem_padded (by decide) 2 n)
  have hfraction : ∀ n, (shortFraction n).count ':' = 0 := fun n =>
    List.count_eq_zero.2 (notMem_shortFraction (by decide) (by decide) n)
  rw [signedCharacters_eq]
  simp [List.count_append, clockCharacters, hdate, hpadded, hfraction]

end WitnessLedger.Instant
