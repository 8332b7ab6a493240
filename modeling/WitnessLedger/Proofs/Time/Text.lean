import WitnessLedger.Time.Reader
import WitnessLedger.Proofs.Text.Blank
import WitnessLedger.Proofs.Text.Numeral
import WitnessLedger.Proofs.Time.Calendar

/-!
# Instants read back

The text of an instant of the years 0 to 9999 is read as the same instant, leap seconds and
fractions of any length included.

## Key results

- `readNumber?_padded`: a number of the expected width is read
- `readFraction?_short`: a fraction in the fewest groups of digits is read exactly
- `read?_text`: an instant is read back from its text
-/

namespace WitnessLedger.Instant

open Text.Numeral

/-- The year of an instant. -/
def year (t : Instant) : Int := (Date.ofDays (t.seconds / 86400)).year

/-- Whether an instant lies in the years that are written with four digits. -/
def InYears (t : Instant) : Prop := 0 ≤ t.year ∧ t.year ≤ 9999

instance (t : Instant) : Decidable t.InYears := inferInstanceAs (Decidable (_ ∧ _))

theorem padded_ne_nil {width : Nat} (hwidth : 0 < width) (n : Nat) : padded width n ≠ [] := by
  intro h
  have hlength := le_length_padded width n
  rw [h, List.length_nil] at hlength
  omega

/-- A number of the expected width is read, whatever follows it. -/
theorem readNumber?_padded {width bound n : Nat} (hwidth : 0 < width) (hn : n < 10 ^ width)
    (hbound : n < bound) (rest : List Char) :
    readNumber? width bound (padded width n ++ rest) = some (n, rest) := by
  have hdigits : ∀ c ∈ padded width n, c.isDigit = true := fun c hc => isDigit_of_mem_padded hc
  have hne := padded_ne_nil hwidth n
  have hlength := length_padded hwidth hn
  have htaken : ((padded width n ++ rest).takeWhile Char.isDigit).take width = padded width n := by
    rw [List.takeWhile_append_of_pos hdigits, List.take_left' hlength]
  simp only [readNumber?, Text.trimStart_append hne hdigits, htaken, read?_of_isDigit hne hdigits,
    value_padded, Option.bind_eq_bind, Option.bind_some, if_pos hbound, List.drop_left]

theorem readMark?_cons {mark : Char} (hmark : Text.isBlank mark = false) (rest : List Char) :
    readMark? mark (mark :: rest) = some rest := by
  rw [readMark?, Text.trimStart_cons hmark]
  exact if_pos rfl

/-- A year of four digits is read. -/
theorem readYear?_yearText {year : Int} (hyear : 0 ≤ year ∧ year ≤ 9999) (rest : List Char) :
    readYear? (yearText year ++ rest) = some (year, rest) := by
  have htext : yearText year = padded 4 year.natAbs := by
    rw [yearText, if_neg (by omega), if_neg (by omega)]
  have hread := readNumber?_padded (show 0 < 4 by decide) (show year.natAbs < 10 ^ 4 by omega)
    (show year.natAbs < 10000 by omega) rest
  have hdigits : ∀ c ∈ padded 4 year.natAbs, c.isDigit = true := fun c hc =>
    isDigit_of_mem_padded hc
  have htrim := Text.trimStart_append (padded_ne_nil (by decide) _) hdigits rest
  obtain ⟨c, ds, heq⟩ :=
    List.exists_cons_of_ne_nil (padded_ne_nil (show 0 < 4 by decide) year.natAbs)
  rw [heq] at hread htrim hdigits
  have hc : c.isDigit = true := hdigits c (List.mem_cons_self ..)
  rw [htext, heq, readYear?, htrim]
  split
  · next h =>
    rw [List.cons_append, List.cons.injEq] at h
    rw [h.1] at hc
    cases hc
  · next h =>
    rw [List.cons_append, List.cons.injEq] at h
    rw [h.1] at hc
    cases hc
  · rw [hread, Option.map_some]
    have hsame : (year.natAbs : Int) = year := by omega
    exact congrArg (fun y => some (y, rest)) hsame

/-- A date that exists is read. -/
theorem readDate?_date {date : Date} (hexists : date.exists? = true)
    (hyear : 0 ≤ date.year ∧ date.year ≤ 9999) (rest : List Char) :
    readDate? (yearText date.year ++ '-' :: (padded 2 date.month ++
      '-' :: (padded 2 date.day ++ rest))) = some (date, rest) := by
  have hmark := readMark?_cons (show Text.isBlank '-' = false by decide)
  have hparts := hexists
  simp only [Date.exists?, Bool.and_eq_true, decide_eq_true_eq] at hparts
  obtain ⟨⟨⟨hone, hmonth⟩, hfirst⟩, hday⟩ := hparts
  have hlast : date.day ≤ 31 := by
    refine Nat.le_trans hday ?_
    rw [Date.daysInMonth]
    split
    · split <;> decide
    · split <;> decide
  simp only [readDate?, readYear?_yearText hyear, hmark, Option.bind_eq_bind, Option.bind_some,
    readNumber?_padded (show 0 < 2 by decide) (show date.month < 10 ^ 2 by omega)
      (show date.month < 13 by omega),
    readNumber?_padded (show 0 < 2 by decide) (show date.day < 10 ^ 2 by omega)
      (show date.day < 32 by omega)]
  rw [if_pos hexists]

/-- Up to nine digits of a fraction are read exactly. -/
theorem readFraction?_padded {width n : Nat} (hwidth : 0 < width) (hnine : width ≤ 9)
    (hn : n < 10 ^ width) {c : Char} (hc : c.isDigit = false) (rest : List Char) :
    readFraction? ('.' :: padded width n ++ c :: rest) =
      some (n * 10 ^ (9 - width), c :: rest) := by
  have hdigits : ∀ x ∈ padded width n, x.isDigit = true := fun x hx => isDigit_of_mem_padded hx
  have hlength := length_padded hwidth hn
  have htaken : (padded width n ++ c :: rest).takeWhile Char.isDigit = padded width n := by
    rw [List.takeWhile_append_of_pos hdigits, List.takeWhile_cons_of_neg (by simp [hc]),
      List.append_nil]
  have hused : (padded width n).take 9 = padded width n := List.take_of_length_le (by omega)
  rw [List.cons_append, readFraction?]
  simp only [htaken, hused, read?_of_isDigit (padded_ne_nil hwidth n) hdigits, value_padded,
    Option.map_some, hlength]
  rw [List.drop_left' hlength]
  rfl

/-- A fraction in the fewest groups of digits is read exactly. -/
theorem readFraction?_short {nanos : Nat} (hnanos : nanos < nanosPerSecond) {c : Char}
    (hc : c.isDigit = false) (hpoint : c ≠ '.') (rest : List Char) :
    readFraction? (shortFraction nanos ++ c :: rest) = some (nanos, c :: rest) := by
  unfold nanosPerSecond at hnanos
  rw [shortFraction]
  split
  · next hzero =>
    rw [List.nil_append, readFraction?, hzero]
    exact fun _ h => hpoint (List.cons.inj h).1
  · split
    · next hmillis =>
      rw [readFraction?_padded (by decide) (by decide) (by omega) hc]
      have hback : nanos / 1000000 * 10 ^ (9 - 3) = nanos := by omega
      rw [hback]
    · split
      · next hmicros =>
        rw [readFraction?_padded (by decide) (by decide) (by omega) hc]
        have hback : nanos / 1000 * 10 ^ (9 - 6) = nanos := by omega
        rw [hback]
      · rw [fullFraction, readFraction?_padded (by decide) (by decide) (by omega) hc, Nat.sub_self,
          Nat.pow_zero, Nat.mul_one]

/-- A time of day is read, with second 60 as the leap second. -/
theorem readTime?_parts {hour minute second nanos : Nat} (hhour : hour < 24) (hminute : minute < 60)
    (hsecond : second < 61) (hnanos : nanos < nanosPerSecond) {c : Char} (hc : c.isDigit = false)
    (hpoint : c ≠ '.') (rest : List Char) :
    readTime? (padded 2 hour ++ ':' :: (padded 2 minute ++ ':' :: (padded 2 second ++
      (shortFraction nanos ++ c :: rest)))) =
      some (if second = 60 then (3600 * hour + 60 * minute + 59, nanos + nanosPerSecond)
        else (3600 * hour + 60 * minute + second, nanos), c :: rest) := by
  have hmark := readMark?_cons (show Text.isBlank ':' = false by decide)
  simp only [readTime?, hmark, Option.bind_eq_bind, Option.bind_some,
    readNumber?_padded (show 0 < 2 by decide) (show hour < 10 ^ 2 by omega) hhour,
    readNumber?_padded (show 0 < 2 by decide) (show minute < 10 ^ 2 by omega) hminute,
    readNumber?_padded (show 0 < 2 by decide) (show second < 10 ^ 2 by omega) hsecond,
    readFraction?_short hnanos hc hpoint]
  split <;> rfl

/-- The year of an instant is one that is read. -/
theorem yearInRange_of_inYears {t : Instant} (ht : t.InYears) : yearInRange t.year = true := by
  obtain ⟨hlow, hhigh⟩ := ht
  simp only [yearInRange, Bool.and_eq_true, decide_eq_true_eq]
  omega

/-- A leap second only stands in the last second of a minute. -/
theorem leap_cases (t : Instant) :
    t.nanos / nanosPerSecond = 0 ∨
      t.nanos / nanosPerSecond = 1 ∧ (t.seconds % 86400).toNat % 60 = 59 := by
  obtain ⟨hlow, hhigh, hnanos⟩ := t.inRange
  unfold nanosPerSecond at hnanos ⊢
  omega

/-- The parts of an instant are in range. -/
theorem ofParts?_eq (t : Instant) : ofParts? t.seconds t.nanos = some t := by
  rw [ofParts?, dif_pos t.inRange]

/-- An instant is read back from its text. -/
theorem read?_text {t : Instant} (ht : t.InYears) : read? t.text = some t := by
  obtain ⟨hlow, hhigh, hnanos⟩ := t.inRange
  have hleap := t.leap_cases
  have hsplit := Nat.div_add_mod t.nanos nanosPerSecond
  have hless : t.nanos % nanosPerSecond < nanosPerSecond := Nat.mod_lt _ (by decide)
  -- the parts of the text: the day, the second of the day, the leap second and the fraction
  have hdays : Date.toDays (Date.ofDays (t.seconds / 86400)) = t.seconds / 86400 :=
    Date.toDays_ofDays _
  have hinDay : (t.seconds % 86400).toNat < 86400 := by omega
  have hsecond : 86400 * (t.seconds / 86400) + ((t.seconds % 86400).toNat : Int) = t.seconds := by
    omega
  have hchars : t.characters shortFraction ['Z'] =
      yearText (Date.ofDays (t.seconds / 86400)).year ++ '-' ::
        (padded 2 (Date.ofDays (t.seconds / 86400)).month ++ '-' ::
          (padded 2 (Date.ofDays (t.seconds / 86400)).day ++ 'T' ::
            (padded 2 ((t.seconds % 86400).toNat / 3600) ++ ':' ::
              (padded 2 ((t.seconds % 86400).toNat / 60 % 60) ++ ':' ::
                (padded 2 ((t.seconds % 86400).toNat % 60 + t.nanos / nanosPerSecond) ++
                  (shortFraction (t.nanos % nanosPerSecond) ++ 'Z' :: [])))))) := by
    simp only [characters, List.append_assoc, List.cons_append]
  have hyear : yearInRange (Date.ofDays (t.seconds / 86400)).year = true :=
    yearInRange_of_inYears ht
  rw [text, read?, String.toList_ofList, hchars, readDate?_date (Date.exists?_ofDays _) ht]
  generalize (t.seconds % 86400).toNat = inDay at *
  generalize t.nanos / nanosPerSecond = leap at *
  generalize t.nanos % nanosPerSecond = nanos at *
  have htime := readTime?_parts (show inDay / 3600 < 24 by omega)
    (show inDay / 60 % 60 < 60 by omega) (show inDay % 60 + leap < 61 by omega) hless
    (show ('Z' : Char).isDigit = false by decide) (by decide) []
  have hzone : readZone? (Text.trimStart ['Z']) = some (0, []) := rfl
  -- with the leap second taken back from the seconds, the parts are those of the instant
  have hparts : (if inDay % 60 + leap = 60 then
      (3600 * (inDay / 3600) + 60 * (inDay / 60 % 60) + 59, nanos + nanosPerSecond)
      else (3600 * (inDay / 3600) + 60 * (inDay / 60 % 60) + (inDay % 60 + leap), nanos)) =
      (inDay, t.nanos) := by
    rcases hleap with hzero | ⟨hone, hlast⟩
    · rw [if_neg (by omega), Prod.mk.injEq]
      rw [hzero] at hsplit ⊢
      omega
    · rw [if_pos (by omega), Prod.mk.injEq]
      rw [hone] at hsplit
      omega
  simp only [Option.bind_eq_bind, Option.bind_some, hyear, htime, hparts, hzone, hdays, hsecond,
    Int.sub_zero]
  exact t.ofParts?_eq

end WitnessLedger.Instant
