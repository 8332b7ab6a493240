import WitnessLedger.Json.Printer
import WitnessLedger.Json.Reader
import WitnessLedger.Proofs.Double.Shortest
import WitnessLedger.Proofs.Double.Stepwise
import Mathlib.Data.List.TakeWhile

/-!
# Numbers read back

An integer is written in decimal and a double with its shortest digits.  Either is read from the
front of a text, as long as a comma, a bracket or a brace follows, or nothing.  An integer is read
back in any case, a double by a reader that finds the nearest one.

## Key results

- `Layout.significantDigits_spec`: the digits of a number without the zeros at its end
- `readUnsigned?_whole`, `readUnsigned?_point`: how digits without and with a point are read
- `readNumber?_intDigits`: an integer of 64 bits is read back
- `readsAs_positionally`, `readsAs_scientifically`: both layouts of digits denote the same number
- `readNumber?_signed`: what the text of a double is read as does not depend on what follows
- `rereadReal?_nearest`: a double is read back where the nearest one is found
- `rereadReal?_of_isShort`: so is a double with a short text where a reader goes step by step
-/

namespace WitnessLedger

open Text

/-! ## Digits -/

/-- One digit or more. -/
structure IsDigits (ds : List Char) : Prop where
  ne_nil : ds ≠ []
  isDigit : ∀ c ∈ ds, c.isDigit = true

/-- Digits that may stand before the point: a zero in front stands alone. -/
structure IsWhole (ds : List Char) : Prop extends IsDigits ds where
  lead : ds.head? ≠ some '0' ∨ ds.length = 1

theorem isDigits_zero : IsDigits ['0'] := ⟨by simp, by simp⟩

theorem isWhole_zero : IsWhole ['0'] := ⟨isDigits_zero, .inr rfl⟩

theorem isDigits_digits (n : Nat) : IsDigits (Numeral.digits n) :=
  ⟨Numeral.digits_ne_nil n, fun _ => Numeral.isDigit_of_mem_digits⟩

theorem isWhole_digits (n : Nat) : IsWhole (Numeral.digits n) := by
  refine ⟨isDigits_digits n, ?_⟩
  rcases Nat.eq_zero_or_pos n with rfl | hn
  · exact .inr (by rw [Numeral.digits, if_pos (by decide)]; rfl)
  · exact .inl (Numeral.head?_digits_ne hn)

namespace IsDigits

variable {ds : List Char} (h : IsDigits ds)

include h

theorem replicate_append (n : Nat) : IsDigits (List.replicate n '0' ++ ds) := by
  refine ⟨by simp [h.ne_nil], fun c hc => ?_⟩
  rcases List.mem_append.1 hc with hc | hc
  · rw [List.eq_of_mem_replicate hc]
    rfl
  · exact h.isDigit c hc

/-- Digits stay digits with zeros behind them. -/
theorem append_replicate (n : Nat) : IsDigits (ds ++ List.replicate n '0') := by
  refine ⟨by simp [h.ne_nil], fun c hc => ?_⟩
  rcases List.mem_append.1 hc with hc | hc
  · exact h.isDigit c hc
  · rw [List.eq_of_mem_replicate hc]
    rfl

theorem take (n : Nat) : IsDigits (ds.take (n + 1)) :=
  ⟨by simp [h.ne_nil], fun c hc => h.isDigit c (List.mem_of_mem_take hc)⟩

theorem drop {n : Nat} (hn : n < ds.length) : IsDigits (ds.drop n) :=
  ⟨by simp; omega, fun c hc => h.isDigit c (List.mem_of_mem_drop hc)⟩

end IsDigits

namespace Layout

/-- A positive number is its significant digits with zeros behind them.  They do not start with a
    zero. -/
theorem significantDigits_spec {n : Nat} (hn : 0 < n) :
    (∃ zeros, Numeral.digits n = significantDigits n ++ List.replicate zeros '0') ∧
      IsDigits (significantDigits n) ∧ (significantDigits n).head? ≠ some '0' := by
  have hsplit : Numeral.digits n = significantDigits n ++
      ((Numeral.digits n).reverse.takeWhile (· == '0')).reverse := by
    rw [significantDigits, ← List.reverse_append, List.takeWhile_append_dropWhile,
      List.reverse_reverse]
  have hzeros : ((Numeral.digits n).reverse.takeWhile (· == '0')).reverse =
      List.replicate ((Numeral.digits n).reverse.takeWhile (· == '0')).length '0' := by
    rw [List.eq_replicate_iff, List.length_reverse]
    refine ⟨rfl, fun c hc => ?_⟩
    have hzero := List.mem_takeWhile_imp (List.mem_reverse.1 hc)
    exact beq_iff_eq.1 hzero
  rw [hzeros] at hsplit
  have hne : significantDigits n ≠ [] := by
    -- zeros only would denote zero
    intro hnil
    have hvalue := Numeral.value_digits n
    rw [hsplit, hnil, List.nil_append, Numeral.value_replicate] at hvalue
    omega
  refine ⟨⟨_, hsplit⟩, ⟨hne, fun c hc => ?_⟩, ?_⟩
  · apply (isDigits_digits n).isDigit
    rw [hsplit]
    exact List.mem_append_left _ hc
  · have hhead := Numeral.head?_digits_ne hn
    obtain ⟨c, cs, hcs⟩ := List.exists_cons_of_ne_nil hne
    rw [hsplit, hcs] at hhead
    rw [hcs]
    exact hhead

end Layout

/-- What is written by its significant digits, the first of which has the exponent that the layouts
    give it. -/
theorem Scientific.value_eq {s : Scientific} (hs : 0 < s.digits) :
    s.value = Numeral.value (Layout.significantDigits s.digits) *
      10 ^ (s.power + ((Numeral.digits s.digits).length : Int) - 1 + 1 -
        (Layout.significantDigits s.digits).length) := by
  obtain ⟨⟨zeros, hzeros⟩, -⟩ := Layout.significantDigits_spec hs
  have hplaces : s.power + ((Numeral.digits s.digits).length : Int) - 1 + 1 -
      (Layout.significantDigits s.digits).length = s.power + zeros := by
    have hlength := congrArg List.length hzeros
    rw [List.length_append, List.length_replicate] at hlength
    omega
  have hnumber := Numeral.value_digits s.digits
  rw [hzeros, Numeral.value_append_replicate] at hnumber
  rw [hplaces, zpow_add₀ (by norm_num), zpow_natCast, value, ← Nat.cast_inj (R := ℚ) |>.2 hnumber]
  push_cast
  ring

/-- Whether a double is written with at most fifteen digits and without an exponent. -/
def Magnitude.IsShort (a : Magnitude) : Prop :=
  'e' ∉ Layout.document.magnitude a ∧ (Layout.document.magnitude a).length ≤ 16

instance (a : Magnitude) : Decidable a.IsShort := inferInstanceAs (Decidable (_ ∧ _))

namespace Json

/-! ## What follows a value -/

/-- A text that has nothing at its front but what may follow a value. -/
def EndsValue (rest : List Char) : Prop := ∀ c ∈ rest.head?, c = ',' ∨ c = ']' ∨ c = '\x7d'

theorem endsValue_nil : EndsValue [] := fun _ hc => nomatch hc

variable {rest : List Char}

theorem EndsValue.not_part (h : EndsValue rest) :
    ∀ c ∈ rest.head?, c.isDigit = false ∧ c ≠ '.' := by
  intro c hc
  rcases h c hc with rfl | rfl | rfl <;> decide

theorem EndsValue.not_isDigit (h : EndsValue rest) : ∀ c ∈ rest.head?, c.isDigit = false :=
  fun c hc => (h.not_part c hc).1

/-! ## Parts of a number -/

theorem readDigits?_append {ds : List Char} (hds : IsDigits ds)
    (hrest : ∀ c ∈ rest.head?, c.isDigit = false) :
    readDigits? (ds ++ rest) = some (ds, rest) := by
  have htake : (ds ++ rest).takeWhile Char.isDigit = ds := by
    rw [List.takeWhile_append_of_pos hds.isDigit]
    cases rest with
    | nil => simp
    | cons c rest => simp [hrest c rfl]
  rw [readDigits?, htake, List.drop_left]
  simp [hds.ne_nil]

theorem readExponent?_of_ends (h : EndsValue rest) : readExponent? rest = some (0, rest) := by
  cases rest with
  | nil => rfl
  | cons c rest => rcases h c rfl with rfl | rfl | rfl <;> rfl

/-- An exponent with its sign is read back. -/
theorem readExponent?_append (h : EndsValue rest) (e : Int) :
    readExponent? ('e' :: (if e < 0 then '-' else '+') ::
      (Numeral.digits e.natAbs ++ rest)) = some (e, rest) := by
  have hread := readDigits?_append (isDigits_digits e.natAbs) h.not_isDigit
  have hvalue := Numeral.value_digits e.natAbs
  split
  · next hneg =>
    have hstep : readExponent? ('e' :: '-' :: (Numeral.digits e.natAbs ++ rest)) =
        some (-(Numeral.value (Numeral.digits e.natAbs) : Int), rest) := by
      show Option.map _ (readDigits? _) = _
      rw [hread]
      rfl
    rw [hstep, hvalue, Int.ofNat_natAbs_of_nonpos (Int.le_of_lt hneg), Int.neg_neg]
  · next hpos =>
    have hstep : readExponent? ('e' :: '+' :: (Numeral.digits e.natAbs ++ rest)) =
        some ((Numeral.value (Numeral.digits e.natAbs) : Int), rest) := by
      show Option.map _ (readDigits? _) = _
      rw [hread]
      rfl
    rw [hstep, hvalue, Int.natAbs_of_nonneg (Int.not_lt.1 hpos)]

private theorem not_leadingZero {whole : List Char} (h : IsWhole whole) :
    ¬ (whole.head? = some '0' && 1 < whole.length) = true := by
  simp only [Bool.and_eq_true, decide_eq_true_eq]
  rintro ⟨hzero, hlong⟩
  rcases h.lead with h | h
  · exact h hzero
  · omega

section Unsigned

variable (p : Precision) (negative : Bool) {whole fraction after : List Char} {e : Int}

/-- Digits without a point are read as an integer, unless they have an exponent or are too many. -/
theorem readUnsigned?_whole (hwhole : IsWhole whole)
    (hafter : ∀ c ∈ after.head?, c.isDigit = false ∧ c ≠ '.')
    (hexponent : readExponent? after = some (e, rest)) :
    readUnsigned? p negative (whole ++ after) =
      match if rest.length = after.length then wordOf? negative (Numeral.value whole) else none with
      | some v => some (v, rest)
      | none => (realOf? p negative whole [] e).map fun v => (v, rest) := by
  unfold readUnsigned?
  rw [readDigits?_append hwhole.toIsDigits fun c hc => (hafter c hc).1]
  simp only [Option.bind_eq_bind, Option.bind_some]
  rw [if_neg (not_leadingZero hwhole)]
  have hnopoint : ∀ tail, after = '.' :: tail → False := by
    rintro tail rfl
    exact (hafter '.' rfl).2 rfl
  split
  · exact (hnopoint _ rfl).elim
  · rw [hexponent]
    rfl

/-- Digits with a point are read as a double. -/
theorem readUnsigned?_point (hwhole : IsWhole whole) (hfraction : IsDigits fraction)
    (hafter : ∀ c ∈ after.head?, c.isDigit = false)
    (hexponent : readExponent? after = some (e, rest)) (hlength : rest.length ≤ after.length) :
    readUnsigned? p negative (whole ++ '.' :: (fraction ++ after)) =
      (realOf? p negative whole fraction e).map fun v => (v, rest) := by
  have hlonger : rest.length ≠ ('.' :: (fraction ++ after)).length := by
    rw [List.length_cons, List.length_append]
    omega
  unfold readUnsigned?
  rw [readDigits?_append hwhole.toIsDigits fun c hc => by cases hc; rfl]
  simp only [Option.bind_eq_bind, Option.bind_some]
  rw [if_neg (not_leadingZero hwhole), readDigits?_append hfraction hafter, Option.bind_some,
    hexponent, Option.bind_some, if_neg hlonger]

end Unsigned

/-- What is read without a sign starts with a digit. -/
theorem exists_of_readUnsigned? {p : Precision} {negative : Bool} {cs : List Char}
    {r : Json × List Char} (h : readUnsigned? p negative cs = some r) :
    ∃ c tail, cs = c :: tail ∧ c.isDigit = true := by
  cases cs with
  | nil => cases h
  | cons c tail =>
    refine ⟨c, tail, rfl, ?_⟩
    by_contra hc
    have hnone : readDigits? (c :: tail) = none := by simp [readDigits?, hc]
    rw [readUnsigned?, hnone] at h
    cases h

/-- What starts with a digit is read without a sign. -/
theorem readNumber?_of_isDigit (p : Precision) {c : Char} (hc : c.isDigit = true)
    (cs : List Char) : readNumber? p (c :: cs) = readUnsigned? p false (c :: cs) := by
  unfold readNumber?
  split
  · next heq =>
    rw [(List.cons.inj heq).1] at hc
    cases hc
  · rfl

variable {p : Precision}

/-- A text that is read without a sign is read so as a number. -/
theorem readNumber?_of_readUnsigned? {cs : List Char} {r : Json × List Char}
    (h : readUnsigned? p false cs = some r) : readNumber? p cs = some r := by
  obtain ⟨c, tail, rfl, hc⟩ := exists_of_readUnsigned? h
  rw [readNumber?_of_isDigit p hc, h]

/-! ## Integers -/

/-- The digits of a number that is an integer with its sign are read as this integer. -/
theorem readUnsigned?_digits {negative : Bool} {n : Nat} {v : Json} (hrest : EndsValue rest)
    (hword : wordOf? negative n = some v) :
    readUnsigned? p negative (Numeral.digits n ++ rest) = some (v, rest) := by
  rw [readUnsigned?_whole p negative (isWhole_digits n) hrest.not_part
    (readExponent?_of_ends hrest), if_pos rfl, Numeral.value_digits, hword]

/-- An integer of 64 bits is read back. -/
theorem readNumber?_intDigits {n : Int} (hlow : -2 ^ 63 ≤ n) (hhigh : n < 2 ^ 64)
    (hrest : EndsValue rest) :
    readNumber? p (Numeral.intDigits n ++ rest) = some (.integer n, rest) := by
  cases n with
  | ofNat n =>
    have hword : wordOf? false n = some (.integer n) := by
      have hsize : n < UInt64.size := Int.ofNat_lt.1 hhigh
      rw [wordOf?, if_neg Bool.false_ne_true, if_pos hsize]
    exact readNumber?_of_readUnsigned? (readUnsigned?_digits hrest hword)
  | negSucc n =>
    have hword : wordOf? true (n + 1) = some (.integer (.negSucc n)) := by
      have hsize : ¬ (n + 1 = 0 || Numeral.signedBound < n + 1) = true := by
        rw [Int.negSucc_eq] at hlow
        simp only [Bool.or_eq_true, decide_eq_true_eq]
        rw [Numeral.signedBound]
        omega
      rw [wordOf?, if_pos rfl, if_neg hsize]
      rfl
    exact readUnsigned?_digits hrest hword

/-! ## Doubles -/

theorem pointed_document : Layout.document.pointed = true := rfl

section Layouts

variable {ds : List Char}

/-- Digits that stand behind the point, after some zeros. -/
private theorem value_zeros (zeros : Nat) (ds : List Char) :
    (Numeral.value (['0'] ++ (List.replicate zeros '0' ++ ds)) : ℚ) *
        10 ^ (0 - ((List.replicate zeros '0' ++ ds).length : Int)) =
      Numeral.value ds * 10 ^ (0 - ((zeros + ds.length : Nat) : Int)) := by
  have hvalue : Numeral.value (['0'] ++ (List.replicate zeros '0' ++ ds)) = Numeral.value ds := by
    rw [← List.append_assoc, ← List.replicate_one, List.replicate_append_replicate,
      Numeral.value_replicate_append]
  rw [hvalue, List.length_append, List.length_replicate]

/-- Digits that are filled with zeros up to the point, with one more behind it. -/
private theorem value_filled (zeros : Nat) (ds : List Char) :
    (Numeral.value ((ds ++ List.replicate zeros '0') ++ ['0']) : ℚ) * 10 ^ (0 - (1 : Int)) =
      Numeral.value ds * 10 ^ (zeros : Int) := by
  have hvalue : Numeral.value ((ds ++ List.replicate zeros '0') ++ ['0']) =
      Numeral.value ds * 10 ^ zeros * 10 := by
    rw [Numeral.value_append, Numeral.value_append_replicate]
    rfl
  rw [hvalue, Nat.cast_mul, Nat.cast_mul, Nat.cast_pow, Nat.cast_ofNat, zero_sub, zpow_neg_one,
    mul_inv_cancel_right₀ (by norm_num), ← zpow_natCast]

/-- Digits that are laid out without an exponent stand on both sides of a point, and denote the
    same number there. -/
theorem exists_positionally_eq (e : Int) (hds : IsDigits ds) (hhead : ds.head? ≠ some '0') :
    ∃ whole fraction, IsWhole whole ∧ IsDigits fraction ∧
      Layout.document.positionally ds e = whole ++ '.' :: fraction ∧
      (Numeral.value (whole ++ fraction) : ℚ) * 10 ^ (0 - (fraction.length : Int)) =
        Numeral.value ds * 10 ^ (e + 1 - ds.length) := by
  unfold Layout.positionally
  split
  · next hneg =>
    have hvalue := value_zeros (-e - 1).toNat ds
    have hplaces : 0 - (((-e - 1).toNat + ds.length : Nat) : Int) = e + 1 - ds.length := by omega
    rw [hplaces] at hvalue
    exact ⟨_, _, isWhole_zero, hds.replicate_append (-e - 1).toNat, rfl, hvalue⟩
  · next hpos =>
    simp only
    split
    · next hshort =>
      have hwhole : IsWhole (ds ++ List.replicate (e.toNat + 1 - ds.length) '0') :=
        ⟨hds.append_replicate _, .inl (by rwa [List.head?_append_of_ne_nil _ hds.ne_nil])⟩
      have hvalue := value_filled (e.toNat + 1 - ds.length) ds
      have hplaces : ((e.toNat + 1 - ds.length : Nat) : Int) = e + 1 - ds.length := by omega
      rw [hplaces] at hvalue
      rw [if_pos pointed_document]
      exact ⟨_, _, hwhole, isDigits_zero, rfl, hvalue⟩
    · next hlong =>
      -- the point stands between the digits
      have hwhole : IsWhole (ds.take (e.toNat + 1)) :=
        ⟨hds.take _, .inl (by rwa [List.head?_take, if_neg (Nat.succ_ne_zero _)])⟩
      have hplaces : 0 - ((ds.length - (e.toNat + 1) : Nat) : Int) = e + 1 - ds.length := by omega
      refine ⟨_, _, hwhole, hds.drop (Nat.not_le.1 hlong), rfl, ?_⟩
      rw [List.take_append_drop, List.length_drop, hplaces]

/-- A text is read as digits that denote a number, before and behind a point and with an exponent,
    by any reader and whatever follows it. -/
def ReadsAs (cs : List Char) (x : ℚ) : Prop :=
  ∃ (whole fraction : List Char) (e : Int),
    (Numeral.value (whole ++ fraction) : ℚ) * 10 ^ (e - fraction.length) = x ∧
    ∀ (p : Precision) (negative : Bool) {rest : List Char}, EndsValue rest →
      readUnsigned? p negative (cs ++ rest) =
        (realOf? p negative whole fraction e).map fun v => (v, rest)

/-- Digits on both sides of a point denote what they do without it, but for the places behind it. -/
theorem readsAs_point {whole fraction : List Char} (hwhole : IsWhole whole)
    (hfraction : IsDigits fraction) :
    ReadsAs (whole ++ '.' :: fraction)
      (Numeral.value (whole ++ fraction) * 10 ^ (0 - (fraction.length : Int))) := by
  refine ⟨whole, fraction, 0, rfl, fun p negative rest hrest => ?_⟩
  rw [List.append_assoc]
  exact readUnsigned?_point p negative hwhole hfraction hrest.not_isDigit
    (readExponent?_of_ends hrest) le_rfl

/-- Digits that are laid out without an exponent are read as this number. -/
theorem readsAs_positionally (e : Int) (hds : IsDigits ds) (hhead : ds.head? ≠ some '0') :
    ReadsAs (Layout.document.positionally ds e) (Numeral.value ds * 10 ^ (e + 1 - ds.length)) := by
  obtain ⟨whole, fraction, hwhole, hfraction, htext, hvalue⟩ := exists_positionally_eq e hds hhead
  rw [htext, ← hvalue]
  exact readsAs_point hwhole hfraction

/-- So are digits that are laid out with an exponent. -/
theorem readsAs_scientifically (e : Int) (hds : IsDigits ds) :
    ReadsAs (Layout.scientifically ds e) (Numeral.value ds * 10 ^ (e + 1 - ds.length)) := by
  have hlonger : ∀ rest : List Char, rest.length <
      ('e' :: (if e < 0 then '-' else '+') :: (Numeral.digits e.natAbs ++ rest)).length := by
    intro rest
    simp only [List.length_cons, List.length_append]
    omega
  obtain ⟨d, ds, rfl⟩ := List.exists_cons_of_ne_nil hds.ne_nil
  have hwhole : IsWhole [d] := ⟨hds.take 0, .inr rfl⟩
  cases ds with
  | nil =>
    refine ⟨[d], [], e, ?_, fun p negative rest hrest => ?_⟩
    · rw [List.append_nil, List.length_nil, List.length_singleton, Nat.cast_one,
        Int.add_sub_cancel, Nat.cast_zero, Int.sub_zero]
    · have hread := readUnsigned?_whole p negative hwhole (fun c hc => by cases hc; decide)
        (readExponent?_append hrest e)
      rw [if_neg (Nat.ne_of_lt (hlonger rest))] at hread
      refine Eq.trans (congrArg (readUnsigned? p negative) ?_) hread
      simp [Layout.scientifically]
  | cons d' ds =>
    have hfraction : IsDigits (d' :: ds) := hds.drop (by simp : 1 < (d :: d' :: ds).length)
    refine ⟨[d], d' :: ds, e, ?_, fun p negative rest hrest => ?_⟩
    · rw [List.singleton_append, List.length_cons (a := d)]
      congr 2
      omega
    · have hread := readUnsigned?_point p negative hwhole hfraction (fun c hc => by cases hc; rfl)
        (readExponent?_append hrest e) (hlonger rest).le
      refine Eq.trans (congrArg (readUnsigned? p negative) ?_) hread
      simp [Layout.scientifically]

end Layouts

/-- The digits of a magnitude stand in one of the layouts, unless it is zero, and denote a number
    that is nearest to it. -/
theorem magnitude_cases (a : Magnitude) :
    (a.significand = 0 ∧ Layout.document.magnitude a = ['0', '.', '0']) ∨
      a.significand ≠ 0 ∧ ∃ ds e, IsDigits ds ∧ ds.head? ≠ some '0' ∧
        a.interval.Spans (Numeral.value ds * 10 ^ (e + 1 - ds.length : Int)) ∧
        (Layout.document.magnitude a = Layout.document.positionally ds e ∨
          Layout.document.magnitude a = Layout.scientifically ds e) := by
  unfold Layout.magnitude
  split
  · next ha => exact .inl ⟨ha, if_pos pointed_document⟩
  · next ha =>
    have hspans := Magnitude.shortest_spans Layout.document.tie ha
    have hpos := Magnitude.digits_shortest_pos Layout.document.tie ha
    obtain ⟨-, hds, hhead⟩ := Layout.significantDigits_spec hpos
    rw [Scientific.value_eq hpos] at hspans
    refine .inr ⟨ha, _, _, hds, hhead, hspans, ?_⟩
    simp only
    split
    · exact .inl rfl
    · exact .inr rfl

/-- The digits of a magnitude are read as a number that is nearest to it. -/
theorem exists_readsAs_magnitude (a : Magnitude) :
    ∃ x, ReadsAs (Layout.document.magnitude a) x ∧
      ((a.significand = 0 ∧ x = 0) ∨ (a.significand ≠ 0 ∧ a.interval.Spans x)) := by
  rcases magnitude_cases a with ⟨ha, htext⟩ | ⟨ha, ds, e, hds, hhead, hspans, htext | htext⟩
  · have hreads := readsAs_point isWhole_zero isDigits_zero
    have hzero : Numeral.value (['0'] ++ ['0']) = 0 := rfl
    rw [htext]
    exact ⟨_, hreads, .inl ⟨ha, by rw [hzero, Nat.cast_zero, zero_mul]⟩⟩
  -- either layout is read as the chosen number, which need not be that of the magnitude
  · rw [htext]
    exact ⟨_, readsAs_positionally e hds hhead, .inr ⟨ha, hspans⟩⟩
  · rw [htext]
    exact ⟨_, readsAs_scientifically e hds, .inr ⟨ha, hspans⟩⟩

/-- Digits that denote a number nearest to a magnitude are read as this magnitude where the nearest
    one is found. -/
theorem realOf?_nearest (negative : Bool) {a : Magnitude} {whole fraction : List Char} {e : Int}
    {x : ℚ} (hx : (Numeral.value (whole ++ fraction) : ℚ) * 10 ^ (e - fraction.length) = x)
    (h : (a.significand = 0 ∧ x = 0) ∨ (a.significand ≠ 0 ∧ a.interval.Spans x)) :
    realOf? .nearest negative whole fraction e = some (.real negative a) := by
  rcases h with ⟨ha, rfl⟩ | ⟨ha, hspans⟩
  · have hzero : a = .zero := by
      obtain ⟨hexponent | hfull, -⟩ := a.canonical.2
      · cases a
        simp_all [Magnitude.zero]
      · rw [ha] at hfull
        exact absurd hfull (by decide)
    have hvalue : Numeral.value (whole ++ fraction) = 0 := by
      rcases mul_eq_zero.1 hx with h | h
      · exact Nat.cast_eq_zero.1 h
      · exact absurd h (zpow_ne_zero _ (by norm_num))
    rw [realOf?, hvalue, hzero]
    rfl
  · rw [← hx] at hspans
    rw [realOf?, Double.ofScientific_of_spans negative ha hspans]

/-- What the text of a double is read as. -/
def rereadReal? (p : Precision) (negative : Bool) (a : Magnitude) : Option Json :=
  (readNumber? p (Layout.document.signed negative a)).map Prod.fst

/-- The text of a double is read as digits, whatever follows it.  They are nearest to the double. -/
private theorem exists_readNumber?_signed (negative : Bool) (a : Magnitude) :
    ∃ whole fraction e, realOf? .nearest negative whole fraction e = some (.real negative a) ∧
      ∀ (p : Precision) {rest : List Char}, EndsValue rest →
        readNumber? p (Layout.document.signed negative a ++ rest) =
          (realOf? p negative whole fraction e).map fun v => (v, rest) := by
  obtain ⟨x, ⟨whole, fraction, e, hx, hread⟩, hnear⟩ := exists_readsAs_magnitude a
  refine ⟨whole, fraction, e, realOf?_nearest negative hx hnear, fun p rest hrest => ?_⟩
  rw [← hread p negative hrest]
  cases negative with
  | true => rfl
  | false =>
    -- what is read back starts with a digit
    have hback := hread .nearest false endsValue_nil
    rw [realOf?_nearest false hx hnear] at hback
    obtain ⟨c, tail, hcs, hc⟩ := exists_of_readUnsigned? hback
    rw [List.append_nil] at hcs
    rw [Layout.signed, if_neg Bool.false_ne_true, hcs]
    exact readNumber?_of_isDigit p hc _

/-- What the text of a double is read as does not depend on what follows. -/
theorem readNumber?_signed (p : Precision) (negative : Bool) (a : Magnitude)
    (hrest : EndsValue rest) :
    readNumber? p (Layout.document.signed negative a ++ rest) =
      (rereadReal? p negative a).map fun v => (v, rest) := by
  obtain ⟨whole, fraction, e, -, hread⟩ := exists_readNumber?_signed negative a
  have hfront := hread p endsValue_nil
  rw [List.append_nil] at hfront
  rw [rereadReal?, hfront, hread p hrest]
  cases realOf? p negative whole fraction e <;> rfl

/-- A double is read back where the nearest one is found. -/
theorem rereadReal?_nearest (negative : Bool) (a : Magnitude) :
    rereadReal? .nearest negative a = some (.real negative a) := by
  obtain ⟨whole, fraction, e, hnear, hread⟩ := exists_readNumber?_signed negative a
  have hfront := hread .nearest endsValue_nil
  rw [List.append_nil, hnear] at hfront
  rw [rereadReal?, hfront]
  rfl

/-- The text of a double is read as a double, if at all. -/
theorem exists_of_rereadReal? {negative : Bool} {a : Magnitude} {v : Json}
    (h : rereadReal? p negative a = some v) : ∃ b, v = .real negative b := by
  cases p with
  | nearest =>
    rw [rereadReal?_nearest] at h
    exact ⟨a, (Option.some.inj h).symm⟩
  | stepwise =>
    obtain ⟨whole, fraction, e, -, hread⟩ := exists_readNumber?_signed negative a
    have hfront := hread .stepwise endsValue_nil
    rw [List.append_nil] at hfront
    rw [rereadReal?, hfront, realOf?, Option.map_map, Option.map_map, Option.map_eq_some_iff] at h
    obtain ⟨b, -, rfl⟩ := h
    exact ⟨b, rfl⟩

/-! ## Short texts -/

/-- A text without an exponent is digits on both sides of a point. -/
theorem exists_magnitude_eq {a : Magnitude} (h : 'e' ∉ Layout.document.magnitude a) :
    ∃ whole fraction, IsWhole whole ∧ IsDigits fraction ∧
      Layout.document.magnitude a = whole ++ '.' :: fraction ∧
      a.interval.Spans (Numeral.value (whole ++ fraction) * 10 ^ (0 - fraction.length : Int)) := by
  rcases magnitude_cases a with ⟨ha, htext⟩ | ⟨-, ds, e, hds, hhead, hspans, htext | htext⟩
  · have hzero : Numeral.value (['0'] ++ ['0']) = 0 := rfl
    refine ⟨['0'], ['0'], isWhole_zero, isDigits_zero, htext, ?_⟩
    rw [hzero, Nat.cast_zero, zero_mul]
    exact Magnitude.spans_zero ha
  · obtain ⟨whole, fraction, hwhole, hfraction, hlayout, hvalue⟩ :=
      exists_positionally_eq e hds hhead
    rw [← hvalue] at hspans
    exact ⟨whole, fraction, hwhole, hfraction, htext.trans hlayout, hspans⟩
  · rw [htext] at h
    exact absurd (by simp [Layout.scientifically]) h

/-- A double with a short text is found again even step by step. -/
theorem rereadReal?_of_isShort (negative : Bool) {a : Magnitude} (h : a.IsShort) :
    rereadReal? .stepwise negative a = some (.real negative a) := by
  obtain ⟨whole, fraction, hwhole, hfraction, htext, hspans⟩ := exists_magnitude_eq h.1
  have hlength : whole.length + fraction.length ≤ 15 := by
    have hshort := h.2
    rw [htext, List.length_append, List.length_cons] at hshort
    omega
  -- fifteen digits are below 53 bits
  have hvalue : Numeral.value (whole ++ fraction) < 2 * Magnitude.leadingBit := by
    have hdigits : ∀ d ∈ whole ++ fraction, d.isDigit = true := fun d hd =>
      (List.mem_append.1 hd).elim (hwhole.isDigit d) (hfraction.isDigit d)
    calc Numeral.value (whole ++ fraction) < 10 ^ (whole ++ fraction).length :=
          Numeral.value_lt_pow_length hdigits
      _ ≤ 10 ^ 15 := Nat.pow_le_pow_right (by decide) (by rwa [List.length_append])
      _ ≤ 2 * Magnitude.leadingBit := by decide
  have hreal : realOf? .stepwise negative whole fraction 0 = some (.real negative a) := by
    rw [realOf?, Magnitude.stepwise?_of_spans hvalue (by omega) hspans]
    rfl
  have hread := readUnsigned?_point .stepwise negative hwhole hfraction endsValue_nil.not_isDigit
    (readExponent?_of_ends endsValue_nil) le_rfl
  rw [List.append_nil, ← htext, hreal] at hread
  have hnumber : readNumber? .stepwise (Layout.document.signed negative a) =
      some (.real negative a, []) := by
    cases negative with
    | true => exact hread
    | false => exact readNumber?_of_readUnsigned? hread
  rw [rereadReal?, hnumber]
  rfl

end Json

end WitnessLedger
