import WitnessLedger.Json.Printer
import WitnessLedger.Json.Reader

/-!
# Strings read back

A quotation mark, a backslash and the control characters are escaped, and every other character
stands for itself.  Each is read back, whatever follows it.

## Key results

- `readString?_escape`: one character is read back
- `readString?_quote`: so is a whole string, up to its second quotation mark
-/

namespace WitnessLedger.Json

private theorem bind_cons (c : Char) (r : Option (List Char × List Char)) :
    (do let (cs, rest) ← r; some (c :: cs, rest)) = r.map fun p => (c :: p.1, p.2) := by
  cases r <;> rfl

/-- A letter behind a backslash is read as the character that it stands for. -/
theorem readString?_letter {letter c : Char} (hletter : letter ≠ 'u')
    (hc : unescape? letter = some c) (tail : List Char) :
    readString? ('\\' :: letter :: tail) = (readString? tail).map fun p => (c :: p.1, p.2) := by
  rw [readString?.eq_def]
  split
  case h_5 heq =>
    cases heq
    rw [hc]
    exact bind_cons c _
  case h_6 hnone heq =>
    cases heq
    exact (hnone _ _ rfl rfl).elim
  all_goals simp_all

/-- Four hexadecimal digits that are no surrogate are read as one character.  It does not matter
    whether another such escape follows. -/
theorem readString?_unit {a b c d : Char} {n : Nat} (hunit : unit? a b c d = some n)
    (hn : n < 0xD800) (tail : List Char) :
    readString? ('\\' :: 'u' :: a :: b :: c :: d :: tail) =
      (readString? tail).map fun p => (Char.ofNat n :: p.1, p.2) := by
  have hfirst : ¬ (0xD800 ≤ n && n < 0xDC00) = true := by simp; omega
  have hsecond : ¬ (0xDC00 ≤ n && n < 0xE000) = true := by simp; omega
  have hboth : ¬ (0xD800 ≤ n && n < 0xE000) = true := by simp; omega
  rw [readString?.eq_def]
  split
  -- the equations for two escapes and for one agree below the surrogates
  case h_3 heq =>
    cases heq
    simp only [hunit, Option.bind_eq_bind, Option.bind_some, if_neg hfirst, if_neg hsecond]
    exact bind_cons _ _
  case h_4 heq =>
    cases heq
    simp only [hunit, Option.bind_eq_bind, Option.bind_some, if_neg hboth]
    exact bind_cons _ _
  case h_5 hnone heq =>
    cases heq
    exact (hnone _ _ _ _ _ rfl rfl).elim
  case h_6 hnone heq =>
    cases heq
    exact (hnone _ _ rfl rfl).elim
  all_goals simp_all

/-- A character that is not escaped is read as itself. -/
theorem readString?_raw {c : Char} (hquote : c ≠ '"') (hslash : c ≠ '\\') (hc : ¬ c.toNat < 32)
    (tail : List Char) :
    readString? (c :: tail) = (readString? tail).map fun p => (c :: p.1, p.2) := by
  have hkept : ¬ (c.toNat < 32 || c = '\\') = true := by simp [hc, hslash]
  rw [readString?.eq_def]
  split
  case h_6 heq =>
    cases heq
    simp only [if_neg hkept]
    exact bind_cons c _
  all_goals simp_all

/-- The escape of a control character is read as its number. -/
theorem unit?_ofByte {n : Nat} (hn : n < 32) :
    unit? '0' '0' (Text.Hex.digit (n / 16)) (Text.Hex.digit (n % 16)) = some n := by
  have : ∀ n < 32, unit? '0' '0' (Text.Hex.digit (n / 16)) (Text.Hex.digit (n % 16)) = some n := by
    decide
  exact this n hn

/-- One character is read back, whatever follows it. -/
theorem readString?_escape (c : Char) (tail : List Char) :
    readString? (escape c ++ tail) = (readString? tail).map fun p => (c :: p.1, p.2) := by
  unfold escape
  split
  case h_8 hquote hslash _ _ _ _ _ =>
    split
    · next hcontrol =>
      -- a control character without a letter
      have hread := readString?_unit (unit?_ofByte hcontrol) (by omega) tail
      have hbyte : (UInt8.ofNat c.toNat).toNat = c.toNat := by
        rw [UInt8.toNat_ofNat', Nat.mod_eq_of_lt (by omega)]
      rw [Char.ofNat_toNat] at hread
      rw [Text.Hex.ofByte, hbyte]
      exact hread
    · next hcontrol => exact readString?_raw hquote hslash hcontrol tail
  all_goals exact readString?_letter (by decide) rfl tail

/-- A string is read back up to its second quotation mark. -/
theorem readString?_quote (cs tail : List Char) :
    readString? (cs.flatMap escape ++ '"' :: tail) = some (cs, tail) := by
  induction cs with
  | nil => simp [readString?]
  | cons c cs ih =>
    rw [List.flatMap_cons, List.append_assoc, readString?_escape, ih]
    rfl

end WitnessLedger.Json
