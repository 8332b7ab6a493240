import WitnessLedger.Text.Numeral
import Mathlib.Data.List.Induction
import Mathlib.Tactic.Ring

/-!
# Places of decimal numerals

What digits denote when they stand next to each other, and how the number of digits goes with the
size of a number.

## Key results

- `value_append`: digits in front count for as many places as stand behind them
- `lt_pow_length_digits`, `pow_length_digits_le`: the size of a number by its number of digits
- `head?_digits_ne`: only zero is written with a leading zero
- `value_padded`, `length_padded`: zeros in front change the number of digits and nothing else
-/

namespace WitnessLedger.Text.Numeral

/-- A number is found again in its text. -/
theorem text_inj {n n' : Nat} (h : text n = text n') : n = n' :=
  digits_inj (String.ofList_injective h)

theorem colon_notMem_digits (n : Nat) : ':' ∉ digits n := by
  intro h
  exact absurd (isDigit_of_mem_digits h) (by decide)

/-- Digits in front of others count for as many places as these have. -/
theorem value_append (cs ds : List Char) :
    value (cs ++ ds) = value cs * 10 ^ ds.length + value ds := by
  induction ds using List.reverseRecOn with
  | nil => simp [value]
  | append_singleton ds d ih =>
    have hsnoc : ∀ cs, value (cs ++ [d]) = 10 * value cs + (d.toNat - 48) := fun cs => by
      rw [value, List.foldl_append]
      rfl
    rw [← List.append_assoc, hsnoc, hsnoc, ih, List.length_append, List.length_singleton]
    ring

/-- Digits denote a number below the power of ten of their length. -/
theorem value_lt_pow_length {ds : List Char} (h : ∀ d ∈ ds, d.isDigit = true) :
    value ds < 10 ^ ds.length := by
  induction ds using List.reverseRecOn with
  | nil => exact Nat.one_pos
  | append_singleton ds d ih =>
    have hlt := ih fun c hc => h c (List.mem_append_left _ hc)
    have hd : value [d] < 10 := by
      have hdigit := h d (List.mem_append_right _ (List.mem_singleton_self d))
      simp only [Char.isDigit, Bool.and_eq_true, decide_eq_true_eq] at hdigit
      have hnine : d.toNat ≤ 57 := UInt32.le_iff_toNat_le.1 hdigit.2
      show 10 * 0 + (d.toNat - 48) < 10
      omega
    rw [value_append, List.length_append, List.length_singleton, Nat.pow_add, Nat.pow_one]
    omega

@[simp] theorem value_replicate (n : Nat) : value (List.replicate n '0') = 0 := by
  induction n with
  | zero => rfl
  | succ n ih =>
    rw [List.replicate_succ', value_append, ih]
    rfl

/-- Zeros in front count for nothing. -/
theorem value_replicate_append (n : Nat) (ds : List Char) :
    value (List.replicate n '0' ++ ds) = value ds := by
  rw [value_append, value_replicate, Nat.zero_mul, Nat.zero_add]

/-- Zeros at the end multiply by powers of ten. -/
theorem value_append_replicate (ds : List Char) (n : Nat) :
    value (ds ++ List.replicate n '0') = value ds * 10 ^ n := by
  rw [value_append, value_replicate, List.length_replicate, Nat.add_zero]

theorem digits_ne_nil (n : Nat) : digits n ≠ [] := by
  rw [digits]
  split <;> simp

/-- A number is below the power of ten with as many zeros as it has digits. -/
theorem lt_pow_length_digits (n : Nat) : n < 10 ^ (digits n).length := by
  induction n using Nat.strongRecOn with
  | _ n ih =>
    rw [digits]
    split
    · next h => simpa using h
    · next h =>
      have hrest := ih (n / 10) (by omega)
      rw [List.length_append, List.length_singleton, Nat.pow_succ]
      omega

/-- A positive number reaches the power of ten with one zero less. -/
theorem pow_length_digits_le {n : Nat} (hn : 0 < n) : 10 ^ (digits n).length ≤ 10 * n := by
  induction n using Nat.strongRecOn with
  | _ n ih =>
    rw [digits]
    split
    · next h =>
      rw [List.length_singleton]
      omega
    · next h =>
      have hrest := ih (n / 10) (by omega) (by omega)
      rw [List.length_append, List.length_singleton, Nat.pow_succ]
      omega

/-- Only zero is written with a leading zero. -/
theorem head?_digits_ne {n : Nat} (hn : 0 < n) : (digits n).head? ≠ some '0' := by
  induction n using Nat.strongRecOn with
  | _ n ih =>
    rw [digits]
    split
    · next h =>
      have : ∀ d < 10, 0 < d → [digit d].head? ≠ some '0' := by decide
      exact this n h hn
    · next h =>
      have hrest := ih (n / 10) (by omega) (by omega)
      obtain ⟨c, cs, hcs⟩ := List.exists_cons_of_ne_nil (digits_ne_nil (n / 10))
      rw [hcs] at hrest ⊢
      exact hrest

theorem length_digits_le {n width : Nat} (hwidth : 0 < width) (hn : n < 10 ^ width) :
    (digits n).length ≤ width := by
  by_contra hlong
  have hpos : 0 < n := by
    by_contra hzero
    have hone : (digits n).length = 1 := by
      rw [Nat.eq_zero_of_not_pos hzero, digits]
      rfl
    omega
  have hsize := pow_length_digits_le hpos
  have hmore : 10 ^ (width + 1) ≤ 10 ^ (digits n).length :=
    Nat.pow_le_pow_right (by decide) (by omega)
  rw [Nat.pow_succ] at hmore
  omega

/-! ## Zeros in front -/

theorem isDigit_of_mem_padded {width n : Nat} {c : Char} (h : c ∈ padded width n) :
    c.isDigit = true := by
  rw [padded] at h
  rcases List.mem_append.1 h with h | h
  · rw [List.eq_of_mem_replicate h]
    rfl
  · exact isDigit_of_mem_digits h

@[simp] theorem value_padded (width n : Nat) : value (padded width n) = n := by
  rw [padded, value_replicate_append, value_digits]

theorem le_length_padded (width n : Nat) : width ≤ (padded width n).length := by
  rw [padded, List.length_append, List.length_replicate]
  omega

/-- A number that fits is written with as many digits as asked for. -/
theorem length_padded {width n : Nat} (hwidth : 0 < width) (hn : n < 10 ^ width) :
    (padded width n).length = width := by
  have hshort := length_digits_le hwidth hn
  rw [padded, List.length_append, List.length_replicate]
  omega

/-- Digits are read as the number that they denote. -/
theorem read?_of_isDigit {cs : List Char} (hne : cs ≠ []) (h : ∀ c ∈ cs, c.isDigit = true) :
    read? cs = some (value cs) := by
  rw [read?, List.all_eq_true.2 h, List.isEmpty_eq_false_iff.2 hne]
  rfl

end WitnessLedger.Text.Numeral
