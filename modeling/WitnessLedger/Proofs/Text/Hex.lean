import WitnessLedger.Text.Hex
import WitnessLedger.Proofs.Text.Order
import Mathlib.Tactic.SplitIfs

/-!
# Reading hexadecimal digits

What becomes of any bytes that are read as hexadecimal digits: an odd number of them is refused,
then the first that is no digit, and what is left denotes bytes whose own digits are those that were
read, in lowercase.  The bytes of a text are digits exactly if its characters are, since a character
beyond ASCII has no byte that is one.

## Key results

- `digit_of_digitValue?`: the value of a digit is written as the digit in lowercase
- `decodePairs_of_digits`, `decodePairs_of_nonDigit`: what pairs of bytes are read as
- `decode_eq_oddLength_iff`, `decode_eq_invalidDigit_iff`, `decode_eq_ok_iff`: what any bytes are
  read as
- `forall_isDigitByte_iff`: when the bytes of a text are digits
- `isLowerDigit_of_mem_encode`: only lowercase digits are written
-/

namespace WitnessLedger.Text.Hex

/-- Whether a character is a hexadecimal digit, in either case. -/
def IsDigit (c : Char) : Prop := c ∈ "0123456789abcdefABCDEF".toList

/-- Whether a character is a hexadecimal digit in lowercase. -/
def IsLowerDigit (c : Char) : Prop := c ∈ "0123456789abcdef".toList

/-- Whether a byte is the code of a hexadecimal digit. -/
def IsDigitByte (b : UInt8) : Prop := IsDigit (Char.ofNat b.toNat)

instance (c : Char) : Decidable (IsDigit c) :=
  inferInstanceAs (Decidable (c ∈ "0123456789abcdefABCDEF".toList))

instance (c : Char) : Decidable (IsLowerDigit c) :=
  inferInstanceAs (Decidable (c ∈ "0123456789abcdef".toList))

instance (b : UInt8) : Decidable (IsDigitByte b) :=
  inferInstanceAs (Decidable (IsDigit (Char.ofNat b.toNat)))

/-- Whether a byte is the first of a text that is no digit, with `n` bytes before it. -/
def IsFirstNonDigit (text : List UInt8) (b : UInt8) (n : Nat) : Prop :=
  ∃ before after, text = before ++ b :: after ∧ before.length = n ∧
    (∀ x ∈ before, IsDigitByte x) ∧ ¬ IsDigitByte b

/-- The code of a digit as the digit in lowercase. -/
def lowered (b : UInt8) : Char := (Char.ofNat b.toNat).toLower

/-! ## Single digits -/

/-- A lowercase digit is a digit, and is its own lowercase form. -/
theorem IsLowerDigit.isDigit {c : Char} (h : IsLowerDigit c) : IsDigit c ∧ c.toLower = c := by
  have hall : "0123456789abcdef".toList.all (fun c => IsDigit c ∧ c.toLower = c) = true := by
    decide
  exact of_decide_eq_true (List.all_eq_true.1 hall c h)

/-- What holds of the numbers below 256 holds of all bytes. -/
theorem forall_byte {P : UInt8 → Prop} (h : ∀ n < 256, P (UInt8.ofNat n)) (b : UInt8) : P b := by
  have hb := h b.toNat b.toNat_lt
  rwa [UInt8.ofNat_toNat] at hb

theorem digitValue?_eq_none_iff {b : UInt8} : digitValue? b = none ↔ ¬ IsDigitByte b := by
  refine forall_byte (P := fun b => digitValue? b = none ↔ ¬ IsDigitByte b) ?_ b
  decide +kernel

theorem exists_digitValue? {b : UInt8} (h : IsDigitByte b) : ∃ n, digitValue? b = some n :=
  Option.ne_none_iff_exists'.1 fun hnone => digitValue?_eq_none_iff.1 hnone h

/-- The value of a digit is written as the digit in lowercase. -/
theorem digit_of_digitValue? {b : UInt8} {n : Nat} (h : digitValue? b = some n) :
    n < 16 ∧ digit n = lowered b := by
  refine forall_byte (P := fun b => ∀ n ∈ digitValue? b, n < 16 ∧ digit n = lowered b) ?_ b n h
  decide +kernel

theorem isLowerDigit_digit {n : Nat} (h : n < 16) : IsLowerDigit (digit n) := by
  have : ∀ n < 16, IsLowerDigit (digit n) := by decide +kernel
  exact this n h

/-- Only lowercase digits are written. -/
theorem isLowerDigit_of_mem_encode {bytes : List UInt8} {c : Char} (h : c ∈ encode bytes) :
    IsLowerDigit c := by
  obtain ⟨b, -, hc⟩ := List.mem_flatMap.1 h
  have hlt : b.toNat < 256 := b.toNat_lt
  simp only [ofByte, List.mem_cons, List.not_mem_nil, or_false] at hc
  rcases hc with rfl | rfl
  · exact isLowerDigit_digit (by omega)
  · exact isLowerDigit_digit (by omega)

/-! ## Pairs of digits -/

/-- Two digits are the two digits of the byte that they are read as. -/
theorem ofByte_pair {hi lo : UInt8} {h l : Nat} (hhi : digitValue? hi = some h)
    (hlo : digitValue? lo = some l) :
    ofByte (UInt8.ofNat (16 * h + l)) = [lowered hi, lowered lo] := by
  obtain ⟨hh, hdigit⟩ := digit_of_digitValue? hhi
  obtain ⟨hl, ldigit⟩ := digit_of_digitValue? hlo
  have hvalue : (UInt8.ofNat (16 * h + l)).toNat = 16 * h + l :=
    UInt8.toNat_ofNat_of_lt' (show 16 * h + l < 256 by omega)
  rw [ofByte, hvalue, show (16 * h + l) / 16 = h by omega, show (16 * h + l) % 16 = l by omega,
    hdigit, ldigit]

/-- Digits are read as the bytes that are written with them, in lowercase. -/
theorem decodePairs_of_digits (position : Nat) {text : List UInt8} (heven : text.length % 2 = 0)
    (h : ∀ b ∈ text, IsDigitByte b) :
    ∃ bytes, decodePairs position text = .ok bytes ∧ encode bytes = text.map lowered := by
  match text, heven with
  | [], _ => exact ⟨[], rfl, rfl⟩
  | hi :: lo :: rest, heven =>
    obtain ⟨m, hm⟩ := exists_digitValue? (h hi (by simp))
    obtain ⟨n, hn⟩ := exists_digitValue? (h lo (by simp))
    have hrest : rest.length % 2 = 0 := by
      rw [List.length_cons, List.length_cons] at heven
      omega
    obtain ⟨bytes, hbytes, hencode⟩ :=
      decodePairs_of_digits (position + 2) hrest fun b hb => h b (by simp [hb])
    refine ⟨UInt8.ofNat (16 * m + n) :: bytes, ?_, ?_⟩
    · simp only [decodePairs, hm, hn, hbytes]
      rfl
    · rw [encode, List.flatMap_cons, ofByte_pair hm hn]
      show [lowered hi, lowered lo] ++ encode bytes = _
      rw [hencode]
      rfl

/-- The first byte that is no digit is the fault, whatever comes after it. -/
theorem decodePairs_of_nonDigit (position : Nat) {before after : List UInt8} {b : UInt8}
    (heven : (before ++ b :: after).length % 2 = 0) (hbefore : ∀ x ∈ before, IsDigitByte x)
    (hb : ¬ IsDigitByte b) :
    decodePairs position (before ++ b :: after) =
      .error (.invalidDigit b (position + before.length)) := by
  have hnone := digitValue?_eq_none_iff.2 hb
  -- Pairs of digits are read off until the byte is in the first pair, where it can stand in either
  -- place; in the first place a byte follows it, for the number of bytes is even.
  match before, after, heven with
  | [], lo :: after, _ =>
    show decodePairs position (b :: lo :: after) = _
    simp only [decodePairs, hnone]
    rfl
  | [hi], after, _ =>
    obtain ⟨m, hm⟩ := exists_digitValue? (hbefore hi (by simp))
    show decodePairs position (hi :: b :: after) = _
    simp only [decodePairs, hm, hnone]
    rfl
  | hi :: lo :: before, after, heven =>
    obtain ⟨m, hm⟩ := exists_digitValue? (hbefore hi (by simp))
    obtain ⟨n, hn⟩ := exists_digitValue? (hbefore lo (by simp))
    have hrest : (before ++ b :: after).length % 2 = 0 := by
      simp only [List.cons_append, List.length_cons] at heven
      omega
    have hfault := decodePairs_of_nonDigit (position + 2) hrest
      (fun x hx => hbefore x (by simp [hx])) hb
    show decodePairs position (hi :: lo :: (before ++ b :: after)) = _
    simp only [decodePairs, hm, hn, hfault, List.length_cons]
    rw [show position + (before.length + 1 + 1) = position + 2 + before.length by omega]
    rfl

/-! ## Any bytes -/

/-- What bytes can be read as. -/
inductive Decoded (text : List UInt8) : Except Fault (List UInt8) → Prop
  | odd (hodd : text.length % 2 = 1) : Decoded text (.error .oddLength)
  | nonDigit {b : UInt8} {n : Nat} (heven : text.length % 2 = 0)
      (hfirst : IsFirstNonDigit text b n) : Decoded text (.error (.invalidDigit b n))
  | digits {bytes : List UInt8} (hdigits : ∀ b ∈ text, IsDigitByte b)
      (hencode : encode bytes = text.map lowered) : Decoded text (.ok bytes)

theorem decoded_decode (text : List UInt8) : Decoded text (decode text) := by
  unfold decode
  by_cases hodd : text.length % 2 = 1
  · rw [if_pos hodd]
    exact .odd hodd
  · rw [if_neg hodd]
    have heven : text.length % 2 = 0 := by omega
    cases hfind : text.find? (fun b => ¬ IsDigitByte b) with
    | none =>
      have hdigits : ∀ b ∈ text, IsDigitByte b := by simpa using hfind
      obtain ⟨bytes, hbytes, hencode⟩ := decodePairs_of_digits 0 heven hdigits
      rw [hbytes]
      exact .digits hdigits hencode
    | some b =>
      obtain ⟨hb, before, after, rfl, hbefore⟩ := List.find?_eq_some_iff_append.1 hfind
      have hb' : ¬ IsDigitByte b := by simpa using hb
      have hbefore' : ∀ x ∈ before, IsDigitByte x := by simpa using hbefore
      rw [decodePairs_of_nonDigit 0 heven hbefore' hb', Nat.zero_add]
      exact .nonDigit heven ⟨before, after, rfl, rfl, hbefore', hb'⟩

theorem decode_eq_oddLength_iff {text : List UInt8} :
    decode text = .error .oddLength ↔ text.length % 2 = 1 := by
  constructor
  · intro h
    have hdecoded := decoded_decode text
    rw [h] at hdecoded
    cases hdecoded with
    | odd hodd => exact hodd
  · exact fun hodd => if_pos hodd

theorem decode_eq_invalidDigit_iff {text : List UInt8} {b : UInt8} {n : Nat} :
    decode text = .error (.invalidDigit b n) ↔
      text.length % 2 = 0 ∧ IsFirstNonDigit text b n := by
  constructor
  · intro h
    have hdecoded := decoded_decode text
    rw [h] at hdecoded
    cases hdecoded with
    | nonDigit heven hfirst => exact ⟨heven, hfirst⟩
  · rintro ⟨heven, before, after, rfl, rfl, hbefore, hb⟩
    rw [decode, if_neg (by omega), decodePairs_of_nonDigit 0 heven hbefore hb, Nat.zero_add]

/-- Bytes are read from exactly the digits that they are written with, in either case. -/
theorem decode_eq_ok_iff {text bytes : List UInt8} :
    decode text = .ok bytes ↔
      (∀ b ∈ text, IsDigitByte b) ∧ encode bytes = text.map lowered := by
  constructor
  · intro h
    have hdecoded := decoded_decode text
    rw [h] at hdecoded
    cases hdecoded with
    | digits hdigits hencode => exact ⟨hdigits, hencode⟩
  · rintro ⟨hdigits, hencode⟩
    -- The digits denote some bytes, and no other bytes are written in the same way.
    have hlength := congrArg List.length hencode
    rw [length_encode, List.length_map] at hlength
    obtain ⟨bytes', hbytes', hencode'⟩ := decodePairs_of_digits 0 (by omega) hdigits
    rw [decode, if_neg (by omega), hbytes', encode_inj (hencode'.trans hencode.symm)]

/-- An even number of digits is read as half as many bytes. -/
theorem exists_decode {text : List UInt8} (heven : text.length % 2 = 0)
    (h : ∀ b ∈ text, IsDigitByte b) :
    ∃ bytes, decode text = .ok bytes ∧ 2 * bytes.length = text.length := by
  obtain ⟨bytes, hbytes, hencode⟩ := decodePairs_of_digits 0 heven h
  refine ⟨bytes, ?_, ?_⟩
  · rw [decode, if_neg (by omega), hbytes]
  · rw [← length_encode, hencode, List.length_map]

/-! ## The bytes and the characters of a text -/

theorem toList_toLower (s : String) : s.toLower.toList = s.toList.map Char.toLower :=
  String.toList_map

theorem length_toLower (s : String) : s.toLower.length = s.length :=
  String.length_map

theorem lt_of_isDigit {c : Char} (h : IsDigit c) : c.toNat < 128 := by
  have hall : "0123456789abcdefABCDEF".toList.all (fun c => c.toNat < 128) = true := by decide
  exact of_decide_eq_true (List.all_eq_true.1 hall c h)

theorem lt_of_isDigitByte {b : UInt8} (h : IsDigitByte b) : b.toNat < 128 := by
  have hvalid : b.toNat.isValidChar := Or.inl (Nat.lt_trans b.toNat_lt (by decide))
  have hchar : Char.ofNat b.toNat = Char.ofNatAux b.toNat hvalid := dif_pos hvalid
  have hlt := lt_of_isDigit h
  rw [hchar] at hlt
  exact hlt

/-- A digit has one byte, its code. -/
theorem utf8EncodeChar_of_lt {c : Char} (h : c.toNat < 128) :
    String.utf8EncodeChar c = [UInt8.ofNat c.toNat] :=
  if_pos (Nat.le_of_lt_succ h)

theorem isDigitByte_ofNat {c : Char} (h : c.toNat < 128) :
    IsDigitByte (UInt8.ofNat c.toNat) ↔ IsDigit c := by
  rw [IsDigitByte, UInt8.toNat_ofNat_of_lt' (show c.toNat < 256 by omega), Char.ofNat_toNat]

/-- The bytes of a character are digits exactly if it is a digit. -/
theorem forall_isDigitByte_char {c : Char} :
    (∀ b ∈ String.utf8EncodeChar c, IsDigitByte b) ↔ IsDigit c := by
  by_cases hc : c.toNat < 128
  · rw [utf8EncodeChar_of_lt hc, List.forall_mem_singleton, isDigitByte_ofNat hc]
  · refine iff_of_false (fun h => ?_) fun h => hc (lt_of_isDigit h)
    -- The first byte of a longer form is above the codes of ASCII.
    have hhigh : ∃ b ∈ String.utf8EncodeChar c, 128 ≤ b.toNat := by
      have hval : ¬ c.val.toNat ≤ 127 := fun hle => hc (Nat.lt_succ_of_le hle)
      dsimp only [String.utf8EncodeChar]
      rw [if_neg hval]
      split_ifs <;>
        refine ⟨_, List.mem_cons_self .., ?_⟩ <;> rw [UInt8.toNat_ofNat'] <;> omega
    obtain ⟨b, hb, hle⟩ := hhigh
    have hlt := lt_of_isDigitByte (h b hb)
    omega

/-- The bytes of a text are digits exactly if its characters are. -/
theorem forall_isDigitByte_iff {s : String} :
    (∀ b ∈ bytes s, IsDigitByte b) ↔ ∀ c ∈ s.toList, IsDigit c := by
  rw [bytes_eq_flatMap]
  constructor
  · exact fun h c hc => forall_isDigitByte_char.1 fun b hb => h b (List.mem_flatMap.2 ⟨c, hc, hb⟩)
  · intro h b hb
    obtain ⟨c, hc, hb⟩ := List.mem_flatMap.1 hb
    exact forall_isDigitByte_char.2 (h c hc) b hb

/-- A text of digits has one byte for each of them. -/
theorem bytes_of_digits {s : String} (h : ∀ c ∈ s.toList, IsDigit c) :
    bytes s = s.toList.map fun c => UInt8.ofNat c.toNat := by
  rw [bytes_eq_flatMap, List.map_eq_flatMap]
  exact List.flatMap_congr fun c hc => utf8EncodeChar_of_lt (lt_of_isDigit (h c hc))

theorem map_lowered_bytes {s : String} (h : ∀ c ∈ s.toList, IsDigit c) :
    (bytes s).map lowered = s.toLower.toList := by
  rw [bytes_of_digits h, toList_toLower, List.map_map]
  refine List.map_congr_left fun c hc => ?_
  have hlt := lt_of_isDigit (h c hc)
  rw [Function.comp_apply, lowered, UInt8.toNat_ofNat_of_lt' (show c.toNat < 256 by omega),
    Char.ofNat_toNat]

end WitnessLedger.Text.Hex
