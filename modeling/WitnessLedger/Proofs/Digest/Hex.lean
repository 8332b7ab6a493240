import WitnessLedger.Digest.Basic
import WitnessLedger.Proofs.Text.Hex

/-!
# The hexadecimal form of a digest

A digest is read from exactly the texts of 64 hexadecimal digits in either case, and is written as
the text that it was read from, in lowercase.  Any other text is refused for one cause: an odd
number of bytes, else the first byte that is no digit, else the number of bytes that it denotes.

## Key results

- `ofHex_eq_ok_iff`: which texts a digest is read from
- `exists_ofHex_iff`: which texts are read
- `ofHex_hex`: a digest is read back from its text
- `ofHex_codec`: every text is read or refused in exactly one of the four ways
-/

namespace WitnessLedger.Digest

open Text.Hex (IsDigit IsLowerDigit IsDigitByte IsFirstNonDigit)

variable {s : String}

@[simp] theorem toList_hex (d : Digest) : d.hex.toList = Text.Hex.encode d.bytes :=
  String.toList_ofList

theorem length_hex (d : Digest) : d.hex.length = 64 := by
  rw [hex, String.length_ofList, length_hexCharacters]

/-! ## By the bytes -/

theorem ofHex_of_fault {fault : Text.Hex.Fault}
    (h : Text.Hex.decode (Text.bytes s) = .error fault) : ofHex s = .error (.invalidHex fault) := by
  rw [ofHex, ofHexBytes, h]

theorem ofHex_of_bytes {bytes : List UInt8} (h : Text.Hex.decode (Text.bytes s) = .ok bytes) :
    ofHex s = if hlength : bytes.length = 32 then .ok ⟨bytes, hlength⟩
      else .error (.wrongLength bytes.length) := by
  rw [ofHex, ofHexBytes, h]

theorem ofHex_eq_invalidHex_iff {fault : Text.Hex.Fault} :
    ofHex s = .error (.invalidHex fault) ↔ Text.Hex.decode (Text.bytes s) = .error fault := by
  refine ⟨fun h => ?_, ofHex_of_fault⟩
  cases hdecode : Text.Hex.decode (Text.bytes s) with
  | error fault' =>
    rw [ofHex_of_fault hdecode] at h
    cases h
    rfl
  | ok bytes =>
    rw [ofHex_of_bytes hdecode] at h
    split at h <;> cases h

/-- A text of digits is refused if it does not denote as many bytes as a digest has. -/
theorem ofHex_eq_wrongLength_iff {n : Nat} :
    ofHex s = .error (.wrongLength n) ↔ n ≠ 32 ∧ (Text.bytes s).length = 2 * n ∧
      ∀ b ∈ Text.bytes s, IsDigitByte b := by
  constructor
  · intro h
    cases hdecode : Text.Hex.decode (Text.bytes s) with
    | error fault =>
      rw [ofHex_of_fault hdecode] at h
      cases h
    | ok bytes =>
      rw [ofHex_of_bytes hdecode] at h
      split at h
      · cases h
      · next hne =>
        cases h
        obtain ⟨hdigits, hencode⟩ := Text.Hex.decode_eq_ok_iff.1 hdecode
        have hlength := congrArg List.length hencode
        rw [Text.Hex.length_encode, List.length_map] at hlength
        exact ⟨hne, hlength.symm, hdigits⟩
  · rintro ⟨hne, hlength, hdigits⟩
    obtain ⟨bytes, hdecode, hbytes⟩ := Text.Hex.exists_decode (by omega) hdigits
    have hsize : bytes.length = n := by omega
    rw [ofHex_of_bytes hdecode, dif_neg (hsize ▸ hne), hsize]

/-! ## By the characters -/

/-- A digest is read from exactly the digits that it is written with, in either case. -/
theorem ofHex_eq_ok_iff {d : Digest} :
    ofHex s = .ok d ↔ (∀ c ∈ s.toList, IsDigit c) ∧ d.hex = s.toLower := by
  have hbytes : ofHex s = .ok d ↔ Text.Hex.decode (Text.bytes s) = .ok d.bytes := by
    constructor
    · intro h
      cases hdecode : Text.Hex.decode (Text.bytes s) with
      | error fault =>
        rw [ofHex_of_fault hdecode] at h
        cases h
      | ok bytes =>
        rw [ofHex_of_bytes hdecode] at h
        split at h <;> cases h
        rfl
    · intro h
      rw [ofHex_of_bytes h, dif_pos d.length_eq]
  rw [hbytes, Text.Hex.decode_eq_ok_iff, Text.Hex.forall_isDigitByte_iff]
  refine and_congr_right fun hdigits => ?_
  rw [Text.Hex.map_lowered_bytes hdigits, ← toList_hex, String.toList_inj]

/-- A text is read exactly if it consists of 64 digits. -/
theorem exists_ofHex_iff :
    (∃ d, ofHex s = .ok d) ↔ s.length = 64 ∧ ∀ c ∈ s.toList, IsDigit c := by
  constructor
  · rintro ⟨d, hd⟩
    obtain ⟨hdigits, hlower⟩ := ofHex_eq_ok_iff.1 hd
    have hlength := d.length_hex
    rw [hlower, Text.Hex.length_toLower] at hlength
    exact ⟨hlength, hdigits⟩
  · rintro ⟨hlength, hdigits⟩
    have hbytes : (Text.bytes s).length = 64 := by
      rw [Text.Hex.bytes_of_digits hdigits, List.length_map, String.length_toList, hlength]
    obtain ⟨bytes, hdecode, hsize⟩ :=
      Text.Hex.exists_decode (by omega) (Text.Hex.forall_isDigitByte_iff.2 hdigits)
    have hsize' : bytes.length = 32 := by omega
    exact ⟨⟨bytes, hsize'⟩, by rw [ofHex_of_bytes hdecode, dif_pos hsize']⟩

theorem isLowerDigit_of_mem_hex {d : Digest} {c : Char} (h : c ∈ d.hex.toList) :
    IsLowerDigit c := by
  rw [toList_hex] at h
  exact Text.Hex.isLowerDigit_of_mem_encode h

/-- A digest is read back from its text. -/
theorem ofHex_hex (d : Digest) : ofHex d.hex = .ok d := by
  have hlower : ∀ c ∈ d.hex.toList, IsDigit c ∧ c.toLower = c :=
    fun c hc => (isLowerDigit_of_mem_hex hc).isDigit
  refine ofHex_eq_ok_iff.2 ⟨fun c hc => (hlower c hc).1, ?_⟩
  have hmap : d.hex.toList.map Char.toLower = d.hex.toList.map id :=
    List.map_congr_left fun c hc => (hlower c hc).2
  rw [← String.toList_inj, Text.Hex.toList_toLower, hmap, List.map_id]

/-- A text is read as a digest exactly if it consists of 64 hexadecimal digits in either case, and
    the digest is then written as the text in lowercase.  Any other text is refused for the number of
    its bytes, if that is odd, else for the first byte that is no digit, with the number of bytes
    before it, else for the number of bytes that it denotes, half as many as it has.  Each digest is
    written with 64 lowercase digits and read back from them. -/
theorem ofHex_codec :
    (∀ s : String,
      ((∃ d, ofHex s = .ok d) ↔ s.length = 64 ∧ ∀ c ∈ s.toList, IsDigit c) ∧
        (∀ d, ofHex s = .ok d ↔ (∀ c ∈ s.toList, IsDigit c) ∧ d.hex = s.toLower) ∧
        (ofHex s = .error (.invalidHex .oddLength) ↔ (Text.bytes s).length % 2 = 1) ∧
        (∀ b n, ofHex s = .error (.invalidHex (.invalidDigit b n)) ↔
          (Text.bytes s).length % 2 = 0 ∧ IsFirstNonDigit (Text.bytes s) b n) ∧
        ∀ n, ofHex s = .error (.wrongLength n) ↔
          n ≠ 32 ∧ (Text.bytes s).length = 2 * n ∧ ∀ b ∈ Text.bytes s, IsDigitByte b) ∧
      ∀ d : Digest, ofHex d.hex = .ok d ∧ d.hex.length = 64 ∧
        ∀ c ∈ d.hex.toList, IsLowerDigit c := by
  refine ⟨fun s => ⟨exists_ofHex_iff, fun d => ofHex_eq_ok_iff, ?_, fun b n => ?_, fun n =>
    ofHex_eq_wrongLength_iff⟩, fun d => ⟨ofHex_hex d, d.length_hex, fun c =>
    isLowerDigit_of_mem_hex⟩⟩
  · rw [ofHex_eq_invalidHex_iff, Text.Hex.decode_eq_oddLength_iff]
  · rw [ofHex_eq_invalidHex_iff, Text.Hex.decode_eq_invalidDigit_iff]

/-- The position counts bytes, so that a character of two bytes can be at fault with its first. -/
example : ofHex "aé0" = .error (.invalidHex (.invalidDigit 0xC3 1)) := by decide

end WitnessLedger.Digest
