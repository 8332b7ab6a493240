/-! # Bytes of a text

The UTF-8 form of a text, which is what is hashed.  Different texts have different bytes
(`bytes_inj`). -/

namespace WitnessLedger.Text

/-- The UTF-8 bytes of a text. -/
def bytes (s : String) : List UInt8 := s.toByteArray.data.toList

theorem bytes_inj {s t : String} : bytes s = bytes t ↔ s = t := by
  rw [bytes, bytes, Array.toList_inj, ← String.toByteArray_inj]
  constructor
  · intro h
    cases hs : s.toByteArray with
    | mk a => cases ht : t.toByteArray with | mk b => rw [hs, ht] at h; simp_all
  · intro h; rw [h]

end WitnessLedger.Text
