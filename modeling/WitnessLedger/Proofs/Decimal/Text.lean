import WitnessLedger.Decimal.Reader
import WitnessLedger.Proofs.Text.Numeral

/-!
# Decimals read back

The text of a decimal is read as the same decimal: its digits fit the mantissa, so that the reader
never rounds, and they are as many as its places.  Only the sign of a zero is lost, which is written
but not read.

## Key results

- `eq_of_sameAmount`: with a given number of places and a given sign an amount has one form
- `Reading.read?_digits`: the reader takes digits that fit one by one
- `read?_text`: what is read of the text of a decimal
- `text_inj`: different decimals have different texts, zeros with different signs included
-/

namespace WitnessLedger.Decimal

/-- The decimal without the sign of a zero. -/
def unsigned (d : Decimal) : Decimal := { d with negative := d.isNegative }

/-- Whether a decimal is a zero with a sign. -/
def isSignedZero (d : Decimal) : Bool := d.negative && d.mantissa == 0

/-- Only the sign of a zero is dropped. -/
theorem unsigned_eq_self_iff {d : Decimal} : d.unsigned = d ↔ d.isSignedZero = false := by
  obtain ⟨negative, mantissa, scale, h⟩ := d
  cases negative <;> simp [unsigned, isNegative, isSignedZero]

/-- An amount has one form with a given number of places, apart from the sign of zero. -/
theorem eq_of_sameAmount {d e : Decimal} (h : d.sameAmount e = true) (hscale : d.scale = e.scale)
    (hsign : d.negative = e.negative) : d = e := by
  have hamount : d.signed * Nat.pow 10 (maxScale - d.scale) =
      e.signed * Nat.pow 10 (maxScale - e.scale) := beq_iff_eq.1 h
  rw [hscale] at hamount
  have hsigned : d.signed = e.signed :=
    Int.eq_of_mul_eq_mul_right (Int.natCast_ne_zero.2 (Nat.pow_pos (by decide)).ne') hamount
  have hmantissa : d.mantissa = e.mantissa := by
    rw [signed, signed, hsign] at hsigned
    split at hsigned <;> omega
  cases d
  cases e
  cases hscale
  cases hsign
  cases hmantissa
  rfl

open Text Text.Numeral

namespace Reading

/-- The state after some digits. -/
def pushAll (r : Reading) (ds : List Char) : Reading := ds.foldl push r

theorem mantissa_pushAll (r : Reading) (ds : List Char) :
    (r.pushAll ds).mantissa = r.mantissa * 10 ^ ds.length + Numeral.value ds := by
  induction ds using List.reverseRecOn with
  | nil => simp [pushAll, Numeral.value]
  | append_singleton ds d ih =>
    have hlast : (r.pushAll (ds ++ [d])).mantissa =
        10 * (r.pushAll ds).mantissa + (d.toNat - 48) := by
      rw [pushAll, List.foldl_append]
      rfl
    have hdigit : Numeral.value [d] = d.toNat - 48 := by simp [Numeral.value]
    rw [hlast, ih, value_append, hdigit, List.length_append, List.length_singleton]
    ring

theorem pointed_pushAll (r : Reading) (ds : List Char) :
    (r.pushAll ds).pointed = r.pointed := by
  induction ds generalizing r with
  | nil => rfl
  | cons d ds ih => exact ih (r.push d)

theorem scale_pushAll (r : Reading) (ds : List Char) :
    (r.pushAll ds).scale = if r.pointed then r.scale + ds.length else
      if ds = [] then r.scale else 0 := by
  induction ds using List.reverseRecOn with
  | nil => simp [pushAll]
  | append_singleton ds d ih =>
    have hlast : (r.pushAll (ds ++ [d])).scale =
        if (r.pushAll ds).pointed then (r.pushAll ds).scale + 1 else 0 := by
      rw [pushAll, List.foldl_append]
      rfl
    rw [hlast, pointed_pushAll, ih]
    cases r.pointed with
    | true => simp [Nat.add_assoc]
    | false => simp

theorem started_pushAll {r : Reading} {ds : List Char} (h : ds ≠ []) :
    (r.pushAll ds).started = true := by
  induction ds using List.reverseRecOn with
  | nil => exact absurd rfl h
  | append_singleton ds d ih =>
    rw [pushAll, List.foldl_append]
    rfl

/-- Digits are taken one by one, as long as they fit the mantissa and the places. -/
theorem read?_digits {r : Reading} {ds : List Char} (hdigits : ∀ c ∈ ds, c.isDigit = true)
    (hmantissa : (r.pushAll ds).mantissa < bound)
    (hscale : r.scale + (if r.pointed then ds.length else 1) ≤ maxScale) (rest : List Char) :
    r.read? (ds ++ rest) = (r.pushAll ds).read? rest := by
  induction ds generalizing r with
  | nil => rfl
  | cons d ds ih =>
    have hroom : ¬ maxScale ≤ r.scale := by
      split at hscale
      · rw [List.length_cons] at hscale
        omega
      · omega
    have hdigit : d.isDigit = true := hdigits d (List.mem_cons_self ..)
    -- what has been read so far is no more than what is read in the end
    have hfits : (r.push d).mantissa < bound := by
      have hall : (r.pushAll (d :: ds)).mantissa = _ := mantissa_pushAll (r.push d) ds
      rw [hall] at hmantissa
      have hgrows := Nat.le_mul_of_pos_right (r.push d).mantissa (Nat.pow_pos (n := ds.length)
        (show 0 < 10 by decide))
      omega
    have hscale' : (r.push d).scale + (if (r.push d).pointed then ds.length else 1) ≤ maxScale := by
      simp only [push]
      split at hscale
      · next hpointed =>
        rw [List.length_cons] at hscale
        simp only [hpointed, if_true]
        omega
      · next hpointed =>
        simp only [hpointed, Bool.false_eq_true, if_false]
        decide
    have hrest := ih (fun c hc => hdigits c (List.mem_cons_of_mem _ hc)) hmantissa hscale'
    rw [List.cons_append, read?, if_neg hroom, if_pos hdigit, if_pos hfits, hrest]
    rfl

/-- A point comes before the first digit of the places. -/
theorem read?_point {r : Reading} (hscale : r.scale = 0) (hpointed : r.pointed = false)
    (rest : List Char) : r.read? ('.' :: rest) = { r with pointed := true }.read? rest := by
  have hroom : ¬ maxScale ≤ r.scale := by
    rw [hscale]
    decide
  have hdigit : ('.' : Char).isDigit ≠ true := by decide
  rw [read?, if_neg hroom, if_neg hdigit, if_pos (by rw [hpointed]; rfl)]

theorem read?_nil {r : Reading} (h : r.started = true) :
    r.read? [] = some (r.mantissa, r.scale) := by
  rw [read?, if_pos h]

/-- Digits that fit, with a point in front of the places if there are any, are read exactly. -/
theorem read?_whole {whole places : List Char} (hne : whole ≠ [])
    (hwhole : ∀ c ∈ whole, c.isDigit = true) (hplaces : ∀ c ∈ places, c.isDigit = true)
    (hlength : places.length ≤ maxScale) (hbound : Numeral.value (whole ++ places) < bound) :
    start.read? (whole ++ if places = [] then [] else '.' :: places) =
      some (Numeral.value (whole ++ places), places.length) := by
  have hmantissa : (start.pushAll whole).mantissa = Numeral.value whole := by
    rw [mantissa_pushAll, start, Nat.zero_mul, Nat.zero_add]
  have hscale : (start.pushAll whole).scale = 0 := by
    rw [scale_pushAll, if_neg (by decide), if_neg hne]
  have hpointed : (start.pushAll whole).pointed = false := pointed_pushAll start whole
  have hless : Numeral.value whole < bound := by
    rw [value_append] at hbound
    have hgrows := Nat.le_mul_of_pos_right (Numeral.value whole) (Nat.pow_pos (n := places.length)
      (show 0 < 10 by decide))
    omega
  have hroom : start.scale + (if start.pointed then whole.length else 1) ≤ maxScale := by
    simp only [start, Bool.false_eq_true, if_false]
    decide
  rw [read?_digits hwhole (hmantissa ▸ hless) hroom]
  split
  · next hnone =>
    rw [read?_nil (started_pushAll hne), hmantissa, hscale, hnone, List.append_nil, List.length_nil]
  · next hsome =>
    have hmantissa' : ({ start.pushAll whole with pointed := true }.pushAll places).mantissa =
        Numeral.value (whole ++ places) := by
      rw [mantissa_pushAll, hmantissa, value_append]
    have hscale' : ({ start.pushAll whole with pointed := true }.pushAll places).scale =
        places.length := by
      rw [scale_pushAll, if_pos rfl, hscale, Nat.zero_add]
    have hread := read?_digits (r := { start.pushAll whole with pointed := true }) hplaces
      (hmantissa' ▸ hbound) (by rw [if_pos rfl, hscale, Nat.zero_add]; exact hlength) []
    rw [List.append_nil] at hread
    rw [read?_point hscale hpointed, hread, read?_nil (started_pushAll hsome), hmantissa', hscale']

end Reading

/-- A text that starts with a digit has no sign. -/
theorem readPlain?_of_isDigit {c : Char} (hc : c.isDigit = true) (cs : List Char) :
    readPlain? (c :: cs) =
      (Reading.start.read? (c :: cs)).bind fun p => ofParts? false p.1 p.2 := by
  have hminus : c ≠ '-' := by
    rintro rfl
    cases hc
  have hplus : c ≠ '+' := by
    rintro rfl
    cases hc
  rw [readPlain?]
  · rfl
  · exact fun _ h => hminus (List.cons.inj h).1
  · exact fun _ h => hplus (List.cons.inj h).1

theorem readPlain?_minus (cs : List Char) :
    readPlain? ('-' :: cs) = (Reading.start.read? cs).bind fun p => ofParts? true p.1 p.2 := rfl

/-- The digits of a decimal, those before the point apart from the places. -/
theorem exists_characters_eq (d : Decimal) :
    ∃ c whole places, (∀ x ∈ c :: whole, x.isDigit = true) ∧ (∀ x ∈ places, x.isDigit = true) ∧
      places.length = d.scale ∧ Numeral.value (c :: whole ++ places) = d.mantissa ∧
      d.characters = (if d.negative then ['-'] else []) ++
        (c :: whole ++ if places = [] then [] else '.' :: places) := by
  have hlength := le_length_padded (d.scale + 1) d.mantissa
  have hdigits : ∀ x ∈ padded (d.scale + 1) d.mantissa, x.isDigit = true := fun x hx =>
    isDigit_of_mem_padded hx
  have hvalue := Numeral.value_padded (d.scale + 1) d.mantissa
  unfold characters
  generalize padded (d.scale + 1) d.mantissa = ds at hlength hdigits hvalue ⊢
  -- there is a digit before the point
  have hwhole : ds.take (ds.length - d.scale) ≠ [] := by
    intro h
    have hnone := congrArg List.length h
    rw [List.length_take, List.length_nil] at hnone
    omega
  obtain ⟨c, whole, htake⟩ := List.exists_cons_of_ne_nil hwhole
  have hplaces : (ds.drop (ds.length - d.scale)).length = d.scale := by
    rw [List.length_drop]
    omega
  have hnone : ds.drop (ds.length - d.scale) = [] ↔ d.scale = 0 := by
    rw [← List.length_eq_zero_iff, hplaces]
  refine ⟨c, whole, ds.drop (ds.length - d.scale), fun x hx => ?_, fun x hx => ?_, hplaces, ?_, ?_⟩
  · exact hdigits x (List.mem_of_mem_take (htake ▸ hx))
  · exact hdigits x (List.mem_of_mem_drop hx)
  · rw [← htake, List.take_append_drop, hvalue]
  · simp only [htake, hnone, List.append_assoc]

/-- The text of a decimal is read as the same decimal, without the sign of a zero. -/
theorem readPlain?_characters (d : Decimal) : readPlain? d.characters = some d.unsigned := by
  obtain ⟨c, whole, places, hwhole, hplaces, hlength, hvalue, heq⟩ := d.exists_characters_eq
  have hread : Reading.start.read? (c :: whole ++ if places = [] then [] else '.' :: places) =
      some (d.mantissa, d.scale) := by
    rw [Reading.read?_whole (List.cons_ne_nil _ _) hwhole hplaces (hlength ▸ d.scale_le)
      (hvalue ▸ d.mantissa_lt), hvalue, hlength]
  have hparts : ofParts? d.negative d.mantissa d.scale = some d.unsigned := by
    rw [ofParts?, ofSignedParts?, dif_pos d.inRange]
    rfl
  rw [heq]
  cases hnegative : d.negative with
  | false =>
    rw [hnegative] at hparts
    rw [if_neg Bool.false_ne_true, List.nil_append, List.cons_append,
      readPlain?_of_isDigit (hwhole c (List.mem_cons_self ..)), ← List.cons_append, hread,
      Option.bind_some, hparts]
  | true =>
    rw [hnegative] at hparts
    rw [if_pos rfl, List.singleton_append, readPlain?_minus, hread, Option.bind_some, hparts]

/-- The text of a decimal is read as the same decimal, without the sign of a zero. -/
theorem read?_text (d : Decimal) : read? d.text = some d.unsigned := by
  rw [read?, text, String.toList_ofList, readPlain?_characters]
  rfl

/-- The text of a decimal shows its places, and its sign also at a zero. -/
theorem text_inj {d e : Decimal} (h : d.text = e.text) : d = e := by
  have hunsigned : d.unsigned = e.unsigned := by
    apply Option.some.inj
    rw [← read?_text, ← read?_text, h]
  obtain ⟨dsign, dmantissa, dscale, hd⟩ := d
  obtain ⟨esign, emantissa, escale, he⟩ := e
  obtain ⟨-, rfl, rfl⟩ := Decimal.mk.inj hunsigned
  -- apart from the sign the two texts are the same
  have hcharacters := String.ofList_injective h
  simp only [characters, List.append_assoc] at hcharacters
  have hsigns : (if dsign = true then ['-'] else []) = if esign = true then ['-'] else [] :=
    List.append_cancel_right hcharacters
  rw [Decimal.mk.injEq]
  refine ⟨?_, rfl, rfl⟩
  revert hsigns
  cases dsign <;> cases esign <;> decide

end WitnessLedger.Decimal
