import WitnessLedger.Proofs.Json.RoundTrip

/-!
# Canonical texts

Canonical texts are a normal form of values up to the order of members.  Reading one gives the value
again unless arrays and objects stand in one another too deep, or the reader goes step by step and
comes to another double.

## Key results

- `canonical_eq_iff`: values have the same canonical text exactly if they are alike
- `exists_alike_canonical_iff`: which canonical texts are read as a value like the written one
- `canonical_normalForm`: both, and what follows for writing again what was read
-/

namespace WitnessLedger.Json

variable {v w : Json} {p : Precision}

/-! ## Values with the same text -/

/-- The compact text determines a value up to the order of members, however deep it is nested. -/
theorem sorted_eq_of_characters_eq (hv : v.WellFormed) (hw : w.WellFormed)
    (h : v.characters = w.characters) : v.sorted = w.sorted := by
  -- a reader with a depth for both values finds either one again
  have hread : ∀ {u : Json}, u.WellFormed → u.nesting ≤ max v.nesting w.nesting →
      readValue? .nearest (2 * u.characters.length) (max v.nesting w.nesting)
        (u.characters ++ []) = some (u.sorted, []) := by
    intro u hu hdepth
    rw [readsText u hu _ _ [] le_rfl endsValue_nil, reread?_of_finds u (everyReal_nearest u) hdepth]
    rfl
  have hread' := hread hv (le_max_left ..)
  rw [h, hread hw (le_max_right ..)] at hread'
  exact (Prod.mk.inj (Option.some.inj hread')).1.symm

/-- So does the canonical text. -/
theorem sorted_eq_of_canonical_eq (hv : v.WellFormed) (hw : w.WellFormed)
    (h : v.canonical = w.canonical) : v.sorted = w.sorted := by
  have hsorted := sorted_eq_of_characters_eq hv.sorted hw.sorted (String.ofList_injective h)
  rwa [sorted_sorted hv, sorted_sorted hw] at hsorted

/-- Values have the same canonical text exactly if they are alike. -/
theorem canonical_eq_iff (hv : v.WellFormed) (hw : w.WellFormed) :
    v.canonical = w.canonical ↔ Alike v w := by
  rw [← sorted_eq_iff hv hw]
  refine ⟨sorted_eq_of_canonical_eq hv hw, fun h => ?_⟩
  rw [canonical, canonical, canonicalCharacters, canonicalCharacters, h]

/-! ## Numbers that are equal -/

mutual

/-- A value without the signs of its zeros. -/
def unsigned : Json → Json
  | .real s a => .real (s && a.significand ≠ 0) a
  | .array xs => .array (unsignedElements xs)
  | .object ms => .object (unsignedMembers ms)
  | .null => .null
  | .bool b => .bool b
  | .integer n => .integer n
  | .string s => .string s

/-- Elements without the signs of their zeros. -/
def unsignedElements : List Json → List Json
  | [] => []
  | x :: xs => x.unsigned :: unsignedElements xs

/-- Members without the signs of their zeros. -/
def unsignedMembers : List (String × Json) → List (String × Json)
  | [] => []
  | (k, x) :: ms => (k, x.unsigned) :: unsignedMembers ms

end

/-- Values that are equal up to the order of members.  Doubles are compared as numbers, so that the
    two zeros are equal. -/
def Equal (v w : Json) : Prop := Alike v.unsigned w.unsigned

mutual

/-- Alike values are equal. -/
theorem Alike.equal {v w : Json} : Alike v w → Equal v w
  | .null => .null
  | .bool b => .bool b
  | .integer n => .integer n
  | .real _ a => .real _ a
  | .string s => .string s
  | .array h => .array h.equal
  | .object h => .object h.equal

theorem AlikeElements.equal {xs ys : List Json} :
    AlikeElements xs ys → AlikeElements (unsignedElements xs) (unsignedElements ys)
  | .nil => .nil
  | .cons h hrest => .cons h.equal hrest.equal

theorem AlikeMembers.equal {ms ns : List (String × Json)} :
    AlikeMembers ms ns → AlikeMembers (unsignedMembers ms) (unsignedMembers ns)
  | .nil => .nil
  | .cons h hrest => .cons h.equal hrest.equal
  | .swap (_, _) (_, _) _ => .swap ..
  | .trans h h' => .trans h.equal h'.equal

end

/-! ## Reading canonical texts -/

/-- What the canonical text of a value is read as. -/
theorem readWith?_canonical (p : Precision) (hv : v.WellFormed) :
    readWith? p v.canonical = v.sorted.reread? p nestingLimit :=
  readWith?_text p hv.sorted

/-- The canonical text is read as a value like the written one where this is nested no deeper than
    the reader allows and every double is found again. -/
theorem exists_alike_canonical_iff (p : Precision) (hv : v.WellFormed) :
    (∃ v', readWith? p v.canonical = some v' ∧ Alike v v') ↔
      v.nesting ≤ nestingLimit ∧ v.EveryReal p.Finds := by
  have hsorted := alike_sorted v hv
  have hread := alike_reread?_iff p nestingLimit hv.sorted
  rw [← readWith?_canonical p hv, ← hsorted.nesting_eq] at hread
  have halike : ∀ v', Alike v v' ↔ Alike v.sorted v' :=
    fun _ => ⟨hsorted.symm.trans, hsorted.trans⟩
  have hfinds : v.EveryReal p.Finds ↔ v.sorted.EveryReal p.Finds :=
    ⟨hsorted.everyReal, hsorted.symm.everyReal⟩
  simp only [halike, hfinds, hread]

/-- Of a value that is nested too deep nothing is read. -/
theorem readWith?_canonical_of_nested (p : Precision) (hv : v.WellFormed)
    (hdeep : nestingLimit < v.nesting) : readWith? p v.canonical = none := by
  rw [(alike_sorted v hv).nesting_eq] at hdeep
  rw [readWith?_canonical p hv, reread?_of_nested v.sorted hdeep]

/-- Canonical texts are a normal form of the values up to the order of members.  For values as they
    can be written: two of them have the same canonical text, as characters and as bytes, exactly
    if they are alike.  Then they are equal, and equal ones are alike where no zero has a sign.
    The text is read as a value like the written one exactly if this is nested no deeper than the
    limit and the reader finds each of its doubles again.  One that finds the nearest doubles always
    does, and one that goes step by step does for short texts.  What is read has the same canonical
    text again exactly if it is alike, and nothing is read of a value that is nested deeper. -/
theorem canonical_normalForm (hv : v.WellFormed) (hw : w.WellFormed) :
    (v.canonical = w.canonical ↔ Alike v w) ∧
      (v.canonical.toUTF8 = w.canonical.toUTF8 ↔ Alike v w) ∧
      (Alike v w → Equal v w) ∧ (v.unsigned = v → w.unsigned = w → Equal v w → Alike v w) ∧
      v.EveryReal Precision.nearest.Finds ∧
      (v.EveryReal (fun _ a => a.IsShort) → v.EveryReal Precision.stepwise.Finds) ∧
      ∀ p, ((∃ v', readWith? p v.canonical = some v' ∧ Alike v v') ↔
          v.nesting ≤ nestingLimit ∧ v.EveryReal p.Finds) ∧
        (∀ v', readWith? p v.canonical = some v' → (v'.canonical = v.canonical ↔ Alike v v')) ∧
        (nestingLimit < v.nesting → readWith? p v.canonical = none) := by
  have hsame := canonical_eq_iff hv hw
  refine ⟨hsame, ?_, Alike.equal, fun hsigns hsigns' h => ?_, everyReal_nearest v,
    everyReal_stepwise, fun p => ⟨exists_alike_canonical_iff p hv, fun v' hread => ?_,
      readWith?_canonical_of_nested p hv⟩⟩
  · rw [← hsame]
    exact String.toByteArray_inj
  · rwa [Equal, hsigns, hsigns'] at h
  · rw [readWith?_canonical p hv] at hread
    have hv' := wellFormed_of_reread? v.sorted hv.sorted hread
    rw [canonical_eq_iff hv' hv]
    exact ⟨Alike.symm, Alike.symm⟩

/-- An object in two orders, with an object inside in two orders too, and an escaped character. -/
theorem canonical_reordered :
    let x : Json := .array [.real true ⟨Magnitude.leadingBit, 1021, by decide⟩, .integer (-1)]
    let v : Json := .object [("b", x), ("a", .object [("z", .null), ("y", .string "\t")])]
    let w : Json := .object [("a", .object [("y", .string "\t"), ("z", .null)]), ("b", x)]
    v.WellFormed ∧ w.WellFormed ∧ v.canonical = w.canonical ∧ ∃ v',
      readWith? .stepwise v.canonical = some v' ∧ Alike v v' ∧ v'.canonical = v.canonical := by
  intro x v w
  have hv : v.WellFormed := by simp [v, x, WellFormed, WellFormedElements, WellFormedMembers]
  have hw : w.WellFormed := by simp [w, x, WellFormed, WellFormedElements, WellFormedMembers]
  have halike : Alike v w :=
    .object (.trans (.swap _ _ _) (.cons (.object (.swap _ _ _)) (.refl _)))
  obtain ⟨hsame, -, -, -, -, hfinds, hread⟩ := canonical_normalForm hv hw
  obtain ⟨hback, hagain, -⟩ := hread .stepwise
  have hshort : Magnitude.IsShort ⟨Magnitude.leadingBit, 1021, by decide⟩ := by decide +kernel
  obtain ⟨v', hv', halike'⟩ := hback.2 ⟨by decide, hfinds
    ⟨⟨hshort, trivial, trivial⟩, ⟨trivial, trivial, trivial⟩, trivial⟩⟩
  exact ⟨hv, hw, hsame.2 halike, v', hv', halike', (hagain v' hv').2 halike'⟩

/-! ## Where writing and reading change a value -/

/-- An empty array that stands in a number of arrays. -/
def nested : Nat → Json
  | 0 => .array []
  | n + 1 => .array [nested n]

theorem nesting_nested (n : Nat) : (nested n).nesting = n + 1 := by
  induction n with
  | zero => rfl
  | succ n ih => rw [nested, nesting, nestingElements, nestingElements, ih, Nat.max_zero]

theorem wellFormed_nested (n : Nat) : (nested n).WellFormed := by
  induction n with
  | zero => trivial
  | succ n ih => exact ⟨ih, trivial⟩

/-- The zeros are equal and have different texts; an array in too many arrays is written and not
    read; and a reader that goes step by step comes from the text of a double to another double,
    which has another text. -/
theorem not_canonical_normalForm :
    let zero : Json := .real false .zero
    let negativeZero : Json := .real true .zero
    let fraction : Json := .real false ⟨8514241504521788, 1021, by decide⟩
    (zero.WellFormed ∧ negativeZero.WellFormed ∧ Equal zero negativeZero ∧
      zero.canonical = "0.0" ∧ negativeZero.canonical = "-0.0") ∧
    ((nested 127).WellFormed ∧ ∀ p, readWith? p (nested 127).canonical = none) ∧
    (fraction.WellFormed ∧ fraction.canonical = "0.9452706955539223" ∧
      (readWith? .stepwise fraction.canonical).map canonical = some "0.9452706955539224") := by
  have hdeep : nestingLimit < (nested 127).nesting := by
    rw [nesting_nested]
    decide
  exact ⟨⟨trivial, trivial, Alike.refl _, by decide +kernel, by decide +kernel⟩,
    ⟨wellFormed_nested 127, fun p => readWith?_canonical_of_nested p (wellFormed_nested 127) hdeep⟩,
    ⟨trivial, by decide +kernel, by decide +kernel⟩⟩

end WitnessLedger.Json
