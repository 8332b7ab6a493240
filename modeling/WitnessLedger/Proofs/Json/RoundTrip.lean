import WitnessLedger.Proofs.Json.Quote
import WitnessLedger.Proofs.Json.Reread

/-!
# Texts that are read

The compact text of a value is read as `reread?` says.  Each call of the reader takes one from the
fuel; two for each character are enough.

## Key results

- `readsText`: what the text of a value is read as at the front of another text
- `readWith?_text`: what it is read as on its own
- `read?_text`: it is read as this value with its members sorted, unless it is nested too deep
-/

namespace WitnessLedger.Json

variable {p : Precision}

/-! ## The first character -/

/-- The characters that a value can start with. -/
def StartsValue (c : Char) : Prop :=
  c ∈ ['n', 't', 'f', '"', '[', '\x7b', '-'] ∨ c.isDigit = true

instance : DecidablePred StartsValue := fun _ => inferInstanceAs (Decidable (_ ∨ _))

/-- The number that a text starts with has its sign or a digit in front. -/
theorem exists_of_readNumber? {cs : List Char} {r : Json × List Char}
    (h : readNumber? p cs = some r) :
    ∃ c tail, cs = c :: tail ∧ (c = '-' ∨ c.isDigit = true) := by
  unfold readNumber? at h
  split at h
  · exact ⟨_, _, rfl, .inl rfl⟩
  · obtain ⟨c, tail, hcs, hc⟩ := exists_of_readUnsigned? h
    exact ⟨c, tail, hcs, .inr hc⟩

theorem StartsValue.of_number {c : Char} (hc : c = '-' ∨ c.isDigit = true) : StartsValue c :=
  hc.imp (fun h => by rw [h]; decide) id

theorem skipBlanks_of_starts {c : Char} (hc : StartsValue c) (cs : List Char) :
    skipBlanks (c :: cs) = c :: cs := by
  have hblank : ¬ (c = ' ' || c = '\n' || c = '\r' || c = '\t') = true := by
    simp only [Bool.or_eq_true, decide_eq_true_eq]
    rintro (((rfl | rfl) | rfl) | rfl) <;> exact absurd hc (by decide)
  exact List.dropWhile_cons_of_neg hblank

/-- The text of an integer of 64 bits starts with its sign or a digit. -/
theorem exists_intDigits_eq {n : Int} (hn : (integer n).WellFormed) :
    ∃ c tail, Text.Numeral.intDigits n = c :: tail ∧ (c = '-' ∨ c.isDigit = true) := by
  -- what is read back cannot be empty
  have hread := readNumber?_intDigits (p := .nearest) hn.1 hn.2 endsValue_nil
  rw [List.append_nil] at hread
  exact exists_of_readNumber? hread

/-- So does the text of a double. -/
theorem exists_signed_eq (s : Bool) (a : Magnitude) :
    ∃ c tail, Layout.document.signed s a = c :: tail ∧ (c = '-' ∨ c.isDigit = true) := by
  have hread := readNumber?_signed .nearest s a endsValue_nil
  rw [List.append_nil, rereadReal?_nearest] at hread
  exact exists_of_readNumber? hread

/-- The text of a value starts with a character that a value can start with. -/
theorem exists_characters_eq : ∀ {v : Json}, v.WellFormed →
    ∃ c cs, v.characters = c :: cs ∧ StartsValue c
  | .null, _ => ⟨_, _, rfl, by decide⟩
  | .bool true, _ => ⟨_, _, rfl, by decide⟩
  | .bool false, _ => ⟨_, _, rfl, by decide⟩
  | .integer _, hn =>
    have ⟨c, cs, hcs, hc⟩ := exists_intDigits_eq hn
    ⟨c, cs, hcs, .of_number hc⟩
  | .real s a, _ =>
    have ⟨c, cs, hcs, hc⟩ := exists_signed_eq s a
    ⟨c, cs, hcs, .of_number hc⟩
  | .string _, _ => ⟨_, _, rfl, by decide⟩
  | .array [], _ => ⟨_, _, rfl, by decide⟩
  | .array (_ :: _), _ => ⟨_, _, rfl, by decide⟩
  | .object [], _ => ⟨_, _, rfl, by decide⟩
  | .object ((_, _) :: _), _ => ⟨_, _, rfl, by decide⟩

/-! ## Values without parts -/

/-- The text of a value at the front of another is read as `reread?` says, given two of fuel for
    each of its characters. -/
def ReadsText (p : Precision) (v : Json) : Prop :=
  ∀ fuel depth rest, 2 * v.characters.length ≤ fuel → EndsValue rest →
    readValue? p fuel depth (v.characters ++ rest) = (v.reread? p depth).map fun w => (w, rest)

/-- A value that is read by one call, whatever follows it. -/
theorem readsText_of_step {v : Json} (hlength : 0 < v.characters.length)
    (h : ∀ fuel depth rest, readValue? p (fuel + 1) depth (v.characters ++ rest) =
      (v.reread? p depth).map fun w => (w, rest)) : ReadsText p v := by
  intro fuel depth rest hfuel _
  obtain ⟨fuel, rfl⟩ := Nat.exists_eq_add_one_of_ne_zero (n := fuel) (by omega)
  exact h fuel depth rest

theorem readValue?_number {c : Char} (hc : c = '-' ∨ c.isDigit = true) (fuel depth : Nat)
    (cs : List Char) : readValue? p (fuel + 1) depth (c :: cs) = readNumber? p (c :: cs) := by
  rw [readValue?, skipBlanks_of_starts (.of_number hc)]
  split
  case h_7 => rfl
  all_goals
    next heq =>
    rw [(List.cons.inj heq).1] at hc
    exact absurd hc (by decide)

/-- What a text is read as as a number, it is read as as a value. -/
theorem readsText_of_number {v : Json}
    (hstart : ∃ c cs, v.characters = c :: cs ∧ (c = '-' ∨ c.isDigit = true))
    (h : ∀ depth rest, EndsValue rest → readNumber? p (v.characters ++ rest) =
      (v.reread? p depth).map fun w => (w, rest)) : ReadsText p v := by
  intro fuel depth rest hfuel hrest
  have hread := h depth rest hrest
  obtain ⟨c, tail, hcs, hc⟩ := hstart
  rw [hcs] at hfuel hread ⊢
  obtain ⟨fuel, rfl⟩ := Nat.exists_eq_add_one_of_ne_zero (n := fuel) (by simp at hfuel; omega)
  rw [List.cons_append, readValue?_number hc]
  exact hread

theorem readsText_string (s : String) : ReadsText p (.string s) := by
  have htext : ∀ rest, (Json.string s).characters ++ rest =
      '"' :: (s.toList.flatMap escape ++ '"' :: rest) := by
    simp [characters, scalar, quote]
  refine readsText_of_step (by simp [characters, scalar, quote]) fun fuel depth rest => ?_
  rw [htext, readValue?, skipBlanks_of_starts (by decide)]
  simp only [readString?_quote]
  simp [reread?]

/-! ## Arrays and objects -/

/-- An array that has an element is read from there on, one deeper. -/
theorem readValue?_array {c : Char} (hc : StartsValue c) (fuel depth : Nat) (cs : List Char) :
    readValue? p (fuel + 1) (depth + 1) ('[' :: c :: cs) =
      (readElements? p fuel depth (c :: cs)).map fun (xs, rest) => (.array xs, rest) := by
  rw [readValue?, skipBlanks_of_starts (by decide)]
  simp only [skipBlanks_of_starts hc]
  split
  · next heq =>
    rw [(List.cons.inj heq).1] at hc
    exact absurd hc (by decide)
  · rfl

/-- An object that has a member is read from there on, one deeper. -/
theorem readValue?_object (fuel depth : Nat) (cs : List Char) :
    readValue? p (fuel + 1) (depth + 1) ('\x7b' :: '"' :: cs) =
      (readMembers? p fuel depth ('"' :: cs)).map fun (ms, rest) => (sortedObject ms, rest) := by
  rw [readValue?, skipBlanks_of_starts (by decide)]
  simp only [skipBlanks_of_starts (c := '"') (by decide)]
  rfl

theorem endsValue_elementCharacters (xs : List Json) (rest : List Char) :
    EndsValue (elementCharacters xs ++ rest) := by
  cases xs with
  | nil => exact fun c hc => by cases hc; simp
  | cons x xs => exact fun c hc => by cases hc; simp

theorem endsValue_memberCharacters (ms : List (String × Json)) (rest : List Char) :
    EndsValue (memberCharacters ms ++ rest) := by
  cases ms with
  | nil => exact fun c hc => by cases hc; simp
  | cons m ms => exact fun c hc => by cases hc; simp

/-- The first element is read, and then the others after a comma. -/
theorem readElements?_cons {x : Json} (hx : ReadsText p x) (xs : List Json) {fuel : Nat}
    (hfuel : 2 * x.characters.length ≤ fuel) (depth : Nat) (rest : List Char) :
    readElements? p (fuel + 1) depth (x.characters ++ (elementCharacters xs ++ rest)) =
      (x.reread? p depth).bind fun y =>
        match elementCharacters xs ++ rest with
        | ',' :: tail => (readElements? p fuel depth tail).map fun (xs, rest) => (y :: xs, rest)
        | ']' :: tail => some ([y], tail)
        | _ => none := by
  have hread := hx fuel depth (elementCharacters xs ++ rest) hfuel
    (endsValue_elementCharacters xs rest)
  rw [readElements?, hread]
  cases x.reread? p depth with
  | none => rfl
  | some y =>
    cases xs with
    | nil => rfl
    | cons x' xs =>
      show Option.bind (readElements? p fuel depth _) _ =
        Option.map _ (readElements? p fuel depth _)
      cases readElements? p fuel depth (x'.characters ++ elementCharacters xs ++ rest) <;> rfl

/-- The first member is read, and then the others after a comma. -/
theorem readMembers?_cons (k : String) {x : Json} (hx : ReadsText p x) (ms : List (String × Json))
    {fuel : Nat} (hfuel : 2 * x.characters.length ≤ fuel) (depth : Nat) (rest : List Char) :
    readMembers? p (fuel + 1) depth
        (quote k ++ ':' :: (x.characters ++ (memberCharacters ms ++ rest))) =
      (x.reread? p depth).bind fun y =>
        match memberCharacters ms ++ rest with
        | ',' :: tail => (readMembers? p fuel depth tail).map fun (ms, rest) => ((k, y) :: ms, rest)
        | '\x7d' :: tail => some ([(k, y)], tail)
        | _ => none := by
  have hread := hx fuel depth (memberCharacters ms ++ rest) hfuel
    (endsValue_memberCharacters ms rest)
  have hname := readString?_quote k.toList
    (':' :: (x.characters ++ (memberCharacters ms ++ rest)))
  have htext : quote k ++ ':' :: (x.characters ++ (memberCharacters ms ++ rest)) =
      '"' :: (k.toList.flatMap escape ++
        '"' :: ':' :: (x.characters ++ (memberCharacters ms ++ rest))) := by
    simp [quote]
  rw [htext, readMembers?, skipBlanks_of_starts (by decide)]
  simp only [hname, Option.bind_eq_bind, Option.bind_some, String.ofList_toList]
  show Option.bind (readValue? p fuel depth _) _ = _
  rw [hread]
  cases x.reread? p depth with
  | none => rfl
  | some y =>
    cases ms with
    | nil => rfl
    | cons m ms =>
      obtain ⟨l, x'⟩ := m
      show Option.bind (readMembers? p fuel depth _) _ = Option.map _ (readMembers? p fuel depth _)
      cases readMembers? p fuel depth
        (quote l ++ ':' :: x'.characters ++ memberCharacters ms ++ rest) <;> rfl

mutual

/-- The text of a value is read at the front of another. -/
theorem readsText : ∀ v : Json, v.WellFormed → ReadsText p v
  | .null, _ => readsText_of_step (by decide) fun _ _ _ => rfl
  | .bool true, _ => readsText_of_step (by decide) fun _ _ _ => rfl
  | .bool false, _ => readsText_of_step (by decide) fun _ _ _ => rfl
  | .integer _, hn =>
    readsText_of_number (exists_intDigits_eq hn) fun _ _ => readNumber?_intDigits hn.1 hn.2
  | .real s a, _ =>
    readsText_of_number (exists_signed_eq s a) fun _ _ => readNumber?_signed p s a
  | .string s, _ => readsText_string s
  | .array [], _ => readsText_of_step (by decide) fun _ depth _ => by cases depth <;> rfl
  | .array (x :: xs), ⟨hx, hxs⟩ => by
    intro fuel depth rest hfuel _
    have hread := readElements?_append xs hxs (readsText x hx)
    obtain ⟨c, cs, hcs, hc⟩ := exists_characters_eq hx
    have htext : (Json.array (x :: xs)).characters ++ rest =
        '[' :: (x.characters ++ (elementCharacters xs ++ rest)) := by
      simp [characters]
    simp only [characters, List.length_append, List.length_cons] at hfuel
    -- one of the two for the bracket is taken by this call, the other by that for the elements
    obtain ⟨fuel, rfl⟩ := Nat.exists_eq_add_one_of_ne_zero (n := fuel) (by omega)
    rw [htext]
    cases depth with
    | zero => rfl
    | succ depth =>
      rw [hcs, List.cons_append, readValue?_array hc, ← List.cons_append, ← hcs,
        hread fuel depth rest (by rw [List.length_append]; omega), reread?]
      cases rereadElements? p depth (x :: xs) <;> rfl
  | .object [], _ => readsText_of_step (by decide) fun _ depth _ => by cases depth <;> rfl
  | .object ((k, x) :: ms), ⟨_, hx, hms⟩ => by
    intro fuel depth rest hfuel _
    have hread := readMembers?_append ms hms k (readsText x hx)
    have htext : (Json.object ((k, x) :: ms)).characters ++ rest =
        '\x7b' :: (quote k ++ ':' :: (x.characters ++ (memberCharacters ms ++ rest))) := by
      simp [characters]
    simp only [characters, List.length_append, List.length_cons] at hfuel
    obtain ⟨fuel, rfl⟩ := Nat.exists_eq_add_one_of_ne_zero (n := fuel) (by omega)
    rw [htext]
    cases depth with
    | zero => rfl
    | succ depth =>
      rw [quote, List.cons_append, List.cons_append, readValue?_object, ← List.cons_append,
        ← List.cons_append, ← quote,
        hread fuel depth rest (by simp only [List.length_append, List.length_cons]; omega), reread?]
      cases rereadMembers? p depth ((k, x) :: ms) <;> rfl

/-- The elements of an array are read from the first one on. -/
theorem readElements?_append : ∀ xs : List Json, WellFormedElements xs → ∀ {x : Json},
    ReadsText p x → ∀ fuel depth rest, 2 * (x.characters ++ elementCharacters xs).length + 1 ≤ fuel →
      readElements? p fuel depth (x.characters ++ (elementCharacters xs ++ rest)) =
        (rereadElements? p depth (x :: xs)).map fun ys => (ys, rest)
  | [], _, x, hx, fuel, depth, rest, hfuel => by
    rw [List.length_append] at hfuel
    obtain ⟨fuel, rfl⟩ := Nat.exists_eq_add_one_of_ne_zero (n := fuel) (by omega)
    rw [readElements?_cons hx [] (by omega) depth rest, rereadElements?]
    cases x.reread? p depth <;> rfl
  | x' :: xs, ⟨hx', hxs⟩, x, hx, fuel, depth, rest, hfuel => by
    have hread := @readElements?_append xs hxs x' (readsText x' hx')
    simp only [elementCharacters, List.length_append, List.length_cons] at hfuel
    obtain ⟨fuel, rfl⟩ := Nat.exists_eq_add_one_of_ne_zero (n := fuel) (by omega)
    rw [readElements?_cons hx (x' :: xs) (by omega) depth rest, rereadElements?]
    cases x.reread? p depth with
    | none => rfl
    | some y =>
      show Option.map _
        (readElements? p fuel depth (x'.characters ++ elementCharacters xs ++ rest)) = _
      rw [List.append_assoc, hread fuel depth rest (by rw [List.length_append]; omega)]
      cases rereadElements? p depth (x' :: xs) <;> rfl

/-- The members of an object are read from the first one on. -/
theorem readMembers?_append : ∀ ms : List (String × Json), WellFormedMembers ms →
    ∀ (k : String) {x : Json}, ReadsText p x → ∀ fuel depth rest,
      2 * (quote k ++ ':' :: (x.characters ++ memberCharacters ms)).length + 1 ≤ fuel →
        readMembers? p fuel depth
            (quote k ++ ':' :: (x.characters ++ (memberCharacters ms ++ rest))) =
          (rereadMembers? p depth ((k, x) :: ms)).map fun ns => (ns, rest)
  | [], _, k, x, hx, fuel, depth, rest, hfuel => by
    simp only [List.length_append, List.length_cons] at hfuel
    obtain ⟨fuel, rfl⟩ := Nat.exists_eq_add_one_of_ne_zero (n := fuel) (by omega)
    rw [readMembers?_cons k hx [] (by omega) depth rest, rereadMembers?]
    cases x.reread? p depth <;> rfl
  | (l, x') :: ms, ⟨hx', hms⟩, k, x, hx, fuel, depth, rest, hfuel => by
    have hread := readMembers?_append ms hms l (readsText x' hx')
    simp only [memberCharacters, List.length_append, List.length_cons] at hfuel
    obtain ⟨fuel, rfl⟩ := Nat.exists_eq_add_one_of_ne_zero (n := fuel) (by omega)
    rw [readMembers?_cons k hx ((l, x') :: ms) (by omega) depth rest, rereadMembers?]
    cases x.reread? p depth with
    | none => rfl
    | some y =>
      show Option.map _ (readMembers? p fuel depth
        (quote l ++ ':' :: x'.characters ++ memberCharacters ms ++ rest)) = _
      rw [List.append_assoc, List.append_assoc, List.cons_append,
        hread fuel depth rest (by simp only [List.length_append, List.length_cons]; omega)]
      cases rereadMembers? p depth ((l, x') :: ms) <;> rfl

end

/-! ## Whole texts -/

/-- What the compact text of a value is read as. -/
theorem readWith?_text (p : Precision) {v : Json} (hv : v.WellFormed) :
    readWith? p v.text = v.reread? p nestingLimit := by
  have hread := readsText (p := p) v hv (2 * v.characters.length + 2) nestingLimit [] (by omega)
    endsValue_nil
  rw [List.append_nil] at hread
  rw [readWith?, text, String.toList_ofList]
  show Option.bind (readValue? p _ _ _) _ = _
  rw [hread]
  cases v.reread? p nestingLimit <;> rfl

/-- The compact text of a value that is not nested too deep is read as this value with its members
    sorted, where the nearest doubles are found. -/
theorem read?_text {v : Json} (hv : v.WellFormed) (hdepth : v.nesting ≤ nestingLimit) :
    read? v.text = some v.sorted := by
  rw [read?, readWith?_text .nearest hv, reread?_of_finds v (everyReal_nearest v) hdepth]

end WitnessLedger.Json
