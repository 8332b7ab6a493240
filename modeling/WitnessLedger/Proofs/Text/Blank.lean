import WitnessLedger.Double.Reader
import WitnessLedger.Text.Blank
import Mathlib.Data.List.DropRight
import Mathlib.Data.List.TakeWhile

/-!
# Blanks around a text and in it

A text is what trimming leaves of it with blanks around that, and blanks around a text make no
difference to what trimming leaves.  The text of a number has no blank at all, so that a reader that
trims first only takes more texts, and reads none differently.

## Key results

- `exists_eq_trim`: a text is what trimming leaves, with blanks around it
- `trim_append`: blanks around a text make no difference to what trimming leaves
- `trimStart_append`: digits stay at the front
- `NoBlank.trimmed_eq`: a text without blanks is not changed by trimming
- `Double.noBlank_of_read?`: a text that reads as a number has no blank
- `Double.read?_trimmed`: it reads as the same number without the blanks around it
-/

namespace WitnessLedger

namespace Text

/-- A character that is not blank stays at the front. -/
theorem trimStart_cons {c : Char} (hc : isBlank c = false) (cs : List Char) :
    trimStart (c :: cs) = c :: cs := by
  rw [trimStart, List.dropWhile_cons, hc]
  rfl

theorem isBlank_of_isDigit {c : Char} (hc : c.isDigit = true) : isBlank c = false := by
  have hrange : 48 ≤ c.toNat ∧ c.toNat ≤ 57 := by
    simp only [Char.isDigit, Bool.and_eq_true, decide_eq_true_eq, ge_iff_le,
      UInt32.le_iff_toNat_le] at hc
    exact hc
  simp only [isBlank, Bool.or_eq_false_iff, Bool.and_eq_false_iff, decide_eq_false_iff_not,
    beq_eq_false_iff_ne]
  omega

theorem trimStart_append {ds : List Char} (hne : ds ≠ []) (hdigits : ∀ c ∈ ds, c.isDigit = true)
    (rest : List Char) : trimStart (ds ++ rest) = ds ++ rest := by
  obtain ⟨c, cs, rfl⟩ := List.exists_cons_of_ne_nil hne
  exact trimStart_cons (isBlank_of_isDigit (hdigits c (List.mem_cons_self ..))) _

/-! ## Blanks around a text -/

/-- A text is what trimming leaves of it, with blanks around that. -/
theorem exists_eq_trim (cs : List Char) :
    ∃ before after, (∀ c ∈ before, isBlank c = true) ∧ (∀ c ∈ after, isBlank c = true) ∧
      cs = before ++ trim cs ++ after := by
  refine ⟨cs.takeWhile isBlank, (trimStart cs).rtakeWhile isBlank,
    fun c hc => List.mem_takeWhile_imp hc, fun c hc => List.mem_rtakeWhile_imp hc, ?_⟩
  have hend : trim cs ++ (trimStart cs).rtakeWhile isBlank = trimStart cs :=
    List.rdropWhile_append_rtakeWhile
  rw [List.append_assoc, hend, trimStart, List.takeWhile_append_dropWhile]

/-- Blanks around a text make no difference to what trimming leaves of it. -/
theorem trim_append {before after : List Char} (hbefore : ∀ c ∈ before, isBlank c = true)
    (hafter : ∀ c ∈ after, isBlank c = true) (cs : List Char) :
    trim (before ++ cs ++ after) = trim cs := by
  have hend : ∀ ds, trimEnd (ds ++ after) = trimEnd ds := by
    intro ds
    have hreverse : ∀ c ∈ after.reverse, isBlank c = true :=
      fun c hc => hafter c (List.mem_reverse.1 hc)
    rw [trimEnd, trimEnd, List.reverse_append, List.dropWhile_append_of_pos hreverse]
  rw [trim, trim, trimStart, trimStart, List.append_assoc, List.dropWhile_append_of_pos hbefore,
    List.dropWhile_append]
  split
  · -- the text is blank all over, and so are the blanks behind it
    next hblank => rw [List.isEmpty_iff.1 hblank, List.dropWhile_eq_nil_iff.2 hafter]
  · exact hend _

@[simp] theorem trim_trim (cs : List Char) : trim (trim cs) = trim cs := by
  obtain ⟨before, after, hbefore, hafter, heq⟩ := exists_eq_trim cs
  calc trim (trim cs)
      = trim (before ++ trim cs ++ after) := (trim_append hbefore hafter _).symm
    _ = trim cs := by rw [← heq]

theorem mem_of_mem_trim {c : Char} {cs : List Char} (h : c ∈ trim cs) : c ∈ cs := by
  obtain ⟨before, after, -, -, heq⟩ := exists_eq_trim cs
  rw [heq]
  exact List.mem_append_left _ (List.mem_append_right _ h)

@[simp] theorem trimmed_trimmed (s : String) : trimmed (trimmed s) = trimmed s := by
  rw [trimmed, trimmed, String.toList_ofList, trim_trim]

/-- Trimming takes the blanks around a text away. -/
theorem trimmed_append {before after : String} (hbefore : isBlankText before = true)
    (hafter : isBlankText after = true) (s : String) :
    trimmed (before ++ s ++ after) = trimmed s := by
  rw [trimmed, trimmed, String.toList_append, String.toList_append,
    trim_append (List.all_eq_true.1 hbefore) (List.all_eq_true.1 hafter)]

/-- A trimmed text that is not empty is not blank. -/
theorem isBlankText_eq_false {s : String} (hne : s ≠ "") (htrimmed : trimmed s = s) :
    isBlankText s = false := by
  rw [Bool.eq_false_iff]
  intro hblank
  have hempty : trimmed ("" ++ "" ++ s) = trimmed "" := trimmed_append (by decide) hblank ""
  rw [String.empty_append, String.empty_append, htrimmed] at hempty
  exact hne hempty

/-! ## Texts without blanks -/

/-- No character of a text is blank. -/
def NoBlank (cs : List Char) : Prop := ∀ c ∈ cs, isBlank c = false

instance (cs : List Char) : Decidable (NoBlank cs) :=
  List.decidableBAll (fun c => isBlank c = false) cs

theorem NoBlank.reverse {cs : List Char} (h : NoBlank cs) : NoBlank cs.reverse :=
  fun c hc => h c (List.mem_reverse.1 hc)

theorem NoBlank.trimStart_eq {cs : List Char} (h : NoBlank cs) : trimStart cs = cs := by
  cases cs with
  | nil => rfl
  | cons c cs => exact trimStart_cons (h c (List.mem_cons_self ..)) cs

theorem NoBlank.trim_eq {cs : List Char} (h : NoBlank cs) : trim cs = cs := by
  rw [trim, h.trimStart_eq, trimEnd, ← trimStart, h.reverse.trimStart_eq, List.reverse_reverse]

/-- Trimming leaves a text without blanks alone. -/
theorem NoBlank.trimmed_eq {s : String} (h : NoBlank s.toList) : trimmed s = s := by
  rw [trimmed, h.trim_eq, String.ofList_toList]

theorem noBlank_of_isDigit {cs : List Char} (h : ∀ c ∈ cs, c.isDigit = true) : NoBlank cs :=
  fun c hc => isBlank_of_isDigit (h c hc)

/-- A text has no blank if what stands behind its leading digits has none. -/
theorem NoBlank.of_dropWhile {cs : List Char} (h : NoBlank (cs.dropWhile Char.isDigit)) :
    NoBlank cs := by
  have hdigits : NoBlank (cs.takeWhile Char.isDigit) :=
    noBlank_of_isDigit fun _ hc => List.mem_takeWhile_imp hc
  rw [← List.takeWhile_append_dropWhile (p := Char.isDigit) (l := cs)]
  exact List.forall_mem_append.2 ⟨hdigits, h⟩

/-- The blanks are all outside the range of the letters that have another case. -/
theorem toLower_of_isBlank {c : Char} (h : isBlank c = true) : c.toLower = c := by
  refine dif_neg ?_
  rintro ⟨hlow, hhigh⟩
  have hlow' : 65 ≤ c.toNat := UInt32.le_iff_toNat_le.1 hlow
  have hhigh' : c.toNat ≤ 90 := UInt32.le_iff_toNat_le.1 hhigh
  simp only [isBlank, Bool.or_eq_true, Bool.and_eq_true, decide_eq_true_eq, beq_iff_eq] at h
  omega

/-- A text has no blank if its lower case has none. -/
theorem NoBlank.of_toLower {cs : List Char} (h : NoBlank (cs.map Char.toLower)) : NoBlank cs := by
  intro c hc
  have hlower := h c.toLower (List.mem_map_of_mem hc)
  by_contra hblank
  rw [Bool.not_eq_false] at hblank
  rw [toLower_of_isBlank hblank, hblank] at hlower
  cases hlower

theorem Numeral.noBlank_of_read? {cs : List Char} {n : Nat} (h : Numeral.read? cs = some n) :
    NoBlank cs := by
  unfold Numeral.read? at h
  split at h
  · cases h
  · next hdigits =>
    simp only [Bool.or_eq_true, Bool.not_eq_true', not_or, Bool.not_eq_false,
      List.all_eq_true] at hdigits
    exact noBlank_of_isDigit hdigits.2

end Text

namespace Double

open Text

theorem noBlank_of_readExponent? {cs : List Char} {e : Int} (h : readExponent? cs = some e) :
    NoBlank cs := by
  unfold readExponent? at h
  split at h <;>
    simp only [Option.map_eq_some_iff, Option.bind_eq_bind, Option.bind_eq_some_iff] at h
  · obtain ⟨-, ⟨n, hn, -⟩, -⟩ := h
    exact List.forall_mem_cons.2 ⟨by decide, Numeral.noBlank_of_read? hn⟩
  · obtain ⟨n, hn, -⟩ := h
    exact List.forall_mem_cons.2 ⟨by decide, Numeral.noBlank_of_read? hn⟩
  · obtain ⟨n, hn, -⟩ := h
    exact Numeral.noBlank_of_read? hn

/-- Behind the digits stands nothing, or a mark and an exponent. -/
private theorem noBlank_of_readPower {cs : List Char} {f : Int → Option Double} {x : Double}
    (h : (match cs with
      | [] => some 0 >>= f
      | c :: tail =>
        if c = 'e' || c = 'E' then readExponent? tail >>= f else none >>= f) = some x) :
    NoBlank cs := by
  split at h
  · exact fun _ hc => nomatch hc
  · next c tail =>
    split at h
    · next hmark =>
      obtain ⟨e, he, -⟩ := Option.bind_eq_some_iff.1 h
      have hblank : isBlank c = false := by
        simp only [Bool.or_eq_true, decide_eq_true_eq] at hmark
        obtain rfl | rfl := hmark <;> decide
      exact List.forall_mem_cons.2 ⟨hblank, noBlank_of_readExponent? he⟩
    · cases h

theorem noBlank_of_readUnsigned? {negative : Bool} {cs : List Char} {x : Double}
    (h : readUnsigned? negative cs = some x) : NoBlank cs := by
  apply NoBlank.of_dropWhile
  unfold readUnsigned? at h
  dsimp only at h
  split at h
  · next tail hafter =>
    rw [hafter]
    split at h
    · cases h
    · exact List.forall_mem_cons.2 ⟨by decide, NoBlank.of_dropWhile (noBlank_of_readPower h)⟩
  · split at h
    · cases h
    · exact noBlank_of_readPower h

theorem noBlank_of_readMagnitude? {negative : Bool} {cs : List Char} {x : Double}
    (h : readMagnitude? negative cs = some x) : NoBlank cs := by
  have hword {word : String} (heq : String.ofList (cs.map Char.toLower) = word)
      (hblank : NoBlank word.toList) : NoBlank cs := by
    rw [← heq, String.toList_ofList] at hblank
    exact hblank.of_toLower
  unfold readMagnitude? at h
  split at h
  · next heq => exact hword heq (by decide)
  · next heq => exact hword heq (by decide)
  · next heq => exact hword heq (by decide)
  · exact noBlank_of_readUnsigned? h

/-- A text that reads as a number has no blank, at its ends or inside. -/
theorem noBlank_of_read? {s : String} {x : Double} (h : read? s = some x) : NoBlank s.toList := by
  unfold read? at h
  split at h
  · next cs hs =>
    rw [hs]
    exact List.forall_mem_cons.2 ⟨by decide, noBlank_of_readMagnitude? h⟩
  · next cs hs =>
    rw [hs]
    exact List.forall_mem_cons.2 ⟨by decide, noBlank_of_readMagnitude? h⟩
  · exact noBlank_of_readMagnitude? h

/-- A text that reads as a number reads as the same number without the blanks around it. -/
theorem read?_trimmed {s : String} {x : Double} (h : read? s = some x) :
    read? (trimmed s) = some x := by
  rw [(noBlank_of_read? h).trimmed_eq, h]

end Double

end WitnessLedger
