import WitnessLedger.Text.Split

/-!
# Joining and splitting

Splitting at a character is the splitting of lists that the standard library has, so that parts
without a separator come back from the text that joins them.  A text can be divided from behind,
too, where it is known how many separators follow.

## Key results

- `split_eq_splitOn`: splitting a text is splitting a list
- `notMem_of_mem_splitText`: no part holds a separator
- `splitText_joinText`: parts without a separator are what the text that joins them splits into
- `append_inj_of_count`: a tail that begins with a separator is found by counting separators
-/

namespace WitnessLedger.Text

/-- Splitting a text at a character is splitting a list at an element. -/
theorem split_eq_splitOn (sep : Char) (cs : List Char) : split sep cs = cs.splitOn sep := by
  induction cs with
  | nil => rfl
  | cons c cs ih =>
    rw [split, List.splitOn_cons_eq_if_modifyHead, ← ih]
    by_cases h : c = sep
    · rw [if_pos h, if_pos (beq_iff_eq.2 h)]
    · rw [if_neg h, if_neg (fun hbeq => h (beq_iff_eq.1 hbeq))]
      cases hs : split sep cs with
      | nil => exact absurd hs (split_ne_nil sep cs)
      | cons part parts => rfl

/-- No part of a text holds the separator. -/
theorem notMem_of_mem_split {sep : Char} {cs part : List Char} (h : part ∈ split sep cs) :
    sep ∉ part := by
  induction cs generalizing part with
  | nil =>
    rw [split, List.mem_singleton] at h
    rw [h]
    exact List.not_mem_nil
  | cons c cs ih =>
    rw [split] at h
    by_cases hc : c = sep
    · rw [if_pos hc] at h
      rcases List.mem_cons.1 h with rfl | hrest
      · exact List.not_mem_nil
      · exact ih hrest
    · rw [if_neg hc] at h
      cases hs : split sep cs with
      | nil => exact absurd hs (split_ne_nil sep cs)
      | cons first rest =>
        rw [hs] at h ih
        rcases List.mem_cons.1 h with rfl | hrest
        · exact List.not_mem_cons_of_ne_of_not_mem (Ne.symm hc) (ih (List.mem_cons_self ..))
        · exact ih (List.mem_cons_of_mem _ hrest)

theorem notMem_of_mem_splitText {sep : Char} {s part : String} (h : part ∈ splitText sep s) :
    sep ∉ part.toList := by
  obtain ⟨cs, hcs, rfl⟩ := List.mem_map.1 h
  rw [String.toList_ofList]
  exact notMem_of_mem_split hcs

/-- Parts without a separator are what the text that joins them splits into. -/
theorem splitText_joinText {sep : Char} {parts : List String} (hne : parts ≠ [])
    (h : ∀ part ∈ parts, sep ∉ part.toList) :
    splitText sep (joinText (String.singleton sep) parts) = parts := by
  have hchars : ∀ cs ∈ parts.map String.toList, sep ∉ cs := by
    intro cs hcs
    obtain ⟨part, hpart, rfl⟩ := List.mem_map.1 hcs
    exact h part hpart
  have hsplit : split sep (joinText (String.singleton sep) parts).toList =
      parts.map String.toList := by
    rw [split_eq_splitOn, joinText, String.toList_intercalate, String.toList_singleton]
    exact List.splitOn_intercalate sep hchars (by simpa using hne)
  rw [splitText, hsplit, List.map_map]
  exact List.map_id'' (fun _ => String.ofList_toList) parts

/-- A text is divided in only one way in front of a separator, where the number of separators behind
    it is known. -/
theorem append_inj_of_count {sep : Char} {front front' tail tail' : List Char}
    (h : front ++ sep :: tail = front' ++ sep :: tail')
    (hcount : tail.count sep = tail'.count sep) : front = front' ∧ tail = tail' := by
  rcases List.append_eq_append_iff.1 h with ⟨between, hfront, htail⟩ | ⟨between, hfront, htail⟩
  · -- what lies between the two places begins with a separator if there is anything
    cases between with
    | nil => simpa [hfront] using htail
    | cons c between =>
      rw [List.cons_append, List.cons.injEq] at htail
      rw [htail.2, List.count_append, List.count_cons_self] at hcount
      omega
  · cases between with
    | nil => simpa [hfront, eq_comm] using htail
    | cons c between =>
      rw [List.cons_append, List.cons.injEq] at htail
      rw [htail.2, List.count_append, List.count_cons_self] at hcount
      omega

end WitnessLedger.Text
