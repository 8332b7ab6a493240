/-! # Splitting at a separator

A text with `n` separators splits into `n + 1` parts, empty ones included, and joining the
parts gives the text back (`join_split`).  A part without a separator ends at the first one
(`append_cons_inj`). -/

namespace WitnessLedger.Text

/-- The parts of a text between the occurrences of a separator. -/
def split (sep : Char) : List Char → List (List Char)
  | [] => [[]]
  | c :: cs =>
    if c = sep then [] :: split sep cs
    else
      match split sep cs with
      | [] => [[c]]
      | part :: parts => (c :: part) :: parts

/-- Puts a separator between the parts. -/
def join (sep : Char) : List (List Char) → List Char
  | [] => []
  | [part] => part
  | part :: next :: parts => part ++ sep :: join sep (next :: parts)

theorem split_ne_nil (sep : Char) (cs : List Char) : split sep cs ≠ [] := by
  cases cs with
  | nil => simp [split]
  | cons c cs =>
    rw [split]
    split
    · simp
    · split <;> simp

/-- Nothing is lost by splitting. -/
theorem join_split (sep : Char) (cs : List Char) : join sep (split sep cs) = cs := by
  induction cs with
  | nil => rfl
  | cons c cs ih =>
    rw [split]
    by_cases h : c = sep
    · rw [if_pos h]
      cases hs : split sep cs with
      | nil => exact absurd hs (split_ne_nil sep cs)
      | cons part parts => rw [hs] at ih; simp [join, ih, h]
    · rw [if_neg h]
      cases hs : split sep cs with
      | nil => exact absurd hs (split_ne_nil sep cs)
      | cons part parts =>
        rw [hs] at ih
        cases parts with
        | nil => simp only [join] at ih ⊢; rw [ih]
        | cons next parts => simp only [join, List.cons_append] at ih ⊢; rw [ih]

theorem split_append_cons {sep : Char} {part : List Char} (h : sep ∉ part) (cs : List Char) :
    split sep (part ++ sep :: cs) = part :: split sep cs := by
  induction part with
  | nil => rw [List.nil_append, split, if_pos rfl]
  | cons c part ih =>
    rw [List.mem_cons, not_or] at h
    rw [List.cons_append, split, if_neg (Ne.symm h.1), ih h.2]

/-- The first separator of a text divides it in only one way. -/
theorem append_cons_inj {sep : Char} {part part' cs cs' : List Char} (h : sep ∉ part)
    (h' : sep ∉ part') (heq : part ++ sep :: cs = part' ++ sep :: cs') :
    part = part' ∧ cs = cs' := by
  have hsplit := congrArg (split sep) heq
  rw [split_append_cons h, split_append_cons h', List.cons.injEq] at hsplit
  refine ⟨hsplit.1, ?_⟩
  rw [← join_split sep cs, hsplit.2, join_split]

/-- The parts of a string between the occurrences of a separator. -/
def splitText (sep : Char) (s : String) : List String :=
  (split sep s.toList).map String.ofList

/-- Joins strings with a text between them. -/
def joinText (between : String) (parts : List String) : String :=
  between.intercalate parts

end WitnessLedger.Text
