import WitnessLedger.Proofs.Json.Alike

/-!
# How deep values are nested

A reader takes values in which arrays and objects stand in one another up to a limit.  How deep they
do does not depend on the order of members.

## Key results

- `Alike.nesting_eq`: alike values are nested equally deep
- `nestingElements_le_iff`, `nestingMembers_le_iff`: a bound for the parts of a value
-/

namespace WitnessLedger.Json

mutual

/-- How many arrays and objects stand in one another in a value. -/
def nesting : Json → Nat
  | .array xs => nestingElements xs + 1
  | .object ms => nestingMembers ms + 1
  | .null => 0
  | .bool _ => 0
  | .integer _ => 0
  | .real _ _ => 0
  | .string _ => 0

/-- The deepest nesting among elements. -/
def nestingElements : List Json → Nat
  | [] => 0
  | x :: xs => max x.nesting (nestingElements xs)

/-- The deepest nesting among the values of members. -/
def nestingMembers : List (String × Json) → Nat
  | [] => 0
  | (_, x) :: ms => max x.nesting (nestingMembers ms)

end

theorem nestingElements_le_iff {n : Nat} {xs : List Json} :
    nestingElements xs ≤ n ↔ ∀ x ∈ xs, x.nesting ≤ n := by
  induction xs with
  | nil => simp [nestingElements]
  | cons x xs ih => rw [nestingElements, Nat.max_le, ih, List.forall_mem_cons]

theorem nestingMembers_le_iff {n : Nat} {ms : List (String × Json)} :
    nestingMembers ms ≤ n ↔ ∀ m ∈ ms, m.2.nesting ≤ n := by
  induction ms with
  | nil => simp [nestingMembers]
  | cons m ms ih => rw [nestingMembers, Nat.max_le, ih, List.forall_mem_cons]

mutual

/-- Alike values are nested equally deep. -/
theorem Alike.nesting_eq {v w : Json} : Alike v w → v.nesting = w.nesting
  | .null => rfl
  | .bool _ => rfl
  | .integer _ => rfl
  | .real _ _ => rfl
  | .string _ => rfl
  | .array h => congrArg (· + 1) h.nesting_eq
  | .object h => congrArg (· + 1) h.nesting_eq

theorem AlikeElements.nesting_eq {xs ys : List Json} :
    AlikeElements xs ys → nestingElements xs = nestingElements ys
  | .nil => rfl
  | .cons h hrest => by rw [nestingElements, nestingElements, h.nesting_eq, hrest.nesting_eq]

theorem AlikeMembers.nesting_eq {ms ns : List (String × Json)} :
    AlikeMembers ms ns → nestingMembers ms = nestingMembers ns
  | .nil => rfl
  | .cons h hrest => by rw [nestingMembers, nestingMembers, h.nesting_eq, hrest.nesting_eq]
  | .swap .. => Nat.max_left_comm ..
  | .trans h h' => h.nesting_eq.trans h'.nesting_eq

end

end WitnessLedger.Json
