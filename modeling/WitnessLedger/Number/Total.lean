/-! # Totals

The sum of a quantity over a list.  What two lists amount to together is the sum of what each
of them amounts to (`total_append`), and the order of a list does not matter
(`total_eq_of_perm`). -/

namespace WitnessLedger.Number

/-- The sum of a quantity over the members of a list. -/
def total {α : Type} (quantity : α → Nat) : List α → Nat
  | [] => 0
  | x :: xs => quantity x + total quantity xs

@[simp] theorem total_append {α : Type} (quantity : α → Nat) (xs ys : List α) :
    total quantity (xs ++ ys) = total quantity xs + total quantity ys := by
  induction xs with
  | nil => simp [total]
  | cons x xs ih => simp only [List.cons_append, total, ih]; omega

theorem total_flatMap {α β : Type} (quantity : β → Nat) (f : α → List β) (xs : List α) :
    total quantity (xs.flatMap f) = total (fun x => total quantity (f x)) xs := by
  induction xs with
  | nil => rfl
  | cons x xs ih => rw [List.flatMap_cons, total_append, ih, total]

theorem total_map {α β : Type} (quantity : β → Nat) (f : α → β) (xs : List α) :
    total quantity (xs.map f) = total (fun x => quantity (f x)) xs := by
  induction xs with
  | nil => rfl
  | cons x xs ih => rw [List.map_cons, total, total, ih]

theorem length_flatMap {α β : Type} (f : α → List β) (xs : List α) :
    (xs.flatMap f).length = total (fun x => (f x).length) xs := by
  induction xs with
  | nil => rfl
  | cons x xs ih => rw [List.flatMap_cons, List.length_append, ih, total]

theorem total_congr {α : Type} {f g : α → Nat} {xs : List α} (h : ∀ x ∈ xs, f x = g x) :
    total f xs = total g xs := by
  induction xs with
  | nil => rfl
  | cons x xs ih =>
    rw [total, total, h x (List.mem_cons_self ..), ih fun y hy => h y (List.mem_cons_of_mem _ hy)]

theorem total_eq_mul {α : Type} {quantity : α → Nat} {xs : List α} {n : Nat}
    (h : ∀ x ∈ xs, quantity x = n) : total quantity xs = n * xs.length := by
  induction xs with
  | nil => rfl
  | cons x xs ih =>
    rw [List.forall_mem_cons] at h
    rw [total, h.1, ih h.2, List.length_cons, Nat.mul_succ, Nat.add_comm]

theorem total_eq_of_perm {α : Type} (quantity : α → Nat) {xs ys : List α} (h : xs.Perm ys) :
    total quantity xs = total quantity ys := by
  induction h with
  | nil => rfl
  | cons x _ ih => rw [total, total, ih]
  | swap x y l => simp only [total]; omega
  | trans _ _ ih ih' => rw [ih, ih']

end WitnessLedger.Number
