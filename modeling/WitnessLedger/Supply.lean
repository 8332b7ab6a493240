/-! # Supplies

What comes from outside while the ledger works, the moments of a clock and the parts of ids that
have to be new, comes one after the other from a supply. -/

namespace WitnessLedger

/-- Values that come one after the other, and how many of them are taken. -/
structure Supply (α : Type) where
  nth : Nat → α
  used : Nat

namespace Supply

variable {α : Type}

/-- The value that comes after `ahead` others. -/
def peek (s : Supply α) (ahead : Nat) : α := s.nth (s.used + ahead)

/-- The supply after some values are taken. -/
def take (s : Supply α) (count : Nat) : Supply α := { s with used := s.used + count }

@[simp] theorem peek_take (s : Supply α) (m n : Nat) : (s.take m).peek n = s.peek (m + n) :=
  congrArg s.nth (Nat.add_assoc ..)

@[simp] theorem take_take (s : Supply α) (m n : Nat) : (s.take m).take n = s.take (m + n) :=
  congrArg (Supply.mk s.nth) (Nat.add_assoc ..)

end Supply

end WitnessLedger
