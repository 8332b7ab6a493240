import WitnessLedger.Double.Basic
import WitnessLedger.SortedMap

/-! # JSON values

A number is an integer or a finite double; a number without a finite value is written as null.
Members of an object keep their order, which the printer follows; a value that was read has
them sorted. -/

namespace WitnessLedger

/-- A JSON value. -/
inductive Json where
  | null
  | bool (b : Bool)
  | integer (n : Int)
  | real (negative : Bool) (magnitude : Magnitude)
  | string (s : String)
  | array (elements : List Json)
  | object (members : List (String × Json))

namespace Json

instance : Inhabited Json := ⟨.null⟩

/-- A natural number as a value. -/
def natural (n : Nat) : Json := .integer n

/-- A double as a value. -/
def ofDouble : Double → Json
  | .finite s a => .real s a
  | _ => .null

/-- An optional value, null where there is none. -/
def optional {α : Type} (f : α → Json) : Option α → Json
  | some x => f x
  | none => .null

/-- A list as an array. -/
def list {α : Type} (f : α → Json) (xs : List α) : Json := .array (xs.map f)

/-- An object whose members are sorted by name; of two of one name the last counts. -/
def sortedObject (members : List (String × Json)) : Json :=
  .object (SortedMap.ofList members).toList

end Json

end WitnessLedger
