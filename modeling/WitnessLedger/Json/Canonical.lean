import WitnessLedger.Json.Printer

/-! # Canonical JSON

The compact text of a value whose members are sorted by name at every depth.  Two values that
differ in the order of members only have one canonical text. -/

namespace WitnessLedger.Json

mutual

/-- Sorts the members of every object inside a value. -/
def sorted : Json → Json
  | .array xs => .array (sortedElements xs)
  | .object members => sortedObject (sortedMembers members)
  | .null => .null
  | .bool b => .bool b
  | .integer n => .integer n
  | .real s a => .real s a
  | .string s => .string s

/-- Sorts inside every element. -/
def sortedElements : List Json → List Json
  | [] => []
  | x :: xs => x.sorted :: sortedElements xs

/-- Sorts inside the value of every member. -/
def sortedMembers : List (String × Json) → List (String × Json)
  | [] => []
  | (k, x) :: rest => (k, x.sorted) :: sortedMembers rest

end

/-- The characters of the canonical text. -/
def canonicalCharacters (v : Json) : List Char := v.sorted.characters

/-- The canonical text. -/
def canonical (v : Json) : String := String.ofList v.canonicalCharacters

end WitnessLedger.Json
