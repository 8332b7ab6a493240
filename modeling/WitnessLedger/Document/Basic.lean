import WitnessLedger.Json.Basic
import WitnessLedger.Decimal.Reader
import WitnessLedger.Time.Reader
import WitnessLedger.Digest.Basic
import WitnessLedger.Double.Printer

/-! # Documents

Values of the ledger have a form as JSON documents, in which they are kept and handed on.  A
record is an object with a member for each field.  Reading accepts the object in any order and
with members that it does not know, and also an array of the fields in their order. -/

namespace WitnessLedger

/-- A type whose values have a form as documents. -/
class Document (α : Type) where
  toJson : α → Json
  ofJson? : Json → Option α

/-- The named parts of a document. -/
structure Fields where
  members : List (String × Json)

namespace Fields

/-- The parts of a document whose fields have the given names. -/
def of? (names : List String) : Json → Option Fields
  | .object members => some ⟨members⟩
  | .array elements => if elements.length = names.length then some ⟨names.zip elements⟩ else none
  | _ => none

/-- The part with a name. -/
def part? (f : Fields) (name : String) : Option Json := SortedMap.find? name f.members

/-- The value of a field that has to be there. -/
def get {α : Type} [Document α] (f : Fields) (name : String) : Option α :=
  (f.part? name).bind Document.ofJson?

/-- The value of a field that may be missing or null. -/
def optional {α : Type} [Document α] (f : Fields) (name : String) : Option (Option α) :=
  match f.part? name with
  | none => some none
  | some .null => some none
  | some v => (Document.ofJson? v).map some

end Fields

namespace Json

/-- An integer below a bound. -/
def naturalBelow? (bound : Nat) : Json → Option Nat
  | .integer (.ofNat n) => if n < bound then some n else none
  | _ => none

/-- A name out of a list of names, which may also be the only member of an object, with the
    value null. -/
def name? : Json → Option String
  | .string s => some s
  | .object [(s, .null)] => some s
  | _ => none

/-- A number as a decimal or its text. -/
def decimal? : Json → Option Decimal
  | .string s => Decimal.read? s
  | .integer n => Decimal.ofInt? n
  | .real s a => Decimal.readPlain? (Layout.plain.signed s a)
  | _ => none

/-- The bytes of a digest. -/
def digest? : Json → Option Digest
  | .array elements => do
    let bytes ← elements.mapM (naturalBelow? 256)
    Digest.ofBytes? (bytes.map UInt8.ofNat)
  | _ => none

end Json

open Document

instance : Document String where
  toJson := .string
  ofJson?
    | .string s => some s
    | _ => none

instance : Document Bool where
  toJson := .bool
  ofJson?
    | .bool b => some b
    | _ => none

/-- Numbers are read up to 64 bits. -/
instance : Document Nat where
  toJson := .natural
  ofJson? := Json.naturalBelow? UInt64.size

instance : Document UInt32 where
  toJson n := .natural n.toNat
  ofJson? v := (Json.naturalBelow? UInt32.size v).map UInt32.ofNat

instance : Document UInt64 where
  toJson n := .natural n.toNat
  ofJson? v := (Json.naturalBelow? UInt64.size v).map UInt64.ofNat

instance : Document Double where
  toJson := .ofDouble
  ofJson?
    | .integer n => some (.ofInt n)
    | .real s a => some (.finite s a)
    | _ => none

instance : Document Decimal where
  toJson d := .string d.text
  ofJson? := Json.decimal?

instance : Document Instant where
  toJson t := .string t.text
  ofJson?
    | .string s => Instant.read? s
    | _ => none

instance : Document Digest where
  toJson d := .array (d.bytes.map fun b => .natural b.toNat)
  ofJson? := Json.digest?

instance {α : Type} [Document α] : Document (List α) where
  toJson := .list toJson
  ofJson?
    | .array elements => elements.mapM ofJson?
    | _ => none

instance {α : Type} [Document α] : Document (Option α) where
  toJson := .optional toJson
  ofJson?
    | .null => some none
    | v => (ofJson? v).map some

instance {α : Type} [Document α] : Document (SortedMap α) where
  toJson m := .object (m.toList.map fun (k, v) => (k, toJson v))
  ofJson?
    | .object members => do
      let parts ← members.mapM fun (k, v) => (ofJson? v).map fun x => (k, x)
      return SortedMap.ofList parts
    | _ => none

end WitnessLedger
