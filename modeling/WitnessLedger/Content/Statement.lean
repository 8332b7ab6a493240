import WitnessLedger.Error
import WitnessLedger.Text.Blank
import WitnessLedger.Decimal.Arithmetic

/-! # Bilateral statements

Two societies state their balances, what one owes the other, and which transfers that covers.
A statement is valid when its id and its societies are named, the societies differ, and no
transfer id is blank; the first of these that fails is the one reported. -/

namespace WitnessLedger

/-- A statement that two societies have agreed on. -/
structure Statement where
  statementId : String
  societyA : String
  societyB : String
  balanceA : Decimal
  balanceB : Decimal
  netPosition : Decimal
  transfersReconciled : UInt32
  transferIds : List String
  deriving DecidableEq

/-- Refuses a text that is empty or blank. -/
def requireNonBlank (field value : String) : Except Invalid Unit :=
  if Text.isBlankText value then .error (.blank field) else .ok ()

namespace Statement

/-- The id of a statement that was made here. -/
def idFor (suffix : String) : String := "stmt:" ++ suffix

/-- Refuses a statement that is not valid. -/
def validate (s : Statement) : Except Invalid Unit := do
  requireNonBlank "statement_id" s.statementId
  requireNonBlank "society_a" s.societyA
  requireNonBlank "society_b" s.societyB
  if s.societyA = s.societyB then throw (.sameSociety s.societyA)
  match s.transferIds.findIdx? Text.isBlankText with
  | some position => throw (.blankTransfer position)
  | none => return ()

/-- A statement without balances and transfers, not yet validated. -/
def blank (statementId societyA societyB : String) : Statement :=
  { statementId, societyA, societyB, balanceA := .zero, balanceB := .zero, netPosition := .zero
    transfersReconciled := 0, transferIds := [] }

/-- A new statement between two societies. -/
def between (suffix societyA societyB : String) : Except Invalid Statement := do
  let s := blank (idFor suffix) societyA societyB
  s.validate
  return s

/-- Sets the transfers that a statement covers, and their number. -/
def withTransfers (s : Statement) (ids : List String) : Statement :=
  { s with transferIds := ids, transfersReconciled := UInt32.ofNat ids.length }

end Statement

end WitnessLedger
