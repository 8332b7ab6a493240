import WitnessLedger.Content.Payload

/-! # Content of an entry

A payload with what the scoring of an entry needs besides: a subtype and an anomaly score
between zero and one. -/

namespace WitnessLedger

/-- What an entry holds. -/
structure Content where
  subtype : Option String
  anomalyScore : Option Double
  payload : Payload
  deriving DecidableEq

namespace Content

/-- Refuses a score outside the interval from zero to one. -/
def checkAnomalyScore (score : Double) : Except Invalid Unit :=
  if (Double.ratio 0 1).le score && score.le (Double.ratio 1 1) then .ok ()
  else .error (.anomalyOutOfRange score)

/-- Content without subtype and score. -/
def plain (payload : Payload) : Content := ⟨none, none, payload⟩

/-- Content without subtype and score, for a valid payload. -/
def ofPayload (payload : Payload) : Except Invalid Content := do
  payload.validate
  return plain payload

/-- Adds a valid anomaly score. -/
def withAnomalyScore (c : Content) (score : Double) : Except Invalid Content := do
  checkAnomalyScore score
  return { c with anomalyScore := some score }

/-- Refuses content with an invalid payload or score. -/
def validate (c : Content) : Except Invalid Unit := do
  c.payload.validate
  match c.anomalyScore with
  | some score => checkAnomalyScore score
  | none => return ()

/-- The kind that the payload belongs to. -/
def kind (c : Content) : EntryKind := c.payload.kind

/-- The societies and entities that the payload refers to. -/
def references (c : Content) : List String := c.payload.references

/-- The statement of a settlement. -/
def statement? (c : Content) : Option Statement :=
  match c.payload with
  | .bilateralSettlement s => some s
  | _ => none

end Content

end WitnessLedger
