import WitnessLedger.Error

/-! # Errors of the command line

A command fails for a reason of the configuration, of its arguments or of the ledger, or
because what it found does not hold together.  Each has a text and an exit code. -/

namespace WitnessLedger

/-- What a command found not to hold together. -/
inductive Mismatch where
  | noQuorum (entry : String) (nodes : Nat)
  | nothingToSeal
  | settlementNotSealed
  | replayAnchored (entry : String)
  | promotionNotSealed
  | brokenChain
  | stated (text : String)
  deriving DecidableEq

/-- An argument that a command cannot work with. -/
inductive BadArgument where
  | blockSize
  | doubleSpendInterval
  | totalAtp
  | stated (text : String)
  deriving DecidableEq

/-- Why a command fails. -/
inductive CommandError where
  | configuration (error : ConfigError)
  | invalidArgument (argument : BadArgument)
  | ledger (error : LedgerError)
  | integrity (mismatch : Mismatch)
  deriving DecidableEq

/-- What a message says about a mismatch. -/
def Mismatch.message : Mismatch → String
  | noQuorum entry nodes =>
    "entry " ++ entry ++ " cannot reach consensus with " ++ Text.Numeral.text nodes ++ " nodes"
  | nothingToSeal => "no accepted entries to seal"
  | settlementNotSealed => "sealed settlement is not finalized"
  | replayAnchored entry => "replayed transfer was anchored as " ++ entry
  | promotionNotSealed => "promoted entry was not sealed"
  | brokenChain => "block hash chain is broken"
  | stated text => text

/-- What a message says about an argument. -/
def BadArgument.message : BadArgument → String
  | blockSize => "block size must be positive"
  | doubleSpendInterval => "double-spend interval must be positive"
  | totalAtp => "total ATP must not be negative"
  | stated text => text

namespace CommandError

/-- The text of an error. -/
def message : CommandError → String
  | configuration error => "Configuration error: " ++ error.message
  | invalidArgument argument => "Invalid argument: " ++ argument.message
  | ledger error => "Ledger error: " ++ error.message
  | integrity mismatch => "Integrity check failed: " ++ mismatch.message

/-- The exit code of an error. -/
def exitCode : CommandError → Nat
  | configuration _ => 1
  | invalidArgument _ => 2
  | ledger error =>
    if error.isNotFound then 21 else if error.isConflict then 22
    else if error.isIntegrity then 11 else 10
  | integrity _ => 11

end CommandError

end WitnessLedger
