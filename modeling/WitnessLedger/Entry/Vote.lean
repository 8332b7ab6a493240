import WitnessLedger.Digest.Sha256
import WitnessLedger.Time.Instant

/-! # Votes

A witness accepts or rejects an entry.  The signature is the digest of a text that names the
witness, the entry, the decision and the moment, with colons between them. -/

namespace WitnessLedger

/-- A witness's decision on an entry. -/
structure Vote where
  witness : String
  entry : String
  accept : Bool
  signature : Digest
  reason : Option String
  timestamp : Instant
  deriving DecidableEq

namespace Vote

/-- The text that a witness signs. -/
def signedText (witness entry : String) (accept : Bool) (timestamp : Instant) : String :=
  witness ++ ":" ++ entry ++ ":" ++ (if accept then "true" else "false") ++ ":"
    ++ timestamp.signedText

/-- The signature of a decision. -/
def sign (witness entry : String) (accept : Bool) (timestamp : Instant) : Digest :=
  Digest.ofText (signedText witness entry accept timestamp)

/-- A signed decision. -/
def cast (witness entry : String) (accept : Bool) (reason : Option String) (now : Instant) : Vote :=
  { witness, entry, accept, signature := sign witness entry accept now, reason, timestamp := now }

end Vote

end WitnessLedger
