/-! # Versions -/

namespace WitnessLedger

/-- The version of the rules by which entries and blocks are made and hashed. -/
def protocolVersion : String := "1.0.0"

/-- The version of the program. -/
def programVersion : String := "0.1.0"

end WitnessLedger
