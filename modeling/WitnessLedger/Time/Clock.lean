import WitnessLedger.Time.Instant
import WitnessLedger.Supply

/-! # The clock

A clock gives one moment for each time that it is read, and nothing is assumed of how they follow
each other: it may stand still, jump or go back. -/

namespace WitnessLedger

/-- The two readings of an operation that writes an entry and then keeps a record of it. -/
structure Readings where
  entry : Instant
  record : Instant

/-- Both readings on the first of January 1970. -/
def Readings.epoch : Readings := ⟨.epoch, .epoch⟩

/-- The moments that a clock shows, one for each time that it is read. -/
abbrev Clock := Supply Instant

namespace Clock

/-- A clock that stands still. -/
def still (t : Instant) : Clock := ⟨fun _ => t, 0⟩

instance : Coe Instant Clock := ⟨still⟩

/-- The next two readings. -/
def readings (c : Clock) : Readings := ⟨c.peek 0, c.peek 1⟩

/-- The next reading moved by milliseconds. -/
def advance? (c : Clock) (milliseconds : Int) : Option Instant :=
  (c.peek 0).advance? milliseconds

end Clock

end WitnessLedger
