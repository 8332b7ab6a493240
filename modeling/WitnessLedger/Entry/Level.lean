/-! # Levels of the chain

Entries live on one of four levels, from the one that forgets to the one that is anchored by
consensus.  A higher level costs more. -/

namespace WitnessLedger

/-- Where an entry lives. -/
inductive Level where
  /-- A bounded buffer that forgets its oldest entries. -/
  | compost
  /-- A list of entries that are worth keeping. -/
  | leaf
  /-- A list of entries that may be taken to the root. -/
  | stem
  /-- The chain that witnesses vote on. -/
  | root
  deriving DecidableEq, Inhabited

namespace Level

/-- All levels, the lowest first. -/
def all : List Level := [compost, leaf, stem, root]

/-- The name of a level. -/
def name : Level → String
  | compost => "compost"
  | leaf => "leaf"
  | stem => "stem"
  | root => "root"

/-- The level with a given name. -/
def ofName? (s : String) : Option Level := all.find? fun l => l.name == s

/-- The height of a level above the lowest. -/
def rank : Level → Nat
  | compost => 0
  | leaf => 1
  | stem => 2
  | root => 3

/-- What an entry costs on a level. -/
def cost : Level → Nat
  | compost => 0
  | leaf => 5
  | stem => 50
  | root => 200

/-- How two levels compare. -/
def order (a b : Level) : Ordering := compare a.rank b.rank

theorem ofName?_name (l : Level) : ofName? l.name = some l := by cases l <;> rfl

end Level

end WitnessLedger
