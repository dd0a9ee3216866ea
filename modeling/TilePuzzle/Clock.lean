/-!
# Clocks

A clock shows the time since it was started, in nanoseconds. It can be set and moved forward by hand; it
stops at the longest time that 64 bits of seconds and a fraction can show.
-/

namespace TilePuzzle

/-- The time since a start, in nanoseconds. -/
structure Clock where
  nanoseconds : Nat := 0
deriving DecidableEq, Repr

namespace Clock

/-- Nanoseconds in a second. -/
def perSecond : Nat := 1000000000

/-- More seconds than a clock shows: the first number of seconds that 64 bits do not hold. -/
def secondsLimit : Nat := 18446744073709551616

/-- The longest time that a clock shows. -/
def greatest : Nat := secondsLimit * perSecond - 1

/-- The clock that shows this time. -/
def ofTime (seconds nanoseconds : Nat) : Clock := ⟨seconds * perSecond + nanoseconds⟩

/-- The clock after this time more. -/
def advance (c : Clock) (seconds nanoseconds : Nat) : Clock :=
  ⟨min (c.nanoseconds + (seconds * perSecond + nanoseconds)) greatest⟩

/-- The whole seconds shown. -/
def seconds (c : Clock) : Nat := c.nanoseconds / perSecond

/-- The nanoseconds shown beyond the whole seconds. -/
def fraction (c : Clock) : Nat := c.nanoseconds % perSecond

end Clock

end TilePuzzle
