/-!
# The clock

An instant is a count of milliseconds since 1970, which may be negative.  Readings are words and
never below zero.
-/

namespace SeriesStorage

/-- An instant, in milliseconds since 1970. -/
structure Instant where
  ms : Int
deriving DecidableEq, Repr, Inhabited

namespace Instant

/-- Whole seconds since 1970; 0 for what lies before. -/
def seconds (t : Instant) : UInt64 := UInt64.ofNat (t.ms / 1000).toNat

/-- Milliseconds since 1970; 0 for what lies before. -/
def millis (t : Instant) : UInt64 := UInt64.ofNat t.ms.toNat

/-- The instant some milliseconds later, or earlier if they are negative. -/
def advance (t : Instant) (ms : Int) : Instant := ⟨t.ms + ms⟩

end Instant

end SeriesStorage
