import SeriesStorage.Number.Binary64

/-!
# What chance decides

Random choices are handed to the calls that need them.

* `Padding`: what is added to a timestamp, from 0 up to but not including 0.1; `Draws` holds those
  of a batch of points, by the position of the point and the attempt.
* `LockChance`: the token of a creation lock, and how often it can be tried.
-/

namespace SeriesStorage

/-- The bound of paddings, 0.1. -/
def maxPadding : Binary64 := ⟨0x3fb999999999999a⟩

/-- A padding: a number from 0 up to but not including 0.1. -/
structure Padding where
  value : Binary64
  notNegative : value.negative = false := by decide
  belowMax : value.code < maxPadding.code := by decide
deriving DecidableEq, Repr

namespace Padding

def zero : Padding where
  value := Binary64.zero

instance : Inhabited Padding := ⟨zero⟩

/-- The padding of these bits, if they are one. -/
def ofBits? (bits : UInt64) : Option Padding :=
  if h : (⟨bits⟩ : Binary64).negative = false ∧ (⟨bits⟩ : Binary64).code < maxPadding.code then
    some ⟨⟨bits⟩, h.1, h.2⟩
  else none

end Padding

/-- The paddings drawn for a batch: `draws i k` is the draw of attempt `k` for the point at `i`. -/
abbrev Draws := Nat → Nat → Padding

/-- What chance decides about one creation: the token of its lock, and how often it can try to
obtain the lock after the first time before its waiting time is over. -/
structure LockChance where
  token : String
  retries : Nat
deriving DecidableEq, Repr, Inhabited

/-- The chances of a batch, by the position of the entry. -/
abbrev LockChances := Nat → LockChance

end SeriesStorage
