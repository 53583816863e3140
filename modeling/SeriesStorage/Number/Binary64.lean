import SeriesStorage.Number.Rounding

/-!
# Double precision numbers, exactly

A number is its 64 bits.  Below the sign bit stands its *code*; codes order the non-negative numbers
as their values do.  Every finite number is a whole multiple of the smallest positive one, 2⁻¹⁰⁷⁴,
so values are whole numbers of such *units* (`unitsOfCode`, `units`) and all arithmetic is exact
until one rounding at the end (`nearestCode`).

* `nearestCode num den`: the code nearest to `num / den` units, ties to even, too large is infinite.
* `totalRank`: the place of a number in the total order, in which −0 stands below 0 and a positive
  NaN above infinity.
* `toUInt64`: truncation towards zero, with NaN and negative numbers going to 0 and large numbers to
  the largest word.
-/

namespace SeriesStorage

/-- A double precision number, given by its 64 bits. -/
structure Binary64 where
  bits : UInt64
deriving DecidableEq, Repr, Inhabited

namespace Binary64

/-! ## Codes and classes -/

/-- The code of infinity; the codes of NaNs lie above it, those of finite numbers below. -/
def infinityCode : Nat := 0x7ff0000000000000

/-- The bits below the sign bit, as a number. -/
def code (x : Binary64) : Nat := x.bits.toNat % 0x8000000000000000

/-- The sign bit. -/
def negative (x : Binary64) : Bool := 0x8000000000000000 ≤ x.bits.toNat

/-- The number of a sign and a code. -/
def ofCode (negative : Bool) (code : Nat) : Binary64 :=
  ⟨UInt64.ofNat (if negative then 0x8000000000000000 + code else code)⟩

def isNaN (x : Binary64) : Bool := infinityCode < x.code

def isInfinite (x : Binary64) : Bool := x.code == infinityCode

def isFinite (x : Binary64) : Bool := x.code < infinityCode

def zero : Binary64 := ⟨0⟩

def infinity : Binary64 := ofCode false infinityCode

/-- The quiet NaN without payload. -/
def nan : Binary64 := ⟨0x7ff8000000000000⟩

def neg (x : Binary64) : Binary64 := ofCode (!x.negative) x.code

/-! ## Values -/

/-- How many codes lie between a power of two and the next, 2⁵². -/
def binade : Nat := 0x10000000000000

/-- The value of a finite code in units of 2⁻¹⁰⁷⁴. -/
def unitsOfCode (code : Nat) : Nat :=
  if code < binade then code
  else (binade + code % binade) * Nat.pow 2 (code / binade - 1)

/-- The value of a finite number in units of 2⁻¹⁰⁷⁴. -/
def units (x : Binary64) : Int :=
  if x.negative then -(unitsOfCode x.code : Int) else unitsOfCode x.code

/-- How many units make 1. -/
def unitsPerOne : Nat := Nat.pow 2 1074

/-- The code nearest to `num / den` units; ties go to the even code, and what lies beyond the
largest finite number by half a step or more is infinite.  A significand `m` of at most 53 bits at
the exponent step `k` has the code `m + k * binade`, also where rounding carries `m` to 2⁵³. -/
def nearestCode (num den : Nat) : Nat :=
  let step := Nat.log2 (num / den) - 52
  min (roundHalfEven num (den * Nat.pow 2 step) + step * binade) infinityCode

/-- The number nearest to `num / den` units, with the given sign. -/
def ofUnits (negative : Bool) (num den : Nat) : Binary64 := ofCode negative (nearestCode num den)

/-- The number nearest to a natural number. -/
def ofNat (n : Nat) : Binary64 := ofUnits false (n * unitsPerOne) 1

/-! ## Arithmetic -/

/-- The sum, rounded once.  An exact zero is negative only if both summands are. -/
def add (x y : Binary64) : Binary64 :=
  if x.isNaN || y.isNaN then nan
  else if x.isInfinite then
    if y.isInfinite && x.negative != y.negative then nan else x
  else if y.isInfinite then y
  else
    let sum := x.units + y.units
    if sum = 0 then ofCode (x.negative && y.negative) 0
    else ofUnits (decide (sum < 0)) sum.natAbs 1

/-- The product of two finite numbers, rounded once. -/
def mulFinite (x y : Binary64) : Binary64 :=
  ofUnits (x.negative != y.negative) (x.units.natAbs * y.units.natAbs) unitsPerOne

/-- The quotient of a finite number by a finite number other than zero, rounded once. -/
def divFinite (x y : Binary64) : Binary64 :=
  ofUnits (x.negative != y.negative) (x.units.natAbs * unitsPerOne) y.units.natAbs

instance : Add Binary64 := ⟨add⟩

/-! ## Order -/

/-- The place in the total order: negative numbers from the largest code down, then the others. -/
def totalRank (x : Binary64) : Int := if x.negative then -(x.code : Int) - 1 else x.code

/-- Comparison in the total order. -/
def totalCompare (x y : Binary64) : Ordering := compare x.totalRank y.totalRank

/-- `x` stands at or below `y` in the total order. -/
def totalLe (x y : Binary64) : Bool := x.totalRank ≤ y.totalRank

/-- Equality of values: zeros of both signs are equal, a NaN equals nothing. -/
def valueEq (x y : Binary64) : Bool :=
  !x.isNaN && !y.isNaN && (x.bits == y.bits || (x.code == 0 && y.code == 0))

/-- `x < y` as values; false if one is a NaN. -/
def valueLt (x y : Binary64) : Bool :=
  !x.isNaN && !y.isNaN && !x.valueEq y && decide (x.totalRank < y.totalRank)

/-- The number with the next higher bits: for a non-negative finite number the next larger one. -/
def next (x : Binary64) : Binary64 := ⟨x.bits + 1⟩

/-! ## Whole numbers -/

/-- The whole part as a word: 0 for NaN and negative numbers, the largest word for larger ones. -/
def toUInt64 (x : Binary64) : UInt64 :=
  if x.isNaN || x.negative then 0
  else UInt64.ofNat (min (unitsOfCode x.code / unitsPerOne) 0xffffffffffffffff)

/-- The number nearest to a word. -/
def ofUInt64 (n : UInt64) : Binary64 := ofNat n.toNat

/-! ## Lemmas -/

theorem bits_toNat (x : Binary64) :
    x.bits.toNat = if x.negative then 0x8000000000000000 + x.code else x.code := by
  have := x.bits.toNat_lt
  simp only [negative, code, decide_eq_true_eq]
  split <;> omega

theorem ofCode_negative_code (x : Binary64) : ofCode x.negative x.code = x := by
  have h := x.bits_toNat
  cases x with
  | mk bits =>
    simp only [ofCode, mk.injEq]
    rw [← h, UInt64.ofNat_toNat]

theorem code_ofCode (sign : Bool) {c : Nat} (h : c < 0x8000000000000000) :
    (ofCode sign c).code = c := by
  cases sign <;> simp [ofCode, code] <;> omega

theorem negative_ofCode (sign : Bool) {c : Nat} (h : c < 0x8000000000000000) :
    (ofCode sign c).negative = sign := by
  cases sign <;> simp [ofCode, negative] <;> omega

theorem totalRank_injective {x y : Binary64} (h : x.totalRank = y.totalRank) : x = y := by
  rw [← ofCode_negative_code x, ← ofCode_negative_code y]
  unfold totalRank at h
  cases hx : x.negative <;> cases hy : y.negative <;> simp [hx, hy] at h
  · rw [show x.code = y.code by omega]
  · omega
  · omega
  · rw [show x.code = y.code by omega]

end Binary64

end SeriesStorage
