import SeriesStorage.Number.Binary64

/-!
# The shortest decimal text of a number

The text is positional, never with an exponent, and has the fewest significant digits that read back
as the number.  Decimal numbers are counted in steps of 10⁻³²⁴, the coarsest power of ten that lies
below the smallest distance between two doubles, so all decimals in question are `d * 10 ^ place`
steps.

* `roundsTo code x`: does the real number `x` round to the code?  The real numbers that do form an
  interval that reaches halfway to both neighbours, its ends included for even codes.
* `shortest code`: the coarsest decimal grid with a point in that interval and the point on it that
  is nearest to the number; of two equally near points the upper one.
* `toText`: the text.
-/

namespace SeriesStorage

namespace Binary64

/-! ## Algorithm -/

/-- The exponent of the finest decimal grid, as a positive number. -/
def finestPlace : Nat := 324

/-- How many steps of 10⁻³²⁴ make a unit of 2⁻¹⁰⁷⁴ doubled, times `decimalScale`. -/
def binaryScale : Nat := Nat.pow 10 finestPlace

/-- The common scale on which both steps and doubled units are whole. -/
def decimalScale : Nat := Nat.pow 2 1075

/-- Whether `x / (binaryScale * decimalScale)`, a real number given on the common scale, rounds to
`code`: it lies between the midpoints to the neighbours, ends included for an even code. -/
def roundsTo (code x : Nat) : Bool :=
  let low := (unitsOfCode (code - 1) + unitsOfCode code) * binaryScale
  let high := (unitsOfCode code + unitsOfCode (code + 1)) * binaryScale
  if code % 2 = 0 then low ≤ x && x ≤ high else low < x && x < high

/-- The point of the grid `10 ^ place` that rounds to `code`, if there is one: the nearer of the two
neighbours of the value, the upper one if they are equally near. -/
def gridPoint? (code place : Nat) : Option Nat :=
  let value := 2 * unitsOfCode code * binaryScale
  let step := decimalScale * Nat.pow 10 place
  let below := value / step
  let lower := below * step
  let upper := lower + step
  if roundsTo code lower && (!roundsTo code upper || value - lower < upper - value) then some below
  else if roundsTo code upper then some (below + 1)
  else none

/-- The coarsest grid from `10 ^ place` down with a point that rounds to `code`, and the point. -/
def coarsest (code : Nat) : Nat → Nat × Nat
  | 0 => ((gridPoint? code 0).getD 0, 0)
  | place + 1 =>
    match gridPoint? code (place + 1) with
    | some digits => (digits, place + 1)
    | none => coarsest code place

/-- A grid so coarse that every number rounding to `code` lies below its first point. -/
def startPlace (code : Nat) : Nat :=
  (Nat.toDigits 10
    ((unitsOfCode code + unitsOfCode (code + 1)) * binaryScale / decimalScale)).length

/-- Digits and place of the shortest decimal that rounds to a finite code other than 0: the decimal
is `digits * 10 ^ place` steps of 10⁻³²⁴. -/
def shortest (code : Nat) : Nat × Nat := coarsest code (startPlace code)

/-- The positional text of `digits * 10 ^ place` steps of 10⁻³²⁴. -/
def positional (digits place : Nat) : List Char :=
  let text := Nat.toDigits 10 digits
  if finestPlace ≤ place then text ++ List.replicate (place - finestPlace) '0'
  else
    let fraction := finestPlace - place
    if fraction < text.length then
      text.take (text.length - fraction) ++ '.' :: text.drop (text.length - fraction)
    else '0' :: '.' :: (List.replicate (fraction - text.length) '0' ++ text)

/-- The characters of the shortest text of a number. -/
def toChars (x : Binary64) : List Char :=
  if x.isNaN then ['N', 'a', 'N']
  else
    let magnitude :=
      if x.isInfinite then ['i', 'n', 'f']
      else if x.code = 0 then ['0']
      else positional (shortest x.code).1 (shortest x.code).2
    if x.negative then '-' :: magnitude else magnitude

/-- The shortest text of a number. -/
def toText (x : Binary64) : String := String.ofList x.toChars

end Binary64

end SeriesStorage
