import SeriesStorage.Number.Binary64

/-!
# Fixed-point text

`Binary64.toFixedChars places x` writes the exact value of `x` rounded to `places` decimals, a half
going to the even neighbour.
-/

namespace SeriesStorage

namespace Binary64

/-- The decimal digits of `n`, with zeros in front up to `width`. -/
def padded (width n : Nat) : List Char :=
  let text := Nat.toDigits 10 n
  List.replicate (width - text.length) '0' ++ text

/-- The value of a finite code in steps of `10 ^ -places`, rounded half to even. -/
def fixedSteps (places code : Nat) : Nat :=
  roundHalfEven (unitsOfCode code * Nat.pow 10 places) unitsPerOne

/-- The characters of a number with a fixed count of decimals. -/
def toFixedChars (places : Nat) (x : Binary64) : List Char :=
  if x.isNaN then ['N', 'a', 'N']
  else
    let magnitude :=
      if x.isInfinite then ['i', 'n', 'f']
      else
        let steps := fixedSteps places x.code
        let scale := Nat.pow 10 places
        Nat.toDigits 10 (steps / scale) ++ '.' :: padded places (steps % scale)
    if x.negative then '-' :: magnitude else magnitude

end Binary64

end SeriesStorage
