import SeriesStorage.Number.Binary64

/-!
# Reading numbers

* `Binary64.ofDecimal negative digits exponent`: the double nearest to `± digits * 10 ^ exponent`.
* `Binary64.parse`: reads a sign, digits with an optional point and exponent, or one of `inf`,
  `infinity`, `nan` in any case.  What is refused is either empty or malformed.
* `natural?`, `integer?`: whole numbers in a base, with a sign but no blanks or separators.
-/

namespace SeriesStorage

/-! ## Whole numbers -/

/-- The value of a character as a digit below `base`. -/
def digitValue? (base : Nat) (c : Char) : Option Nat :=
  let value :=
    if '0' ≤ c ∧ c ≤ '9' then some (c.toNat - '0'.toNat)
    else if 'a' ≤ c ∧ c ≤ 'z' then some (c.toNat - 'a'.toNat + 10)
    else if 'A' ≤ c ∧ c ≤ 'Z' then some (c.toNat - 'A'.toNat + 10)
    else none
  value.filter (· < base)

/-- Reads a non-empty row of digits in a base. -/
def digits? (base : Nat) : List Char → Option Nat
  | [] => none
  | cs => cs.foldl (fun n c => do return (← n) * base + (← digitValue? base c)) (some 0)

/-- Reads a whole number of at most `limit`; a plus sign may stand in front. -/
def natural? (base limit : Nat) (cs : List Char) : Option Nat :=
  (match cs with
    | '+' :: rest => digits? base rest
    | _ => digits? base cs).filter (· ≤ limit)

/-- Reads a whole number from `-limit - 1` to `limit`; a sign may stand in front. -/
def integer? (base limit : Nat) (cs : List Char) : Option Int :=
  match cs with
  | '-' :: rest => ((digits? base rest).filter (· ≤ limit + 1)).map (fun n => -(n : Int))
  | _ => (natural? base limit cs).map (fun n => (n : Int))

/-- The largest value of a signed word. -/
def maxInt64 : Nat := 0x7fffffffffffffff

/-- The largest value of an unsigned word. -/
def maxUInt64 : Nat := 0xffffffffffffffff

/-- Reads an unsigned word in decimal. -/
def word? (text : String) : Option UInt64 := (natural? 10 maxUInt64 text.toList).map UInt64.ofNat

/-! ## Decimal fractions -/

namespace Binary64

/-- The number nearest to `± digits * 10 ^ exponent`.  Beyond the exponents ±400 the answer is
infinity or zero without any arithmetic. -/
def ofDecimal (negative : Bool) (digits : Nat) (exponent : Int) : Binary64 :=
  if digits = 0 then ofCode negative 0
  else if 400 < exponent then ofCode negative infinityCode
  else if exponent + (Nat.toDigits 10 digits).length < -400 then ofCode negative 0
  else if 0 ≤ exponent then ofUnits negative (digits * Nat.pow 10 exponent.toNat * unitsPerOne) 1
  else ofUnits negative (digits * unitsPerOne) (Nat.pow 10 (-exponent).toNat)

/-- Why a text is not a number. -/
inductive ReadingDefect
  | empty
  | malformed
deriving DecidableEq, Repr

/-- The wording of a defect. -/
def ReadingDefect.message : ReadingDefect → String
  | .empty => "cannot parse float from empty string"
  | .malformed => "invalid float literal"

/-- Reads the digits of an exponent, up to the end of the text. -/
def exponent? : List Char → Option Int
  | '-' :: rest => (digits? 10 rest).map (fun n => -(n : Int))
  | '+' :: rest => (digits? 10 rest).map (fun n => (n : Int))
  | cs => (digits? 10 cs).map (fun n => (n : Int))

/-- Reads digits with an optional point and exponent: the digits without the point, and the power of
ten that they count. -/
def decimal? (cs : List Char) : Option (Nat × Int) :=
  let whole := cs.takeWhile Char.isDigit
  let rest := cs.dropWhile Char.isDigit
  let (fraction, rest) :=
    match rest with
    | '.' :: more => (more.takeWhile Char.isDigit, more.dropWhile Char.isDigit)
    | _ => ([], rest)
  if whole.isEmpty && fraction.isEmpty then none
  else
    let digits := Nat.ofDigitChars 10 (whole ++ fraction) 0
    match rest with
    | [] => some (digits, -(fraction.length : Int))
    | mark :: more =>
      if mark = 'e' ∨ mark = 'E' then
        (exponent? more).map (fun exponent => (digits, exponent - fraction.length))
      else none

/-- Reads a number without its sign. -/
def unsigned? (negative : Bool) (cs : List Char) : Option Binary64 :=
  match decimal? cs with
  | some (digits, exponent) => some (ofDecimal negative digits exponent)
  | none =>
    let word := cs.map Char.toLower
    if word = ['i', 'n', 'f'] ∨ word = ['i', 'n', 'f', 'i', 'n', 'i', 't', 'y'] then
      some (ofCode negative infinityCode)
    else if word = ['n', 'a', 'n'] then some (if negative then neg nan else nan)
    else none

/-- Reads a number from the whole of a text. -/
def parse (cs : List Char) : Except ReadingDefect Binary64 :=
  let number? :=
    match cs with
    | '-' :: rest => unsigned? true rest
    | '+' :: rest => unsigned? false rest
    | _ => unsigned? false cs
  match number? with
  | some x => .ok x
  | none => .error (if cs.isEmpty then .empty else .malformed)

end Binary64

end SeriesStorage
