import SeriesStorage.Json.Value
import SeriesStorage.Number.Literal
import SeriesStorage.Yaml.Tag

/-!
# What plain scalars mean

A plain scalar is null, a truth value, a whole number, a number or, if it is none of these, its own
text.  Digits behind a leading zero are no number.  Whole numbers beyond the range of JSON's but
within 128 bits mean nothing at all (`Plain.value?`); beyond these they are taken for numbers that
need not be whole.
-/

namespace SeriesStorage

namespace Yaml

namespace Plain

def isNull (text : String) : Bool := ["null", "Null", "NULL", "~"].contains text

def truth? (text : String) : Option Bool :=
  if ["true", "True", "TRUE"].contains text then some true
  else if ["false", "False", "FALSE"].contains text then some false
  else none

/-- Takes a sign away; answers whether it was a minus. -/
def takeSign : List Char → Bool × List Char
  | '-' :: rest => (true, rest)
  | '+' :: rest => (false, rest)
  | cs => (false, cs)

/-- Several digits of which the first is a zero. -/
def isZeroLed (cs : List Char) : Bool :=
  match (takeSign cs).2 with
  | '0' :: c :: rest => (c :: rest).all Char.isDigit
  | _ => false

/-- Reads digits in the base that stands before them. -/
def magnitude? : List Char → Option Nat
  | '0' :: 'x' :: digits => digits? 16 digits
  | '0' :: 'o' :: digits => digits? 8 digits
  | '0' :: 'b' :: digits => digits? 2 digits
  | cs => digits? 10 cs

/-- Reads a whole number of at most 128 bits. -/
def whole? (cs : List Char) : Option Int :=
  let (negative, digits) := takeSign cs
  if isZeroLed cs then none
  else do
    let n ← magnitude? digits
    if negative then if n ≤ Nat.pow 2 127 then some (-(n : Int)) else none
    else if n < Nat.pow 2 128 then some n else none

/-- A whole number that JSON can hold. -/
def inRange (n : Int) : Bool := -0x8000000000000000 ≤ n && n ≤ 0xffffffffffffffff

/-- Reads a number that need not be whole; only a named one may be infinite or none at all. -/
def number? (cs : List Char) : Option Binary64 :=
  let unsigned :=
    match cs with
    | '+' :: rest => rest
    | _ => cs
  if cs.head? = some '+' && (unsigned.head? = some '+' || unsigned.head? = some '-') then none
  else if [".inf", ".Inf", ".INF"].contains (String.ofList unsigned) then
    some (.ofCode false Binary64.infinityCode)
  else if ["-.inf", "-.Inf", "-.INF"].contains (String.ofList cs) then
    some (.ofCode true Binary64.infinityCode)
  else if [".nan", ".NaN", ".NAN"].contains (String.ofList cs) then some .nan
  else (Binary64.parse unsigned).toOption.filter (·.isFinite)

/-- A number as JSON, which has no infinite ones. -/
def numberJson (x : Binary64) : Json := if x.isFinite then .float x else .null

/-- What a plain scalar means. -/
def value? (text : String) : Option Json :=
  let cs := text.toList
  if text.isEmpty || isNull text then some .null
  else
    match truth? text with
    | some b => some (.bool b)
    | none =>
      match whole? cs with
      | some n => if inRange n then some (.integer n) else none
      | none =>
        match if isZeroLed cs then none else number? cs with
        | some x => some (numberJson x)
        | none => some (.string text)

/-- What a scalar with one of the known tags means; the text has to fit the tag. -/
def taggedValue? (tag : Tag) (text : String) : Option (Option Json) :=
  if tag = .shared "bool" then some ((truth? text).map .bool)
  else if tag = .shared "int" then
    some ((whole? text.toList).bind fun n => if inRange n then some (.integer n) else none)
  else if tag = .shared "float" then some ((number? text.toList).map numberJson)
  else if tag = .shared "null" then
    some (if isNull text then some .null else none)
  else none

end Plain

end Yaml

end SeriesStorage
