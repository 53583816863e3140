import SeriesStorage.Json.Value
import SeriesStorage.Number.Literal
import SeriesStorage.Text.Octets

/-!
# Reading JSON text

`Json.parse` reads a whole text and leaves unreadable what denotes nothing; `Json.parseKept` fails
there, and where a value is nested too deeply.  A failure names its cause, the line, and the column
in octets; it lies behind the octet that gave it away, which may be inside a character.

Every reading step returns the characters that it leaves; the steps that call each other count down
a bound that starts at the length of the text, which no text reaches.

A decimal fraction becomes its first digits as a double (as many as fit a word), scaled once by a
power of ten.
-/

namespace SeriesStorage

namespace Json

/-! ## Failures -/

/-- Why a text is not JSON. -/
inductive Defect
  | endInList
  | endInObject
  | endInString
  | endInValue
  | expectedColon
  | expectedListEnd
  | expectedObjectEnd
  | expectedIdent
  | expectedValue
  | invalidEscape
  | invalidNumber
  | controlCharacter
  | keyNotString
  | trailingComma
  | trailingCharacters
  | numberOutOfRange
  | loneSurrogate
  | endOfPair
  | tooDeep
deriving DecidableEq, Repr

/-- The wording of a defect. -/
def Defect.message : Defect → String
  | .endInList => "EOF while parsing a list"
  | .endInObject => "EOF while parsing an object"
  | .endInString => "EOF while parsing a string"
  | .endInValue => "EOF while parsing a value"
  | .expectedColon => "expected `:`"
  | .expectedListEnd => "expected `,` or `]`"
  | .expectedObjectEnd => "expected `,` or `\x7d`"
  | .expectedIdent => "expected ident"
  | .expectedValue => "expected value"
  | .invalidEscape => "invalid escape"
  | .invalidNumber => "invalid number"
  | .controlCharacter => "control character (\\u0000-\\u001F) found while parsing a string"
  | .keyNotString => "key must be a string"
  | .trailingComma => "trailing comma"
  | .trailingCharacters => "trailing characters"
  | .numberOutOfRange => "number out of range"
  | .loneSurrogate => "lone leading surrogate in hex escape"
  | .endOfPair => "unexpected end of hex escape"
  | .tooDeep => "recursion limit exceeded"

namespace Reader

/-- A defect in the characters that are left at some place, and how many of their octets were read
until it showed. -/
structure Stop where
  defect : Defect
  rest : List Char
  octets : Nat

/-- What a reading step gives: a result and the characters left, or where it stopped. -/
abbrev Step (α : Type) := Except Stop (α × List Char)

/-- Stops at a place. -/
def stop {α : Type} (defect : Defect) (rest : List Char) : Step α := .error ⟨defect, rest, 0⟩

/-- Stops at the next octet. -/
def stopAt {α : Type} (defect : Defect) (rest : List Char) : Step α := .error ⟨defect, rest, 1⟩

/-- What a text is read for. -/
inductive Use
  /-- What denotes nothing is left unreadable. -/
  | skim
  /-- What denotes nothing is refused, and so are more than `depth` arrays and objects inside each
  other. -/
  | keep (depth : Nat)
deriving DecidableEq, Repr

/-- What the inside of an array or object is read for, unless it is too deep. -/
def Use.inside? : Use → Option Use
  | .skim => some .skim
  | .keep 0 => none
  | .keep (depth + 1) => some (.keep depth)

/-- What denotes nothing gives `nothing` and the characters `rest`, or stops if it would be kept. -/
def Use.refuse {α : Type} (use : Use) (why : Step α) (nothing : α) (rest : List Char) : Step α :=
  match use with
  | .skim => .ok (nothing, rest)
  | .keep _ => why

/-! ## Scalars -/

/-- Blanks between tokens. -/
def isBlank (c : Char) : Bool := c = ' ' || c = '\n' || c = '\t' || c = '\r'

def skipBlanks (cs : List Char) : List Char := cs.dropWhile isBlank

/-- Reads the rest of a word such as `true`. -/
def word (value : Json) : List Char → List Char → Step Json
  | [], rest => .ok (value, rest)
  | _ :: _, [] => stop .endInValue []
  | expected :: more, c :: rest =>
    if c = expected then word value more rest else stopAt .expectedIdent (c :: rest)

/-- Divides by `10 ^ n`, by 10³⁰⁸ at a time. -/
def scaleDown (x : Binary64) (n : Nat) : Binary64 :=
  if n ≤ 308 then x.divFinite (Binary64.ofNat (Nat.pow 10 n))
  else if x.code = 0 then x
  else scaleDown (x.divFinite (Binary64.ofNat (Nat.pow 10 308))) (n - 308)
termination_by n

/-- The number `± significand * 10 ^ exponent`, scaled in one rounding where the power of ten is a
double; none if it is too large. -/
def scaled? (negative : Bool) (significand : Nat) (exponent : Int) : Option Binary64 :=
  let start := Binary64.ofNat significand
  if 0 ≤ exponent then
    if 308 < exponent then
      if significand = 0 then some (Binary64.ofCode negative 0) else none
    else
      let x := start.mulFinite (Binary64.ofNat (Nat.pow 10 exponent.toNat))
      if x.isInfinite then none else some (Binary64.ofCode negative x.code)
  else some (Binary64.ofCode negative (scaleDown start (-exponent).toNat).code)

/-- The number `± significand * 10 ^ exponent` before the characters `rest`. -/
def scaledStep (use : Use) (negative : Bool) (significand : Nat) (exponent : Int)
    (rest : List Char) : Step Json :=
  match scaled? negative significand exponent with
  | some x => .ok (.float x, rest)
  | none => use.refuse (stop .numberOutOfRange rest) .unreadable rest

/-- Appends digits to a significand as long as it fits a word, and counts the digits left out. -/
def extend (significand : Nat) (digits : List Char) : Nat × Nat :=
  digits.foldl (fun (n, left) c =>
    let more := n * 10 + (c.toNat - '0'.toNat)
    if left = 0 ∧ more ≤ maxUInt64 then (more, 0) else (n, left + 1)) (significand, 0)

/-- The largest exponent that is read. -/
def maxExponent : Nat := 0x7fffffff

/-- The characters behind the first digit with which an exponent exceeds the largest one. -/
def behindExcess : Nat → List Char → List Char
  | _, [] => []
  | exponent, c :: rest =>
    let exponent := exponent * 10 + (c.toNat - '0'.toNat)
    if maxExponent < exponent then rest else behindExcess exponent rest

/-- Reads the digits of an exponent behind its mark and gives the number. -/
def exponentPart (use : Use) (negative : Bool) (significand : Nat) (exponent : Int)
    (cs : List Char) : Step Json :=
  let (down, cs) :=
    match cs with
    | '-' :: rest => (true, rest)
    | '+' :: rest => (false, rest)
    | _ => (false, cs)
  let digits := cs.takeWhile Char.isDigit
  let rest := cs.dropWhile Char.isDigit
  if digits.isEmpty then
    if cs.isEmpty then stop .endInValue [] else stopAt .invalidNumber cs
  else
    let shift := Nat.ofDigitChars 10 digits 0
    if maxExponent < shift then
      if significand ≠ 0 ∧ !down then
        use.refuse (stop .numberOutOfRange (behindExcess 0 cs)) .unreadable rest
      else .ok (.float (Binary64.ofCode negative 0), rest)
    else
      let shift := if down then exponent - shift else exponent + shift
      scaledStep use negative significand shift rest

/-- Reads what follows the whole digits of a number. -/
def numberTail (use : Use) (negative : Bool) (significand skipped : Nat) (cs : List Char) :
    Step Json :=
  match cs with
  | '.' :: more =>
    let digits := more.takeWhile Char.isDigit
    let rest := more.dropWhile Char.isDigit
    if digits.isEmpty then
      if rest.isEmpty then stop .endInValue [] else stopAt .invalidNumber rest
    else
      let (longer, left) := extend significand digits
      let exponent := (skipped : Int) - (digits.length - left : Nat)
      match rest with
      | 'e' :: more => exponentPart use negative longer exponent more
      | 'E' :: more => exponentPart use negative longer exponent more
      | _ => scaledStep use negative longer exponent rest
  | 'e' :: more => exponentPart use negative significand skipped more
  | 'E' :: more => exponentPart use negative significand skipped more
  | _ =>
    if skipped ≠ 0 then scaledStep use negative significand skipped cs
    else if negative then
      if significand = 0 ∨ 0x8000000000000000 < significand then
        .ok (.float (Binary64.ofNat significand).neg, cs)
      else .ok (.integer (-(significand : Int)), cs)
    else .ok (.integer significand, cs)

/-- Reads a number without its sign. -/
def number (use : Use) (negative : Bool) (cs : List Char) : Step Json :=
  let digits := cs.takeWhile Char.isDigit
  let rest := cs.dropWhile Char.isDigit
  match digits with
  | [] => if cs.isEmpty then stop .endInValue [] else stopAt .invalidNumber cs
  | '0' :: _ :: _ => stopAt .invalidNumber (cs.drop 1)
  | _ =>
    let (significand, skipped) := extend 0 digits
    numberTail use negative significand skipped rest

/-- Reads four hexadecimal digits, of which nothing is looked at before there are four octets. -/
def hexUnit (cs : List Char) : Step Nat :=
  if octetCount (cs.take 4) < 4 then stop .endInString []
  else
    match digits? 16 (cs.take 4) with
    | some n => .ok (n, cs.drop 4)
    | none => .error ⟨.invalidEscape, cs, 4⟩

def isHighSurrogate (n : Nat) : Bool := 0xD800 ≤ n && n < 0xDC00

def isLowSurrogate (n : Nat) : Bool := 0xDC00 ≤ n && n < 0xE000

/-- Reads what has to follow the first half of a surrogate pair. -/
def secondHalf (use : Use) (first : Nat) (rest : List Char) : Step (Option Char) :=
  match rest with
  | [] => stop .endInString []
  | '\\' :: [] => stop .endInString []
  | '\\' :: 'u' :: more =>
    match hexUnit more with
    | .error e => .error e
    | .ok (second, after) =>
      if isLowSurrogate second then
        .ok (some (Char.ofNat (0x10000 + (first - 0xD800) * 0x400 + (second - 0xDC00))), after)
      else use.refuse (stop .loneSurrogate after) none rest
  | '\\' :: more => use.refuse (stopAt .endOfPair more) none rest
  | _ => use.refuse (stopAt .endOfPair rest) none rest

/-- Reads the rest of an escape behind `\u`: a character, or nothing for half a pair. -/
def unicodeEscape (use : Use) (cs : List Char) : Step (Option Char) :=
  match hexUnit cs with
  | .error e => .error e
  | .ok (n, rest) =>
    if isLowSurrogate n then use.refuse (stop .loneSurrogate rest) none rest
    else if isHighSurrogate n then secondHalf use n rest
    else .ok (some (Char.ofNat n), rest)

/-- Reads the rest of an escape behind its backslash. -/
def escape (use : Use) : List Char → Step (Option Char)
  | [] => stop .endInString []
  | c :: rest =>
    match c with
    | '"' => .ok (some '"', rest)
    | '\\' => .ok (some '\\', rest)
    | '/' => .ok (some '/', rest)
    | 'b' => .ok (some '\x08', rest)
    | 'f' => .ok (some '\x0c', rest)
    | 'n' => .ok (some '\n', rest)
    | 'r' => .ok (some '\r', rest)
    | 't' => .ok (some '\t', rest)
    | 'u' => unicodeEscape use rest
    | _ => stopAt .invalidEscape (c :: rest)

/-- Reads a string behind its opening quote; `some` characters, or `none` if it holds half a
surrogate pair.  The bound counts characters. -/
def stringTail (use : Use) :
    Nat → Option (List Char) → List Char → Step (Option (List Char))
  | 0, _, _ => stop .endInString []
  | _ + 1, _, [] => stop .endInString []
  | bound + 1, read, c :: rest =>
    if c = '"' then .ok (read.map List.reverse, rest)
    else if c = '\\' then
      match escape use rest with
      | .error e => .error e
      | .ok (decoded, rest) => stringTail use bound (do return (← decoded) :: (← read)) rest
    else if c.toNat < 32 then stopAt .controlCharacter (c :: rest)
    else stringTail use bound (read.map (c :: ·)) rest

/-- Reads a string behind its opening quote. -/
def string (use : Use) (cs : List Char) : Step (Option String) :=
  (stringTail use (cs.length + 1) (some []) cs).map fun (read, rest) =>
    (read.map String.ofList, rest)

/-! ## Values -/

mutual

/-- Reads a value. -/
def value (use : Use) (bound : Nat) (cs : List Char) : Step Json :=
  match bound with
  | 0 => stop .tooDeep []
  | bound + 1 =>
    match skipBlanks cs with
    | [] => stop .endInValue []
    | c :: rest =>
      match c with
      | 'n' => word .null ['u', 'l', 'l'] rest
      | 't' => word (.bool true) ['r', 'u', 'e'] rest
      | 'f' => word (.bool false) ['a', 'l', 's', 'e'] rest
      | '-' => number use true rest
      | '"' =>
        (string use rest).map fun (read, rest) => ((read.map Json.string).getD .unreadable, rest)
      | '[' =>
        match use.inside? with
        | none => stopAt .tooDeep (c :: rest)
        | some inside =>
          match skipBlanks rest with
          | [] => stop .endInList []
          | ']' :: rest => .ok (.array [], rest)
          | _ => items inside bound [] rest
      | '{' =>
        match use.inside? with
        | none => stopAt .tooDeep (c :: rest)
        | some inside =>
          match skipBlanks rest with
          | [] => stop .endInObject []
          | '}' :: rest => .ok (.object [], rest)
          | _ => members inside bound (some []) rest
      | c =>
        if c.isDigit then number use false (c :: rest) else stopAt .expectedValue (c :: rest)

/-- Reads the items of an array from the next one on, behind those read so far. -/
def items (use : Use) (bound : Nat) (read : List Json) (cs : List Char) : Step Json :=
  match bound with
  | 0 => stop .tooDeep []
  | bound + 1 =>
    match value use bound cs with
    | .error e => .error e
    | .ok (item, rest) =>
      match skipBlanks rest with
      | [] => stop .endInList []
      | ']' :: rest => .ok (.array (item :: read).reverse, rest)
      | ',' :: rest =>
        match skipBlanks rest with
        | [] => stop .endInValue []
        | ']' :: rest => stopAt .trailingComma (']' :: rest)
        | _ => items use bound (item :: read) rest
      | rest => stopAt .expectedListEnd rest

/-- Reads the members of an object from the next one on, behind those read so far; `none` stands for
an object with an unreadable key. -/
def members (use : Use) (bound : Nat) (read : Option (List (String × Json))) (cs : List Char) :
    Step Json :=
  match bound with
  | 0 => stop .tooDeep []
  | bound + 1 =>
    match skipBlanks cs with
    | [] => stop .endInValue []
    | '"' :: rest =>
      match string use rest with
      | .error e => .error e
      | .ok (key, rest) =>
        match skipBlanks rest with
        | [] => stop .endInObject []
        | ':' :: rest =>
          match value use bound rest with
          | .error e => .error e
          | .ok (item, rest) =>
            let read := do return ((← key), item) :: (← read)
            match skipBlanks rest with
            | [] => stop .endInObject []
            | '}' :: rest =>
              .ok ((read.map fun read => Json.object read.reverse).getD .unreadable, rest)
            | ',' :: rest =>
              match skipBlanks rest with
              | [] => stop .endInValue []
              | '}' :: rest => stopAt .trailingComma ('}' :: rest)
              | _ => members use bound read rest
            | rest => stopAt .expectedObjectEnd rest
        | rest => stopAt .expectedColon rest
    | rest => stopAt .keyNotString rest

end

end Reader

/-! ## Whole texts -/

/-- A defect with its line and its column in octets. -/
structure Failure where
  defect : Defect
  line : Nat
  column : Nat
deriving DecidableEq, Repr

/-- The wording of a failure. -/
def Failure.message (failure : Failure) : String :=
  s!"{failure.defect.message} at line {failure.line} column {failure.column}"

/-- The failure behind these octets. -/
def Failure.behind (defect : Defect) (read : List UInt8) : Failure :=
  { defect
    line := 1 + read.count 10
    column := (read.reverse.takeWhile (· ≠ 10)).length }

/-- The failure of a reading of `text` that stopped. -/
def Failure.ofStop (text : List Char) (stop : Reader.Stop) : Failure :=
  let before := octetCount text - octetCount stop.rest
  .behind stop.defect ((octets text).take (before + stop.octets))

/-- Reads the whole of a text. -/
def parseFor (use : Reader.Use) (text : List Char) : Except Failure Json :=
  match Reader.value use (2 * text.length + 2) text with
  | .error stop => .error (.ofStop text stop)
  | .ok (json, rest) =>
    match Reader.skipBlanks rest with
    | [] => .ok json
    | rest => .error (.ofStop text ⟨.trailingCharacters, rest, 1⟩)

/-- Reads the whole of a text, unreadable scalars included. -/
def parse (text : String) : Except Failure Json := parseFor .skim text.toList

/-- How many arrays and objects may lie inside each other in a value that is kept. -/
def depthLimit : Nat := 127

/-- Reads the whole of a text and refuses what is unreadable or nested too deeply. -/
def parseKept (text : String) : Except Failure Json := parseFor (.keep depthLimit) text.toList

end Json

end SeriesStorage
