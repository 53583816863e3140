import SeriesStorage.Number.Shortest

/-!
# JSON values and their compact text

`Json` is what a JSON text says.  Object members keep their order and repetitions, so that a reader
of records can refuse a repeated field.  A scalar that is well-formed but denotes nothing, such as
half a surrogate pair or a number beyond the range of doubles, is `unreadable`: it may be skipped,
but not read.

`Json.render` is the compact text: no blanks, and in strings only what must be escaped.
-/

namespace SeriesStorage

/-- What a JSON text says. -/
inductive Json where
  | null
  | bool (value : Bool)
  /-- A whole number between −2⁶³ and 2⁶⁴ − 1. -/
  | integer (value : Int)
  | float (value : Binary64)
  | string (value : String)
  | array (items : List Json)
  | object (members : List (String × Json))
  | unreadable
deriving Repr, Inhabited

namespace Json

/-! ## Text -/

/-- One of sixteen digits, in lower case. -/
def hexDigit (n : Nat) : Char := Nat.digitChar (n % 16)

/-- How a character is written in quotes: quote, backslash and control characters are escaped. -/
def escapeChar (c : Char) : List Char :=
  if c = '"' then ['\\', '"']
  else if c = '\\' then ['\\', '\\']
  else if c.toNat = 8 then ['\\', 'b']
  else if c.toNat = 9 then ['\\', 't']
  else if c.toNat = 10 then ['\\', 'n']
  else if c.toNat = 12 then ['\\', 'f']
  else if c.toNat = 13 then ['\\', 'r']
  else if c.toNat < 32 then ['\\', 'u', '0', '0', hexDigit (c.toNat / 16), hexDigit c.toNat]
  else [c]

/-- A string in quotes. -/
def quote (s : List Char) : List Char := '"' :: (s.flatMap escapeChar ++ ['"'])

/-- A finite number with a point, so that it is not taken for a whole number; other numbers have no
JSON text and are written as null. -/
def floatText (x : Binary64) : List Char :=
  if x.isFinite then
    let text := x.toChars
    if text.contains '.' then text else text ++ ['.', '0']
  else ['n', 'u', 'l', 'l']

mutual

/-- The compact text of a value. -/
def render : Json → List Char
  | .null => ['n', 'u', 'l', 'l']
  | .bool true => ['t', 'r', 'u', 'e']
  | .bool false => ['f', 'a', 'l', 's', 'e']
  | .integer n => (toString n).toList
  | .float x => floatText x
  | .string s => quote s.toList
  | .array items => '[' :: (renderItems items ++ [']'])
  | .object members => '{' :: (renderMembers members ++ ['}'])
  | .unreadable => ['n', 'u', 'l', 'l']

/-- Values separated by commas. -/
def renderItems : List Json → List Char
  | [] => []
  | [item] => render item
  | item :: rest => render item ++ ',' :: renderItems rest

/-- Members separated by commas. -/
def renderMembers : List (String × Json) → List Char
  | [] => []
  | [(key, value)] => quote key.toList ++ ':' :: render value
  | (key, value) :: rest =>
    quote key.toList ++ ':' :: (render value ++ ',' :: renderMembers rest)

end

/-- The compact text of a value. -/
def toText (value : Json) : String := String.ofList value.render

/-! ## Access -/

/-- The last member of a name, if the value is an object that has one. -/
def get? (value : Json) (name : String) : Option Json :=
  match value with
  | .object members => (members.reverse.find? (fun member => member.1 == name)).map (·.2)
  | _ => none

end Json

end SeriesStorage
