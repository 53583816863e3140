import SeriesStorage.Yaml.Cursor
import SeriesStorage.Number.Literal

/-!
# Tags in YAML

A tag is written verbatim (`!<name>`), or as a handle and a suffix, where the handle stands for a
beginning that directives may set.  The lone `!` is a tag of its own.

Any octets may be written with `%`, also such as encode no text, so tags are octets.  Each of the
parts that a tag is put together from ends before its first octet that is zero.
-/

namespace SeriesStorage

namespace Yaml

/-- A tag by its whole name. -/
structure Tag where
  name : List UInt8
deriving DecidableEq, Repr, Inhabited

namespace Tag

/-- With these octets begin the tags that mean the same in all documents. -/
def sharedStart : List UInt8 := octets "tag:yaml.org,2002:".toList

/-- One of the tags that mean the same in all documents. -/
def shared (name : String) : Tag := ⟨sharedStart ++ octets name.toList⟩

/-- A tag that the document made up for itself. -/
def isLocal (tag : Tag) : Bool := tag.name.head? = some 0x21

/-- The name of a tag is a text. -/
def isText (tag : Tag) : Bool := (textOfOctets? tag.name).isSome

end Tag

/-- A tag as it is written; a handle that is empty stands for nothing. -/
structure WrittenTag where
  handle : List Char
  suffix : List UInt8
deriving DecidableEq, Repr, Inhabited

/-- The characters of a tag; commas and brackets count only in a verbatim tag or a directive. -/
def isTagChar (verbatim : Bool) (c : Char) : Bool :=
  isNameChar c
    || [';', '/', '?', ':', '@', '&', '=', '+', '$', '.', '!', '~', '*', '\'', '(', ')'].contains c
    || (verbatim && [',', '[', ']'].contains c)

/-- Reads octets that are written as `%` and two digits each. -/
def readOctets : Nat → List Char → Option (List Nat × List Char)
  | 0, rest => some ([], rest)
  | count + 1, '%' :: a :: b :: rest => do
    let octet ← digits? 16 [a, b]
    let (octets, rest) ← readOctets count rest
    return (octet :: octets, rest)
  | _ + 1, _ => none

/-- How many octets a character takes whose encoding begins with this one. -/
def octetsFrom (first : Nat) : Option Nat :=
  if first < 0x80 then some 1
  else if 0xC0 ≤ first && first < 0xE0 then some 2
  else if 0xE0 ≤ first && first < 0xF0 then some 3
  else if 0xF0 ≤ first && first < 0xF8 then some 4
  else none

/-- Reads a first octet and as many others as it asks for: the octets, and the text behind them. -/
def readEscaped (text : List Char) : Option (List UInt8 × List Char) := do
  let (first, _) ← readOctets 1 text
  let (octets, rest) ← readOctets (← octetsFrom (first.headD 0)) text
  if (octets.drop 1).any fun octet => octet < 0x80 || 0xC0 ≤ octet then none
  return (octets.map UInt8.ofNat, rest)

/-- Reads the octets of a tag behind those read so far. -/
def readTagOctets (verbatim : Bool) :
    Nat → List UInt8 → Cursor → Option (List UInt8 × Cursor)
  | 0, _, _ => none
  | bound + 1, read, c =>
    match c.rest with
    | '%' :: _ => do
      let (escaped, rest) ← readEscaped c.rest
      readTagOctets verbatim bound (read ++ escaped) (c.forward (c.rest.length - rest.length))
    | char :: _ =>
      if isTagChar verbatim char then
        readTagOctets verbatim bound (read ++ octets [char]) (c.forward 1)
      else some (read, c)
    | [] => some (read, c)

/-- The octets before the first one that is zero. -/
def beforeZero (octets : List UInt8) : List UInt8 := octets.takeWhile (· ≠ 0)

/-- Reads a suffix, for which at least one octet has to be written. -/
def readSuffix (verbatim : Bool) (c : Cursor) : Option (List UInt8 × Cursor) := do
  let (suffix, c) ← readTagOctets verbatim (c.rest.length + 1) [] c
  if suffix.isEmpty then none
  return (beforeZero suffix, c)

/-- Reads `!`, the characters of a name, and another `!` if there is one. -/
def readHandle (c : Cursor) : Option (List Char × Cursor) := do
  let c ← c.expect? '!'
  let (name, c) := c.takeWhile isNameChar
  if c.startsWith '!' then return ('!' :: name ++ ['!'], c.forward 1)
  return ('!' :: name, c)

/-- A handle that stands between two `!`. -/
def isNamedHandle (handle : List Char) : Bool :=
  decide (1 < handle.length) && decide (handle.getLast? = some '!')

/-- Reads a tag, whatever follows it. -/
def readTagText (c : Cursor) : Option (WrittenTag × Cursor) := do
  if c.rest.take 2 = ['!', '<'] then
    let (name, c) ← readSuffix true (c.forward 2)
    let c ← c.expect? '>'
    return (⟨[], name⟩, c)
  let (handle, c) ← readHandle c
  if isNamedHandle handle then
    let (suffix, c) ← readSuffix false c
    return (⟨handle, suffix⟩, c)
  let (suffix, c) ← readTagOctets false (c.rest.length + 1) (octets (handle.drop 1)) c
  let suffix := beforeZero suffix
  return (if suffix.isEmpty then ⟨[], octets ['!']⟩ else ⟨['!'], suffix⟩, c)

/-- Reads a tag, which ends at a gap, or inside brackets at a comma. -/
def readTag (inFlow : Bool) (c : Cursor) : Option (WrittenTag × Cursor) :=
  (readTagText c).filter fun (_, c) => atGap c.rest || (inFlow && c.startsWith ',')

/-- What handles stand for. -/
abbrev Handles := List (List Char × List UInt8)

/-- The handles that need no directive. -/
def presetHandles : Handles := [(['!'], octets ['!']), (['!', '!'], Tag.sharedStart)]

/-- The tag that is meant. -/
def WrittenTag.resolve (handles : Handles) (tag : WrittenTag) : Option Tag :=
  if tag.handle.isEmpty then some ⟨tag.suffix⟩
  else (handles.lookup tag.handle).map fun start => ⟨start ++ tag.suffix⟩

end Yaml

end SeriesStorage
