import SeriesStorage.Text.Octets

/-!
# Places in a YAML text

A cursor is a place in a text: what is left of the text from there on, how many octets lie before
it, and its line and column.  Columns count characters and decide what belongs to which block, so
each line break, of which there are several kinds, has to start a new line.

Reading steps answer `none` if the text is not well-formed.
-/

namespace SeriesStorage

namespace Yaml

/-! ## Characters -/

/-- The characters that may stand in a text. -/
def isPrintable (c : Char) : Bool :=
  let n := c.toNat
  n = 0x09 || n = 0x0A || n = 0x0D || (0x20 ≤ n && n ≤ 0x7E) || n = 0x85
    || (0xA0 ≤ n && n ≤ 0xFFFD) || 0x10000 ≤ n

/-- Blanks inside a line. -/
def isBlank (c : Char) : Bool := c = ' ' || c = '\t'

def isBreak (c : Char) : Bool :=
  c = '\n' || c = '\r' || c = '\u0085' || c = '\u2028' || c = '\u2029'

/-- What follows begins with a blank or a line break, or nothing follows. -/
def atGap (rest : List Char) : Bool := rest.head?.all fun c => isBlank c || isBreak c

/-- What follows begins with a line break, or nothing follows. -/
def atLineEnd (rest : List Char) : Bool := rest.head?.all isBreak

/-- The characters of names, such as those of anchors. -/
def isNameChar (c : Char) : Bool := c.isAlphanum || c = '_' || c = '-'

/-! ## Cursors -/

/-- A place in a text. -/
structure Cursor where
  rest : List Char
  /-- How many octets lie before it. -/
  index : Nat
  line : Nat
  column : Nat
deriving Repr, Inhabited

namespace Cursor

/-- The beginning of a text. -/
def start (text : List Char) : Cursor := ⟨text, 0, 0, 0⟩

def next? (c : Cursor) : Option Char := c.rest.head?

/-- The next character is this one. -/
def startsWith (c : Cursor) (char : Char) : Bool := c.rest.head? = some char

/-- Goes over characters of one line. -/
def forward (c : Cursor) (n : Nat) : Cursor :=
  { c with
    rest := c.rest.drop n
    index := c.index + octetCount (c.rest.take n)
    column := c.column + n }

/-- Goes over the next characters as long as they are of a kind, which must not hold of line
breaks. -/
def skipWhile (kind : Char → Bool) (c : Cursor) : Cursor :=
  c.forward (c.rest.takeWhile kind).length

/-- The next characters as long as they are of a kind, which must not hold of line breaks, and the
place behind them. -/
def takeWhile (kind : Char → Bool) (c : Cursor) : List Char × Cursor :=
  (c.rest.takeWhile kind, c.skipWhile kind)

/-- Goes over a character that has to be there. -/
def expect? (char : Char) (c : Cursor) : Option Cursor :=
  if c.startsWith char then some (c.forward 1) else none

/-- Goes over a line break of so many characters. -/
def newLine (c : Cursor) (n : Nat) : Cursor :=
  ⟨c.rest.drop n, c.index + octetCount (c.rest.take n), c.line + 1, 0⟩

/-- The text that a line break stands for, and the place behind it; most breaks are the same. -/
def break? (c : Cursor) : Option (Char × Cursor) :=
  match c.rest with
  | '\r' :: '\n' :: _ => some ('\n', c.newLine 2)
  | '\r' :: _ => some ('\n', c.newLine 1)
  | '\n' :: _ => some ('\n', c.newLine 1)
  | '\u0085' :: _ => some ('\n', c.newLine 1)
  | '\u2028' :: _ => some ('\u2028', c.newLine 1)
  | '\u2029' :: _ => some ('\u2029', c.newLine 1)
  | _ => none

/-- Goes over a line break, if there is one. -/
def skipBreak (c : Cursor) : Cursor :=
  match c.break? with
  | some (_, after) => after
  | none => c

/-- Goes over blanks, a comment, and the line break that has to follow. -/
def endLine? (c : Cursor) : Option Cursor :=
  let c := c.skipWhile isBlank
  let c := if c.startsWith '#' then c.skipWhile (fun char => !isBreak char) else c
  if atLineEnd c.rest then some c.skipBreak else none

/-- A line with three of one character, which no other word follows directly. -/
def atMark (mark : Char) (c : Cursor) : Bool :=
  decide (c.column = 0) && decide (c.rest.take 3 = [mark, mark, mark]) && atGap (c.rest.drop 3)

/-- Here a document begins or ends. -/
def atDocumentMark (c : Cursor) : Bool := c.atMark '-' || c.atMark '.'

end Cursor

end Yaml

end SeriesStorage
