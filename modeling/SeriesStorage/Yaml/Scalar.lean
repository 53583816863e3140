import SeriesStorage.Number.Literal
import SeriesStorage.Yaml.Cursor

/-!
# Scalars in YAML

A scalar is written plainly, in one of two kinds of quotes, or as a block of lines.  Where a plain
or quoted scalar goes over several lines, the gap between two words is folded (`Gap.text`): a single
line break becomes a space, and of several all but the first stay.  A block keeps its line breaks
(`|`) or folds those between lines that do not begin with a blank (`>`).

The readers take the place behind the indicator and give the text and the place behind the scalar.
Their loops count down a bound that starts at the number of characters left.
-/

namespace SeriesStorage

namespace Yaml

/-- How a scalar is written. -/
inductive Style
  | plain
  | singleQuoted
  | doubleQuoted
  | literal
  | folded
deriving DecidableEq, Repr, Inhabited

/-! ## Gaps between words -/

/-- Blanks and line breaks between two words. -/
structure Gap where
  /-- The blanks before the first line break. -/
  blanks : List Char
  /-- The first line break, if there is one; one that was escaped is empty. -/
  break? : Option (List Char)
  /-- The line breaks behind the first one. -/
  more : List Char
deriving Inhabited

namespace Gap

def none : Gap := ⟨[], .none, []⟩

/-- A line break that was escaped. -/
def escapedBreak : Gap := ⟨[], some [], []⟩

def isBroken (gap : Gap) : Bool := gap.break?.isSome

/-- The text that a gap becomes. -/
def text (gap : Gap) : List Char :=
  match gap.break? with
  | .none => gap.blanks
  | some ['\n'] => if gap.more.isEmpty then [' '] else gap.more
  | some first => first ++ gap.more

/-- Reads blanks and line breaks; behind a line break no tab may stand before column `limit`. -/
def read (limit : Nat) : Nat → Gap → Cursor → Option (Gap × Cursor)
  | 0, _, _ => .none
  | bound + 1, gap, c =>
    if c.next?.any isBlank then
      if !gap.isBroken then
        read limit bound { gap with blanks := gap.blanks ++ c.next?.toList } (c.forward 1)
      else if c.startsWith '\t' && decide (c.column < limit) then .none
      else read limit bound gap (c.forward 1)
    else
      match c.break? with
      | .none => some (gap, c)
      | some (char, after) =>
        if gap.isBroken then read limit bound { gap with more := gap.more ++ [char] } after
        else read limit bound { gap with break? := some [char] } after

end Gap

/-! ## Plain scalars -/

/-- The characters that end a plain scalar inside brackets. -/
def isFlowIndicator (c : Char) : Bool := [',', '[', ']', '{', '}'].contains c

/-- The next word of a plain scalar: it ends at a gap, at a colon before a gap, and inside brackets
at some indicators, which must not follow a colon there. -/
def plainWord (inFlow : Bool) : List Char → Option (List Char)
  | [] => some []
  | c :: rest =>
    if atGap (c :: rest) then some []
    else if c = ':' && inFlow && rest.head?.any (fun d => d = '?' || isFlowIndicator d) then none
    else if (c = ':' && atGap rest) || (inFlow && isFlowIndicator c) then some []
    else (plainWord inFlow rest).map (c :: ·)

/-- A scalar that was read. -/
structure ScalarText where
  text : List Char
  /-- The place behind the scalar. -/
  after : Cursor
  /-- A line break lies between the scalar and the place behind it. -/
  broken : Bool

/-- Reads a plain scalar whose words so far are followed by a gap; outside of brackets its further
lines begin at column `indent` at least. -/
def plainFrom (inFlow : Bool) (indent : Nat) : Nat → List Char → Gap → Cursor → Option ScalarText
  | 0, _, _, _ => none
  | bound + 1, text, gap, c =>
    if c.atDocumentMark || c.startsWith '#' then some ⟨text, c, gap.isBroken⟩
    else do
      let word ← plainWord inFlow c.rest
      if word.isEmpty then return ⟨text, c, gap.isBroken⟩
      let text := text ++ gap.text ++ word
      let c := c.forward word.length
      let (gap, c) ← Gap.read indent (c.rest.length + 1) .none c
      if !inFlow && decide (c.column < indent) then return ⟨text, c, gap.isBroken⟩
      plainFrom inFlow indent bound text gap c

/-- Reads a plain scalar. -/
def readPlain (inFlow : Bool) (indent : Nat) (c : Cursor) : Option ScalarText :=
  plainFrom inFlow indent (c.rest.length + 1) [] .none c

/-! ## Quoted scalars -/

/-- The characters that a backslash with one character stands for. -/
def escapes : List (Char × Char) :=
  [('0', '\x00'), ('a', '\x07'), ('b', '\x08'), ('t', '\t'), ('\t', '\t'), ('n', '\n'),
    ('v', '\x0b'), ('f', '\x0c'), ('r', '\r'), ('e', '\x1b'), (' ', ' '), ('"', '"'), ('/', '/'),
    ('\\', '\\'),
    ('N', '\u0085'), ('_', '\u00a0'), ('L', '\u2028'), ('P', '\u2029')]

/-- How many hexadecimal digits follow a backslash with this character. -/
def escapeDigits : Char → Option Nat
  | 'x' => some 2
  | 'u' => some 4
  | 'U' => some 8
  | _ => none

/-- Reads an escape behind its backslash: the character it stands for, and how many it takes. -/
def escape : List Char → Option (Char × Nat)
  | [] => none
  | c :: rest =>
    match escapeDigits c with
    | none => (escapes.lookup c).map fun char => (char, 1)
    | some count => do
      let digits := rest.take count
      if digits.length < count then none
      let code ← digits? 16 digits
      if (0xD800 ≤ code && code ≤ 0xDFFF) || 0x10FFFF < code then none
      return (Char.ofNat code, count + 1)

/-- Reads the next word of a scalar in double quotes; the answer tells whether an escaped line break
ends it. -/
def doubleQuotedWord : Nat → List Char → Cursor → Option (List Char × Cursor × Bool)
  | 0, _, _ => none
  | bound + 1, read, c =>
    if atGap c.rest || c.startsWith '"' then some (read.reverse, c, false)
    else
      match c.rest with
      | '\\' :: rest =>
        match (c.forward 1).break? with
        | some (_, after) => some (read.reverse, after, true)
        | none => do
          let (char, count) ← escape rest
          doubleQuotedWord bound (char :: read) (c.forward (count + 1))
      | char :: _ => doubleQuotedWord bound (char :: read) (c.forward 1)
      | [] => none

/-- The next word of a scalar in single quotes, in which a quote is written twice, and how many
characters it takes. -/
def singleQuotedWord : List Char → List Char × Nat
  | [] => ([], 0)
  | '\'' :: '\'' :: rest =>
    let (word, count) := singleQuotedWord rest
    ('\'' :: word, count + 2)
  | c :: rest =>
    if c = '\'' || isBlank c || isBreak c then ([], 0)
    else
      let (word, count) := singleQuotedWord rest
      (c :: word, count + 1)

/-- Reads a quoted scalar from a place behind the words read so far. -/
def quotedFrom (double : Bool) : Nat → List Char → Cursor → Option ScalarText
  | 0, _, _ => none
  | bound + 1, text, c => do
    if c.atDocumentMark || c.rest.isEmpty then none
    let (word, c, escaped) ←
      if double then doubleQuotedWord (c.rest.length + 1) [] c
      else
        let (word, count) := singleQuotedWord c.rest
        some (word, c.forward count, false)
    let text := text ++ word
    if c.startsWith (if double then '"' else '\'') then return ⟨text, c.forward 1, false⟩
    let (gap, c) ← Gap.read 0 (c.rest.length + 1) (if escaped then .escapedBreak else .none) c
    quotedFrom double bound (text ++ gap.text) c

/-- Reads a quoted scalar. -/
def readQuoted (double : Bool) (c : Cursor) : Option ScalarText :=
  quotedFrom double (c.rest.length + 1) [] c

/-! ## Block scalars -/

/-- What becomes of the line breaks at the end of a block: they go, one stays, or all stay. -/
inductive Chomping
  | strip
  | clip
  | keep
deriving DecidableEq, Repr

/-- Reads how a block ends, if that is said. -/
def readChomping? (c : Cursor) : Option Chomping × Cursor :=
  if c.startsWith '+' then (some .keep, c.forward 1)
  else if c.startsWith '-' then (some .strip, c.forward 1)
  else (none, c)

/-- Reads by how much a block is indented, if that is said. -/
def readIncrement? (c : Cursor) : Option (Option Nat × Cursor) :=
  match c.next? with
  | some digit =>
    if digit = '0' then none
    else if digit.isDigit then some (some (digit.toNat - '0'.toNat), c.forward 1)
    else some (none, c)
  | none => some (none, c)

/-- Reads the header of a block: its end and its indentation may be said in either order. -/
def readHeader (c : Cursor) : Option (Chomping × Option Nat × Cursor) := do
  match readChomping? c with
  | (some chomping, c) =>
    let (increment, c) ← readIncrement? c
    return (chomping, increment, c)
  | (none, c) =>
    let (increment, c) ← readIncrement? c
    if increment.isNone then return (.clip, none, c)
    let (chomping, c) := readChomping? c
    return (chomping.getD .clip, increment, c)

/-- The empty lines of a block up to its next line: their line breaks, the rightmost column that
they reach, and the place where the next line begins. -/
structure EmptyLines where
  breaks : List Char
  column : Nat
  after : Cursor

/-- Reads empty lines; no tab may stand among the blanks of the indentation, which ends at column
`indent`, or anywhere if that is not known. -/
def readEmptyLines (indent : Option Nat) : Nat → EmptyLines → Option EmptyLines
  | 0, _ => none
  | bound + 1, lines =>
    let c := lines.after
    let spaces := (c.rest.takeWhile (· = ' ')).length
    let c := c.forward (indent.elim spaces fun indent => min spaces (indent - c.column))
    if indent.all (c.column < ·) && c.startsWith '\t' then none
    else
      let lines : EmptyLines := { lines with column := max lines.column c.column, after := c }
      match c.break? with
      | none => some lines
      | some (char, after) =>
        readEmptyLines indent bound { lines with breaks := lines.breaks ++ [char], after }

/-- What was read of a block: its text without the line breaks at its end, which are the one behind
its last line and those of the empty lines behind it. -/
structure BlockText where
  text : List Char
  lastBreak : List Char
  /-- The last line begins with a blank. -/
  lastIndented : Bool
  emptyLines : EmptyLines

/-- Reads the lines of a block that begin at column `indent`. -/
def readLines (fold : Bool) (indent : Nat) : Nat → BlockText → Option BlockText
  | 0, _ => none
  | bound + 1, block =>
    let c := block.emptyLines.after
    if c.column ≠ indent || c.rest.isEmpty then some block
    else do
      let indented := c.next?.any isBlank
      let breaks := block.emptyLines.breaks
      let gap :=
        if fold && block.lastBreak = ['\n'] && !block.lastIndented && !indented then
          if breaks.isEmpty then [' '] else breaks
        else block.lastBreak ++ breaks
      let (line, c) := c.takeWhile fun char => !isBreak char
      let (lastBreak, c) :=
        match c.break? with
        | some (char, after) => ([char], after)
        | none => ([], c)
      let emptyLines ← readEmptyLines (some indent) (c.rest.length + 1) ⟨[], 0, c⟩
      readLines fold indent bound
        ⟨block.text ++ gap ++ line, lastBreak, indented, emptyLines⟩

/-- Reads a block scalar inside a block whose contents begin at column `outer`, or at none. -/
def readBlock (fold : Bool) (outer : Option Nat) (c : Cursor) : Option ScalarText := do
  let (chomping, increment, c) ← readHeader c
  let c ← c.endLine?
  let said := increment.map fun increment => outer.getD 0 + increment
  let lines ← readEmptyLines said (c.rest.length + 1) ⟨[], 0, c⟩
  let least := outer.elim 1 (· + 1)
  let indent := said.getD (max lines.column least)
  let block ← readLines fold indent (c.rest.length + 1) ⟨[], [], false, lines⟩
  let ending :=
    match chomping with
    | .strip => []
    | .clip => block.lastBreak
    | .keep => block.lastBreak ++ block.emptyLines.breaks
  return ⟨block.text ++ ending, block.emptyLines.after, false⟩

end Yaml

end SeriesStorage
