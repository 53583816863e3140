import SeriesStorage.Yaml.Scalar
import SeriesStorage.Yaml.Tag

/-!
# Tokens of YAML

`Token.ofText?` takes a text apart into tokens.  In blocks, indentation becomes tokens:
`Scan.indent` opens a block where a line begins further to the right, and `Scan.dedent` closes
blocks where a line begins further to the left.

Whether something is a key is known only at the colon behind it.  So `Scan.saveKey` remembers where
a key may begin, and the colon puts a `key` token there.  Such a key ends on the line on which it
begins and has at most 1024 octets; where a line must begin with a key it is `required`.
-/

namespace SeriesStorage

namespace Yaml

/-- The smallest parts of a text. -/
inductive Token
  | versionDirective (major minor : Nat)
  | handleDirective (handle : List Char) (start : List UInt8)
  | documentStart
  | documentEnd
  | blockSequenceStart
  | blockMappingStart
  | blockEnd
  | flowSequenceStart
  | flowSequenceEnd
  | flowMappingStart
  | flowMappingEnd
  /-- The dash before an item. -/
  | blockEntry
  /-- The comma between items. -/
  | flowEntry
  | key
  | value
  | alias (name : String)
  | anchor (name : String)
  | tag (written : WrittenTag)
  | scalar (text : String) (style : Style)
deriving DecidableEq, Repr, Inhabited

/-- A place where a key may begin. -/
structure KeyPlace where
  /-- How many tokens lie before it. -/
  before : Nat
  required : Bool
  place : Cursor

/-- How far the tokens of a text were read. -/
structure Scan where
  cursor : Cursor
  tokens : Array Token
  /-- The columns of the open blocks, the innermost first. -/
  columns : List Nat
  /-- A key may begin here. -/
  keyAllowed : Bool
  /-- Where the key that is being read may have begun. -/
  key : Option KeyPlace
  /-- The same around each open bracket, the innermost first. -/
  outerKeys : List (Option KeyPlace)

namespace Scan

def start (text : List Char) : Scan where
  cursor := .start text
  tokens := #[]
  columns := []
  keyAllowed := true
  key := none
  outerKeys := []

/-- Brackets are open. -/
def inFlow (s : Scan) : Bool := !s.outerKeys.isEmpty

def push (s : Scan) (token : Token) : Scan := { s with tokens := s.tokens.push token }

/-- Takes a token of so many characters. -/
def take (s : Scan) (token : Token) (length : Nat) : Scan :=
  { s.push token with cursor := s.cursor.forward length }

/-- Takes a token that ends at a place. -/
def takeTo (s : Scan) (token : Token) (after : Cursor) : Scan :=
  { s.push token with cursor := after }

/-! ## Blocks -/

/-- Puts a token before the one at a place. -/
def insertAt (tokens : Array Token) (place : Nat) (token : Token) : Array Token :=
  (tokens.extract 0 place).push token ++ tokens.extract place tokens.size

/-- Opens a block at a column, unless there is one already, with a token at a place. -/
def indent (s : Scan) (column place : Nat) (token : Token) : Scan :=
  if s.inFlow || s.columns.head?.any (column ≤ ·) then s
  else { s with columns := column :: s.columns, tokens := insertAt s.tokens place token }

/-- Closes the blocks of which a condition on their columns holds. -/
def closeWhile (close : Nat → Bool) (s : Scan) : Scan :=
  if s.inFlow then s
  else
    let closed := s.columns.takeWhile close
    { s with
      columns := s.columns.dropWhile close
      tokens := s.tokens ++ (closed.map fun _ => Token.blockEnd) }

/-- Closes the blocks to the right of a column. -/
def dedent (s : Scan) (column : Nat) : Scan := s.closeWhile (column < ·)

/-- Closes all blocks. -/
def closeBlocks (s : Scan) : Scan := s.closeWhile fun _ => true

/-! ## Keys -/

/-- Forgets the place of a key, which must not be required. -/
def dropKey (s : Scan) : Option Scan :=
  if s.key.any (·.required) then none else some { s with key := none }

/-- Remembers that a key may begin here. -/
def saveKey (s : Scan) : Option Scan :=
  if s.keyAllowed then do
    let s ← s.dropKey
    let required := !s.inFlow && decide (s.columns.head? = some s.cursor.column)
    return { s with key := some ⟨s.tokens.size, required, s.cursor⟩ }
  else some s

/-- The place of a key, unless it is too far from here. -/
def keepKey (here : Cursor) (key : Option KeyPlace) : Option (Option KeyPlace) :=
  match key with
  | none => some none
  | some k =>
    if k.place.line < here.line || k.place.index + 1024 < here.index then
      if k.required then none else some none
    else some key

/-- Forgets the places of keys that are too far from here. -/
def dropFarKeys (s : Scan) : Option Scan := do
  return { s with
    key := ← keepKey s.cursor s.key
    outerKeys := ← s.outerKeys.mapM (keepKey s.cursor) }

/-! ## Between tokens -/

/-- Goes to the next token.  Tabs do not count as blanks where a key may begin in a block; a byte
order mark may begin each line, and takes a column. -/
def skipGap : Nat → Scan → Scan
  | 0, s => s
  | bound + 1, s =>
    let tabs := s.inFlow || !s.keyAllowed
    let marked := s.cursor.column = 0 && s.cursor.startsWith '\ufeff'
    let c := if marked then s.cursor.forward 1 else s.cursor
    let c := c.skipWhile fun char => char = ' ' || (tabs && char = '\t')
    let c := if c.startsWith '#' then c.skipWhile (fun char => !isBreak char) else c
    match c.break? with
    | none => { s with cursor := c }
    | some (_, after) =>
      skipGap bound { s with cursor := after, keyAllowed := s.keyAllowed || !s.inFlow }

/-! ## Directives and marks of documents -/

/-- Reads a number of a version. -/
def readVersionNumber (c : Cursor) : Option (Nat × Cursor) := do
  let (digits, c) := c.takeWhile Char.isDigit
  if digits.isEmpty || 9 < digits.length then none
  return (Nat.ofDigitChars 10 digits 0, c)

/-- Reads a directive behind its name. -/
def readDirective (name : List Char) (c : Cursor) : Option (Token × Cursor) := do
  let c := c.skipWhile isBlank
  if name = ['Y', 'A', 'M', 'L'] then
    let (major, c) ← readVersionNumber c
    let c ← c.expect? '.'
    let (minor, c) ← readVersionNumber c
    return (.versionDirective major minor, c)
  else if name = ['T', 'A', 'G'] then
    let (handle, c) ← readHandle c
    if handle.getLast? ≠ some '!' then none
    if !c.next?.any isBlank then none
    let (start, c) ← readSuffix true (c.skipWhile isBlank)
    if !atGap c.rest then none
    return (.handleDirective handle start, c)
  else none

/-- Takes a directive. -/
def takeDirective (s : Scan) : Option Scan := do
  let s ← s.closeBlocks.dropKey
  let (name, c) := (s.cursor.forward 1).takeWhile isNameChar
  if name.isEmpty || !atGap c.rest then none
  let (token, c) ← readDirective name c
  return { s.takeTo token (← c.endLine?) with keyAllowed := false }

/-- Takes the mark that begins or ends a document. -/
def takeMark (s : Scan) (token : Token) : Option Scan := do
  let s ← s.closeBlocks.dropKey
  return { s.take token 3 with keyAllowed := false }

/-! ## Brackets and commas -/

/-- Takes an opening bracket. -/
def takeOpening (s : Scan) (token : Token) : Option Scan := do
  let s ← s.saveKey
  return { s.take token 1 with keyAllowed := true, key := none, outerKeys := s.key :: s.outerKeys }

/-- Takes a closing bracket. -/
def takeClosing (s : Scan) (token : Token) : Option Scan := do
  let s := { ← s.dropKey with keyAllowed := false }
  match s.outerKeys with
  | [] => return s.take token 1
  | key :: outerKeys => return { s.take token 1 with key, outerKeys }

/-- Takes a comma. -/
def takeComma (s : Scan) : Option Scan := do
  return { (← s.dropKey).take .flowEntry 1 with keyAllowed := true }

/-! ## Items, keys and values -/

/-- Opens a block here, where a key must be allowed; inside brackets there are no blocks. -/
def openHere (s : Scan) (token : Token) : Option Scan :=
  if s.inFlow then some s
  else if s.keyAllowed then some (s.indent s.cursor.column s.tokens.size token)
  else none

/-- Takes the dash before an item. -/
def takeDash (s : Scan) : Option Scan := do
  let s ← (← s.openHere .blockSequenceStart).dropKey
  return { s.take .blockEntry 1 with keyAllowed := true }

/-- Takes the mark before a key that is not simple. -/
def takeKeyMark (s : Scan) : Option Scan := do
  let s ← (← s.openHere .blockMappingStart).dropKey
  return { s.take .key 1 with keyAllowed := !s.inFlow }

/-- Takes the colon before a value. -/
def takeColon (s : Scan) : Option Scan :=
  match s.key with
  | some k =>
    let s := { s with tokens := insertAt s.tokens k.before .key }
    let s := s.indent k.place.column k.before .blockMappingStart
    some { s.take .value 1 with key := none, keyAllowed := false }
  | none => do
    let s ← s.openHere .blockMappingStart
    return { s.take .value 1 with keyAllowed := !s.inFlow }

/-! ## Nodes -/

/-- Takes an anchor or an alias. -/
def takeName (s : Scan) (token : String → Token) : Option Scan := do
  let s ← s.saveKey
  let (name, c) := (s.cursor.forward 1).takeWhile isNameChar
  if name.isEmpty then none
  if atGap c.rest || c.next?.any ['?', ':', ',', ']', '}', '%', '@', '\x60'].contains then
    return { s.takeTo (token (String.ofList name)) c with keyAllowed := false }
  none

def takeTag (s : Scan) : Option Scan := do
  let s ← s.saveKey
  let (written, c) ← readTag s.inFlow s.cursor
  return { s.takeTo (.tag written) c with keyAllowed := false }

def takeBlockScalar (s : Scan) (fold : Bool) : Option Scan := do
  let s ← s.dropKey
  let read ← readBlock fold s.columns.head? (s.cursor.forward 1)
  let token : Token := .scalar (String.ofList read.text) (if fold then .folded else .literal)
  return { s.takeTo token read.after with keyAllowed := true }

def takeQuotedScalar (s : Scan) (double : Bool) : Option Scan := do
  let s ← s.saveKey
  let read ← readQuoted double (s.cursor.forward 1)
  let style : Style := if double then .doubleQuoted else .singleQuoted
  return { s.takeTo (.scalar (String.ofList read.text) style) read.after with keyAllowed := false }

/-- Takes a plain scalar; if a line break follows it, a key may begin behind it. -/
def takePlainScalar (s : Scan) : Option Scan := do
  let s ← s.saveKey
  let read ← readPlain s.inFlow (s.columns.head?.elim 0 (· + 1)) s.cursor
  return { s.takeTo (.scalar (String.ofList read.text) .plain) read.after with
    keyAllowed := read.broken }

/-- The characters that cannot begin a plain scalar. -/
def indicators : List Char :=
  ['-', '?', ':', ',', '[', ']', '{', '}', '#', '&', '*', '!', '|', '>', '\'', '"', '%', '@',
    '\x60']

/-- A plain scalar can begin here: three of the indicators can begin one if no gap follows, though
in brackets only the dash. -/
def beginsPlain (inFlow : Bool) (rest : List Char) : Bool :=
  match rest with
  | [] => false
  | c :: more =>
    if c = '-' then !atGap more
    else if c = '?' || c = ':' then !inFlow && !atGap more
    else !indicators.contains c && !isBlank c && !isBreak c

/-- Takes the next token. -/
def takeToken (s : Scan) : Option Scan :=
  let c := s.cursor
  let gapFollows := atGap (c.rest.drop 1)
  match c.next? with
  | none => none
  | some char =>
    if c.column = 0 && char = '%' then s.takeDirective
    else if c.atMark '-' then s.takeMark .documentStart
    else if c.atMark '.' then s.takeMark .documentEnd
    else if char = '[' then s.takeOpening .flowSequenceStart
    else if char = '{' then s.takeOpening .flowMappingStart
    else if char = ']' then s.takeClosing .flowSequenceEnd
    else if char = '}' then s.takeClosing .flowMappingEnd
    else if char = ',' then s.takeComma
    else if char = '-' && gapFollows then s.takeDash
    else if char = '?' && (s.inFlow || gapFollows) then s.takeKeyMark
    else if char = ':' && (s.inFlow || gapFollows) then s.takeColon
    else if char = '*' then s.takeName .alias
    else if char = '&' then s.takeName .anchor
    else if char = '!' then s.takeTag
    else if char = '|' && !s.inFlow then s.takeBlockScalar false
    else if char = '>' && !s.inFlow then s.takeBlockScalar true
    else if char = '\'' then s.takeQuotedScalar false
    else if char = '"' then s.takeQuotedScalar true
    else if beginsPlain s.inFlow c.rest then s.takePlainScalar
    else none

/-- Takes all tokens. -/
def takeAll : Nat → Scan → Option (Array Token)
  | 0, _ => none
  | bound + 1, s => do
    let s := skipGap (s.cursor.rest.length + 1) s
    let s ← s.dropFarKeys
    let s := s.dedent s.cursor.column
    if s.cursor.rest.isEmpty then return (← s.closeBlocks.dropKey).tokens
    takeAll bound (← s.takeToken)

end Scan

/-- The tokens of a text. -/
def Token.ofText? (text : String) : Option (List Token) :=
  let chars := text.toList
  if chars.all isPrintable then (Scan.takeAll (chars.length + 1) (.start chars)).map Array.toList
  else none

end Yaml

end SeriesStorage
