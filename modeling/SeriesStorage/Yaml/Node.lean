import SeriesStorage.Yaml.Token

/-!
# YAML documents

A document is a tree of nodes, in which an alias stands for the node with an anchor.
`Document.ofText?` reads a text that holds one document at most.

`Composer` is a reading step: it takes tokens from the front and remembers anchors.  The steps that
call each other count down a bound; three steps for each token are enough.
-/

namespace SeriesStorage

namespace Yaml

/-! ## Nodes -/

/-- A part of a document. -/
inductive Node where
  /-- Stands for the node whose anchor has this number. -/
  | alias (anchor : Nat)
  | scalar (tag : Option Tag) (text : String) (style : Style)
  | sequence (tag : Option Tag) (items : List Node)
  | mapping (tag : Option Tag) (entries : List (Node × Node))
deriving Inhabited

/-- A scalar that is left out. -/
def Node.empty : Node := .scalar none "" .plain

mutual

/-- How large a node is written out: a scalar or alias counts once, what has a beginning and an end
twice. -/
def Node.size : Node → Nat
  | .alias _ => 1
  | .scalar _ _ _ => 1
  | .sequence _ items => 2 + Node.sizeOfItems items
  | .mapping _ entries => 2 + Node.sizeOfEntries entries

def Node.sizeOfItems : List Node → Nat
  | [] => 0
  | item :: rest => item.size + Node.sizeOfItems rest

def Node.sizeOfEntries : List (Node × Node) → Nat
  | [] => 0
  | (key, value) :: rest => key.size + value.size + Node.sizeOfEntries rest

end

/-! ## Anchors -/

/-- The anchors that were seen.  The number of an anchor is that of the names before it, so that
after a repeated name two anchors can have one number; then the one that begins later counts. -/
structure Anchors where
  /-- The numbers of names, the last one first. -/
  names : List (String × Nat)
  /-- How many anchors were seen. -/
  count : Nat
  /-- Numbers with the place of their anchor among all anchors, the last one first. -/
  places : List (Nat × Nat)
  /-- The nodes by the place of their anchor. -/
  nodes : List (Nat × Node)
deriving Inhabited

namespace Anchors

def empty : Anchors := ⟨[], 0, [], []⟩

/-- The number of a name. -/
def number? (anchors : Anchors) (name : String) : Option Nat := anchors.names.lookup name

/-- Remembers that a node with an anchor begins; answers the place of the anchor. -/
def begin (anchors : Anchors) (name : String) : Nat × Anchors :=
  let number := (anchors.names.map (·.1)).eraseDups.length
  (anchors.count,
    { anchors with
      names := (name, number) :: anchors.names
      count := anchors.count + 1
      places := (number, anchors.count) :: anchors.places })

/-- Remembers the node of an anchor. -/
def finish (anchors : Anchors) (place : Nat) (node : Node) : Anchors :=
  { anchors with nodes := (place, node) :: anchors.nodes }

/-- The node of an anchor. -/
def node? (anchors : Anchors) (number : Nat) : Option Node := do
  anchors.nodes.lookup (← anchors.places.lookup number)

end Anchors

/-! ## Reading nodes -/

/-- The tokens that are left, and the anchors that were seen. -/
structure Composition where
  tokens : List Token
  anchors : Anchors

/-- A reading step. -/
abbrev Composer := StateT Composition Option

namespace Composer

/-- The next token, which stays. -/
def peek : Composer (Option Token) := return (← get).tokens.head?

/-- Takes the next token. -/
def skip : Composer Unit := modify fun s => { s with tokens := s.tokens.drop 1 }

/-- Takes the next token if it is this one. -/
def accept (token : Token) : Composer Bool := do
  if (← peek) = some token then
    skip
    return true
  return false

/-- Takes the next token, which has to be this one. -/
def expect (token : Token) : Composer Unit := do
  if !(← accept token) then failure

/-- The next token is one of these, or there is none. -/
def stopsAt (tokens : List Token) : Composer Bool := return (← peek).all tokens.contains

/-- What stands before a node. -/
structure Properties where
  anchor : Option String := none
  tag : Option Tag := none

def readAnchor? : Composer (Option String) := do
  match ← peek with
  | some (.anchor name) =>
    skip
    return some name
  | _ => return none

def readTag? (handles : Handles) : Composer (Option Tag) := do
  match ← peek with
  | some (.tag written) =>
    skip
    return some (← written.resolve handles)
  | _ => return none

/-- Reads an anchor and a tag, in either order; each may be missing. -/
def readProperties (handles : Handles) : Composer Properties := do
  match ← readAnchor? with
  | some name => return ⟨some name, ← readTag? handles⟩
  | none =>
    let tag ← readTag? handles
    return ⟨← readAnchor?, tag⟩

/-- Reads a node behind its anchor. -/
def anchored (anchor : Option String) (read : Composer Node) : Composer Node := do
  match anchor with
  | none => read
  | some name =>
    let (place, anchors) := (← get).anchors.begin name
    modify fun s => { s with anchors }
    let node ← read
    modify fun s => { s with anchors := s.anchors.finish place node }
    return node

/-- Reads a node unless one of these tokens follows; then it was left out. -/
def unlessAt (tokens : List Token) (read : Composer Node) : Composer Node := do
  if ← stopsAt tokens then return .empty else read

mutual

/-- Reads a node.  In brackets no blocks can follow, and a sequence may go without indentation only
as a key or a value. -/
def node (handles : Handles) (inBlock unindented : Bool) (bound : Nat) : Composer Node := do
  match bound with
  | 0 => failure
  | bound + 1 =>
    if let some (.alias name) ← peek then
      skip
      return .alias (← (← get).anchors.number? name)
    let properties ← readProperties handles
    anchored properties.anchor (content handles inBlock unindented properties bound)

/-- Reads a node behind what stands before it. -/
def content (handles : Handles) (inBlock unindented : Bool) (properties : Properties)
    (bound : Nat) : Composer Node := do
  match bound with
  | 0 => failure
  | bound + 1 =>
    let tag := properties.tag
    match ← peek with
    | some (.scalar text style) =>
      skip
      return .scalar tag text style
    | some .flowSequenceStart =>
      skip
      return .sequence tag (← flowItems handles true bound)
    | some .flowMappingStart =>
      skip
      return .mapping tag (← flowEntries handles true bound)
    | token =>
      if unindented && token = some .blockEntry then
        return .sequence tag (← unindentedItems handles bound)
      else if inBlock && token = some .blockSequenceStart then
        skip
        return .sequence tag (← blockItems handles bound)
      else if inBlock && token = some .blockMappingStart then
        skip
        return .mapping tag (← blockEntries handles bound)
      else if properties.anchor.isSome || tag.isSome then return .scalar tag "" .plain
      else failure

/-- Reads the items of a block. -/
def blockItems (handles : Handles) (bound : Nat) : Composer (List Node) := do
  match bound with
  | 0 => failure
  | bound + 1 =>
    if ← accept .blockEnd then return []
    expect .blockEntry
    let item ← unlessAt [.blockEntry, .blockEnd] (node handles true false bound)
    return item :: (← blockItems handles bound)

/-- Reads items that are not indented. -/
def unindentedItems (handles : Handles) (bound : Nat) : Composer (List Node) := do
  match bound with
  | 0 => failure
  | bound + 1 =>
    if !(← accept .blockEntry) then return []
    let item ← unlessAt [.blockEntry, .key, .value, .blockEnd] (node handles true false bound)
    return item :: (← unindentedItems handles bound)

/-- Reads the entries of a block. -/
def blockEntries (handles : Handles) (bound : Nat) : Composer (List (Node × Node)) := do
  match bound with
  | 0 => failure
  | bound + 1 =>
    if ← accept .blockEnd then return []
    expect .key
    let read := unlessAt [.key, .value, .blockEnd] (node handles true true bound)
    let key ← read
    let value ← if ← accept .value then read else pure .empty
    return (key, value) :: (← blockEntries handles bound)

/-- Reads the items between square brackets; an entry among them is a mapping of its own. -/
def flowItems (handles : Handles) (first : Bool) (bound : Nat) : Composer (List Node) := do
  match bound with
  | 0 => failure
  | bound + 1 =>
    if ← accept .flowSequenceEnd then return []
    if !first then expect .flowEntry
    if ← accept .flowSequenceEnd then return []
    let item ←
      if ← accept .key then
        let entry ← singleEntry handles bound
        pure (.mapping none [entry])
      else node handles false false bound
    return item :: (← flowItems handles false bound)

/-- Reads an entry among items; if its key is left out, so is the token behind that. -/
def singleEntry (handles : Handles) (bound : Nat) : Composer (Node × Node) := do
  match bound with
  | 0 => failure
  | bound + 1 =>
    let key ←
      if ← stopsAt [.value, .flowEntry, .flowSequenceEnd] then
        skip
        pure .empty
      else node handles false false bound
    let value ←
      if ← accept .value then
        unlessAt [.flowEntry, .flowSequenceEnd] (node handles false false bound)
      else pure .empty
    return (key, value)

/-- Reads the entries between curly brackets. -/
def flowEntries (handles : Handles) (first : Bool) (bound : Nat) :
    Composer (List (Node × Node)) := do
  match bound with
  | 0 => failure
  | bound + 1 =>
    if ← accept .flowMappingEnd then return []
    if !first then expect .flowEntry
    if ← accept .flowMappingEnd then return []
    let entry ←
      if ← accept .key then
        let stops := [.value, .flowEntry, .flowMappingEnd]
        let key ← unlessAt stops (node handles false false bound)
        let value ←
          if ← accept .value then
            unlessAt [.flowEntry, .flowMappingEnd] (node handles false false bound)
          else pure .empty
        pure (key, value)
      else
        let key ← node handles false false bound
        pure (key, .empty)
    return entry :: (← flowEntries handles false bound)

end

end Composer

/-! ## Documents -/

/-- A document; the nodes with anchors are those that aliases stand for. -/
structure Document where
  root : Node
  anchors : Anchors
deriving Inhabited

namespace Document

open Composer

/-- Reads directives: the version that they say must be known, and nothing may be said twice. -/
def directives (versionSaid : Bool) (handles : Handles) : List Token → Option (Handles × List Token)
  | .versionDirective major minor :: rest =>
    if !versionSaid && major = 1 && (minor = 1 || minor = 2) then directives true handles rest
    else none
  | .handleDirective handle start :: rest =>
    if (handles.lookup handle).isSome then none
    else directives versionSaid ((handle, start) :: handles) rest
  | rest => some (handles, rest)

/-- Reads the beginning of a document: its handles, and whether its content may be left out. -/
def opening (tokens : List Token) : Option (Handles × Bool × List Token) := do
  let (handles, rest) ← directives false [] tokens
  match rest with
  | .documentStart :: rest => return (handles ++ presetHandles, true, rest)
  | _ => if rest.length = tokens.length then return (presetHandles, false, tokens) else none

/-- Reads the only document among tokens, if there is one. -/
def ofTokens? (tokens : List Token) : Option (Option Document) := do
  if tokens.isEmpty then return none
  let (handles, optional, rest) ← opening tokens
  let bound := 3 * tokens.length + 3
  let content := node handles true false bound
  let reading := if optional then unlessAt [.documentStart, .documentEnd] content else content
  let (root, s) ← reading.run ⟨rest, .empty⟩
  if s.tokens.all (· = .documentEnd) then return some ⟨root, s.anchors⟩ else none

/-- Reads a text that holds a document at most. -/
def ofText? (text : String) : Option (Option Document) := do
  ofTokens? (← Token.ofText? text)

end Document

end Yaml

end SeriesStorage
