import SeriesStorage.Yaml.Node
import SeriesStorage.Yaml.Plain

/-!
# Reading documents

How parts of a document are read as texts, truth values, lists, records and free-form values.  What
a reader does not ask for it does not look at.  An alias is read as the node that it stands for,
which may be done only so often, since aliases of aliases can stand for very large values.
-/

namespace SeriesStorage

namespace Yaml

/-- A reading step; the state is how many more aliases may be followed. -/
abbrev Reading := StateT Nat Option

namespace Document

/-- How many aliases may be followed in a document. -/
def aliasLimit (d : Document) : Nat := 100 * d.root.size

/-- The node, or the one that it stands for. -/
def follow (d : Document) : Node → Reading Node
  | .alias number => do
    match ← get with
    | 0 => failure
    | left + 1 =>
      set left
      return ← d.anchors.node? number
  | node => return node

/-- Reads any scalar as its text. -/
def text (d : Document) (node : Node) : Reading String := do
  match ← d.follow node with
  | .scalar _ text _ => return text
  | _ => failure

/-- Reads a truth value, which is written plainly, or in a block that says what it is. -/
def flag (d : Document) (node : Node) : Reading Bool := do
  match ← d.follow node with
  | .scalar tag text style =>
    if style = .plain || (style = .literal && tag = some (.shared "bool")) then
      return ← Plain.truth? text
    failure
  | _ => failure

/-- The items of a sequence, or of nothing. -/
def items (d : Document) (node : Node) : Reading (List Node) := do
  match ← d.follow node with
  | .sequence _ items => return items
  | .scalar _ "" .plain => return []
  | _ => failure

/-- The entries of a mapping, or of nothing; keys are texts. -/
def members (d : Document) (node : Node) : Reading (List (String × Node)) := do
  match ← d.follow node with
  | .mapping _ entries => entries.mapM fun (key, value) => return (← d.text key, value)
  | .scalar _ "" .plain => return []
  | _ => failure

/-- The members of these names, of which none may occur twice. -/
def fields (d : Document) (names : List String) (node : Node) : Reading (List (String × Node)) := do
  let known := (← d.members node).filter fun (name, _) => names.contains name
  if (known.map (·.1)).Nodup then return known else failure

/-- Reads the field of a name, if it is there. -/
def field {α : Type} (fields : List (String × Node)) (name : String) (missing : α)
    (read : Node → Reading α) : Reading α :=
  match fields.lookup name with
  | some node => read node
  | none => return missing

/-! ## Free-form values -/

/-- The tag asks for one of several kinds of value that the document tells apart by name, of which
a free-form value is none. -/
def asksForKind (tag : Option Tag) : Bool := tag.any fun tag => tag.isLocal && tag.isText

/-- What a scalar means; a tag of the document's own says nothing. -/
def scalarValue? (tag : Option Tag) (text : String) (style : Style) : Option Json :=
  match tag.filter fun tag => !tag.isLocal with
  | none => if style = .plain then Plain.value? text else some (.string text)
  | some tag => (Plain.taggedValue? tag text).getD (some (.string text))

/-- Puts a member behind the others, in place of one of the same name. -/
def putMember {α : Type} (members : List (String × α)) (name : String) (value : α) :
    List (String × α) :=
  members.filter (·.1 ≠ name) ++ [(name, value)]

/-- Reads a free-form value in which fewer than so many others are nested. -/
def value (d : Document) : Nat → Node → Reading Json
  | depth, node => do
    match ← d.follow node with
    | .alias _ => failure
    | .scalar tag text style =>
      if asksForKind tag then failure
      return ← scalarValue? tag text style
    | .sequence tag items =>
      if asksForKind tag then failure
      match depth with
      | 0 => failure
      | depth + 1 => return .array (← items.mapM fun item => d.value depth item)
    | .mapping tag entries =>
      if asksForKind tag then failure
      match depth with
      | 0 => failure
      | depth + 1 =>
        let members ← entries.mapM fun (key, item) => return (← d.text key, ← d.value depth item)
        return .object (members.foldl (fun kept (name, value) => putMember kept name value) [])

/-- How deeply a document may be nested. -/
def depthLimit : Nat := 128

end Document

end Yaml

end SeriesStorage
