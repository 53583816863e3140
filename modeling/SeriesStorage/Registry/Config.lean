import SeriesStorage.Error
import SeriesStorage.Registry.Options
import SeriesStorage.Yaml.Reading

/-!
# Configuration texts

A configuration is a YAML document:

    backends:
      - type: redis
        identifier: main
        metadata: true
        options:
          redis: [{addr: localhost, port: 6379}]
    strategy:
      type: simple

Everything but the kind of a backend may be left out, and what is not known is skipped.
-/

namespace SeriesStorage

open Yaml (Document Node Reading)

/-- Free-form settings at a depth of the document. -/
def Settings.ofNode (d : Document) (depth : Nat) (node : Node) : Reading Settings := do
  let members ← (← d.members node).mapM fun (name, value) =>
    return (name, ← d.value (Document.depthLimit - depth) value)
  return members.foldl (fun kept (name, value) => Document.putMember kept name value) []

/-- The settings of a backend lie inside of a list of records. -/
def BackendOptions.ofNode (d : Document) (node : Node) : Reading BackendOptions := do
  let fields ← d.fields ["type", "identifier", "metadata", "options"] node
  return {
    kind := ← d.text (← fields.lookup "type")
    identifier := ← Document.field fields "identifier" "" d.text
    holdsMetadata := ← Document.field fields "metadata" false d.flag
    settings := ← Document.field fields "options" [] (Settings.ofNode d 4) }

def StrategyOptions.ofNode (d : Document) (node : Node) : Reading StrategyOptions := do
  let fields ← d.fields ["type", "options"] node
  return {
    kind := ← Document.field fields "type" "" d.text
    settings := ← Document.field fields "options" [] (Settings.ofNode d 3) }

namespace StorageConfig

def ofNode (d : Document) (node : Node) : Reading StorageConfig := do
  let fields ← d.fields ["backends", "strategy"] node
  return {
    backends := ← Document.field fields "backends" [] fun node => do
      (← d.items node).mapM fun item => BackendOptions.ofNode d item
    strategy := ← Document.field fields "strategy" {} fun node => StrategyOptions.ofNode d node }

/-- Reads a configuration from its text; an empty text says nothing. -/
def parse (text : String) : Except Error StorageConfig :=
  match Document.ofText? text with
  | none => .error (.config (.document .malformed))
  | some none => .ok {}
  | some (some d) =>
    match (ofNode d d.root).run' d.aliasLimit with
    | none => .error (.config (.document .shape))
    | some config => .ok config

end StorageConfig

end SeriesStorage
