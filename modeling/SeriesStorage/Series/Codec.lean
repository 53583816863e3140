import SeriesStorage.Series.Basic
import SeriesStorage.Json.Reader
import SeriesStorage.Json.Record

/-!
# Series records in JSON

How descriptors, inputs and references are written and read.  A written descriptor leaves out an
empty list of tags and a missing instant of expiry, which a reader takes for just that.
-/

namespace SeriesStorage

namespace Namespace

def toJson (ns : Namespace) : Json := .integer ns.number.toInt

def ofJson? (value : Json) : Option Namespace := value.signed32?.map Namespace.mk

end Namespace

namespace SeriesId

def toJson (id : SeriesId) : Json := .integer id.number.toNat

def ofJson? (value : Json) : Option SeriesId := value.unsigned64?.map SeriesId.mk

end SeriesId

namespace SeriesMetadata

def toJson (m : SeriesMetadata) : Json :=
  .object <|
    [("id", m.id.toJson), ("namespace", m.ns.toJson), ("name", .string m.name)]
      ++ (if m.tags.isEmpty then [] else [("tags", .array (m.tags.map .string))])
      ++ (match m.expireAt with
        | none => []
        | some last => [("ttl_expire_at", .integer last.toNat)])

def ofJson? (value : Json) : Option SeriesMetadata := do
  match (← value.fields? ["id", "namespace", "name", "tags", "ttl_expire_at"]).values with
  | [id, ns, name, tags, last] =>
    return {
      id := ← id.bind SeriesId.ofJson?
      ns := ← ns.bind Namespace.ofJson?
      name := ← name.bind Json.string?
      tags := ← Json.optional Json.strings? [] tags
      expireAt := ← Json.optional (Json.nullOr? Json.unsigned64?) none last }
  | _ => none

/-- The record's text. -/
def encode (m : SeriesMetadata) : String := m.toJson.toText

end SeriesMetadata

namespace SeriesInput

def toJson (input : SeriesInput) : Json :=
  .object
    [("namespace", input.ns.toJson), ("name", .string input.name),
      ("tags", .array (input.tags.map .string)),
      ("ttl", match input.ttl with
        | none => .null
        | some ttl => .integer ttl.toNat)]

def ofJson? (value : Json) : Option SeriesInput := do
  match (← value.fields? ["namespace", "name", "tags", "ttl"]).values with
  | [ns, name, tags, ttl] =>
    return {
      ns := ← ns.bind Namespace.ofJson?
      name := ← name.bind Json.string?
      tags := ← Json.optional Json.strings? [] tags
      ttl := ← Json.optional (Json.nullOr? Json.unsigned32?) none ttl }
  | _ => none

end SeriesInput

namespace SeriesRef

def toJson (ref : SeriesRef) : Json := .object [("namespace", ref.ns.toJson), ("id", ref.id.toJson)]

def ofJson? (value : Json) : Option SeriesRef := do
  match (← value.fields? ["namespace", "id"]).values with
  | [ns, id] => return { ns := ← ns.bind Namespace.ofJson?, id := ← id.bind SeriesId.ofJson? }
  | _ => none

end SeriesRef

/-- Why a text is not the record that it should be: it is no JSON, or lacks the fields. -/
inductive RecordDefect
  | json (failure : Json.Failure)
  | fields
deriving DecidableEq, Repr

/-- The wording of a defect. -/
def RecordDefect.message : RecordDefect → String
  | .json failure => failure.message
  | .fields => "not a record of these fields"

/-- Reads a record from its text. -/
def decodeRecord {α : Type} (ofJson? : Json → Option α) (text : String) : Except RecordDefect α :=
  match Json.parse text with
  | .error failure => .error (.json failure)
  | .ok value =>
    match ofJson? value with
    | some record => .ok record
    | none => .error .fields

/-- Reads a descriptor from its text. -/
def SeriesMetadata.decode (text : String) : Except RecordDefect SeriesMetadata :=
  decodeRecord SeriesMetadata.ofJson? text

end SeriesStorage
