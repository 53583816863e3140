import SeriesStorage.Json.Value

/-!
# Records in JSON

A record is an object with known members, or an array that lists its fields in their order.  In an
object unknown members are skipped and a repeated known one is refused; an array may leave out
fields at its end, but not have more.
-/

namespace SeriesStorage

namespace Json

/-- The fields of a record, in their order. -/
structure Fields where
  /-- The record was written as an array. -/
  positional : Bool
  values : List (Option Json)

/-- The members of one name. -/
def named (members : List (String × Json)) (name : String) : List Json :=
  (members.filter (fun member => member.1 == name)).map (·.2)

/-- Takes a value apart into the fields of these names. -/
def fields? (names : List String) : Json → Option Fields
  | .object members =>
    if names.all (fun name => decide ((named members name).length ≤ 1)) then
      some ⟨false, names.map fun name => (named members name).head?⟩
    else none
  | .array items =>
    if items.length ≤ names.length then
      some ⟨true, items.map some ++ List.replicate (names.length - items.length) none⟩
    else none
  | _ => none

/-! ## Scalars -/

/-- A whole number between two bounds. -/
def integerIn? (low high : Int) : Json → Option Int
  | .integer n => if low ≤ n ∧ n ≤ high then some n else none
  | _ => none

def unsigned64? (value : Json) : Option UInt64 :=
  (value.integerIn? 0 0xffffffffffffffff).map fun n => UInt64.ofNat n.toNat

def unsigned32? (value : Json) : Option UInt32 :=
  (value.integerIn? 0 0xffffffff).map fun n => UInt32.ofNat n.toNat

def unsigned16? (value : Json) : Option UInt16 :=
  (value.integerIn? 0 0xffff).map fun n => UInt16.ofNat n.toNat

def signed32? (value : Json) : Option Int32 :=
  (value.integerIn? (-0x80000000) 0x7fffffff).map Int32.ofInt

def signed64? (value : Json) : Option Int64 :=
  (value.integerIn? (-0x8000000000000000) 0x7fffffffffffffff).map Int64.ofInt

def string? : Json → Option String
  | .string s => some s
  | _ => none

def strings? : Json → Option (List String)
  | .array items => items.mapM string?
  | _ => none

/-- Null, or what `read` accepts. -/
def nullOr? {α : Type} (read : Json → Option α) : Json → Option (Option α)
  | .null => some none
  | value => (read value).map some

/-- A field that may be missing, with what it is then. -/
def optional {α : Type} (read : Json → Option α) (missing : α) : Option Json → Option α
  | none => some missing
  | some value => read value

end Json

end SeriesStorage
