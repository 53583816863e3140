import SeriesStorage.Access
import SeriesStorage.Outcome
import SeriesStorage.Point.Key
import SeriesStorage.Search
import SeriesStorage.Table

/-!
# The store in memory

Descriptors by id, ids by name, points by series, and the last id given.  Points are kept in the
order of their writing; a read sorts them by physical key, which leaves points of one key in that
order.

Each call is made of *sections*, the parts that run under one lock: a creation looks its names up
(`lookupPass`) and then creates what is missing (`insertPass`), which looks again; a deletion
removes descriptors (`unregister`) and then points (`dropPoints`); a write looks for the series
(`access`) and then appends (`append`).  A call is its sections one after the other.
-/

namespace SeriesStorage

namespace Memory

/-- A value under its physical key. -/
structure KeyedValue where
  key : Binary64
  value : Binary64
deriving DecidableEq, Repr, Inhabited

/-- All series and points of a backend in memory. -/
structure Store where
  records : Table SeriesId SeriesMetadata
  names : Table (Namespace × String) SeriesId
  points : Table SeriesRef (List KeyedValue)
  lastId : UInt64
deriving DecidableEq, Repr

namespace Store

def empty : Store := ⟨.empty, .empty, .empty, 0⟩

instance : Inhabited Store := ⟨empty⟩

/-! ## Descriptors -/

/-- The id of a name, which must have a descriptor. -/
def lookupName (s : Store) (ns : Namespace) (name : String) : Except Error (Option SeriesId) :=
  match s.names.get? (ns, name) with
  | none => .ok none
  | some id =>
    if s.records.contains id then .ok (some id) else .error (.internal (.danglingName id))

/-- Enters a descriptor under its id and its name. -/
def register (s : Store) (m : SeriesMetadata) : Store :=
  { s with names := s.names.insert (m.ns, m.name) m.id, records := s.records.insert m.id m }

/-- Removes the descriptor of an id, and its name. -/
def unregisterId (s : Store) (id : SeriesId) : Store :=
  match s.records.get? id with
  | none => s
  | some m => { s with records := s.records.erase id, names := s.names.erase (m.ns, m.name) }

/-- How many series there are. -/
def seriesCount (s : Store) : Nat := s.records.size

/-- How many points of a series are stored. -/
def pointCount (s : Store) (ref : SeriesRef) : Nat := ((s.points.get? ref).getD []).length

/-- What an access to a series finds. -/
def access (s : Store) (now : UInt64) (ref : SeriesRef) : Access :=
  .ofMetadata (s.records.get? ref.id) ref.ns now

/-! ## Deletion -/

/-- Why a series cannot be deleted. -/
def refusal? (s : Store) (ref : SeriesRef) : Option Error :=
  match s.records.get? ref.id with
  | none => some .metadataNotFound
  | some m => if m.ns ≠ ref.ns then some .namespaceMismatch else none

/-- Removes the descriptors of a batch, if none of them is refused. -/
def unregister (s : Store) (refs : List SeriesRef) : Outcome Store Unit :=
  match refs.findSome? s.refusal? with
  | some e => .fail e s
  | none => .succeed () (refs.foldl (fun s ref => s.unregisterId ref.id) s)

/-- Removes the points of a batch. -/
def dropPoints (s : Store) (refs : List SeriesRef) : Store :=
  { s with points := refs.foldl Table.erase s.points }

/-- Deletes a batch of series with their points. -/
def delete (s : Store) (refs : List SeriesRef) : Outcome Store Unit :=
  (s.unregister refs).andThen fun _ s => .succeed () (s.dropPoints refs)

/-! ## Creation -/

/-- Splits a batch into the series that are there and the entries that are not. -/
def lookupPass (s : Store) : CreateBatch → Except Error (List Created × CreateBatch)
  | [] => .ok ([], [])
  | (mark, input) :: rest => do
    match ← s.lookupName input.ns input.name with
    | some id =>
      let (found, missing) ← s.lookupPass rest
      return (⟨mark, id, false⟩ :: found, missing)
    | none =>
      let (found, missing) ← s.lookupPass rest
      return (found, (mark, input) :: missing)

/-- The id that the next series gets. -/
def nextId (s : Store) : SeriesId := ⟨s.lastId + 1⟩

/-- Creates a series under the next id. -/
def createSeries (s : Store) (now : UInt64) (input : SeriesInput) : Store :=
  { s with lastId := s.lastId + 1 }.register (input.describe s.nextId now)

/-- Looks the entries of a batch up again, one after the other, and creates what is missing. -/
def insertPass (now : UInt64) : CreateBatch → Store → Outcome Store (List Created)
  | [], s => .succeed [] s
  | (mark, input) :: rest, s =>
    match s.lookupName input.ns input.name with
    | .error e => .fail e s
    | .ok (some id) =>
      (insertPass now rest s).andThen fun created s => .succeed (⟨mark, id, false⟩ :: created) s
    | .ok none =>
      (insertPass now rest (s.createSeries now input)).andThen fun created s' =>
        .succeed (⟨mark, s.nextId, true⟩ :: created) s'

/-- Finds or creates the series of a batch. -/
def create (s : Store) (now : UInt64) (batch : CreateBatch) : Outcome Store (List Created) :=
  match s.lookupPass batch with
  | .error e => .fail e s
  | .ok (found, missing) =>
    (insertPass now missing s).andThen fun created s => .succeed (found ++ created) s

/-! ## Points -/

/-- The values of a batch under their padded timestamps. -/
def keyedValues (draws : Draws) (times : List UInt64) (values : List Binary64) : List KeyedValue :=
  (times.zip values).zipIdx.map fun ((time, value), i) =>
    ⟨paddedKey time (draws i 0).value, value⟩

/-- Appends values to a series. -/
def append (s : Store) (ref : SeriesRef) (more : List KeyedValue) : Store :=
  { s with points := s.points.insert ref ((s.points.get? ref).getD [] ++ more) }

/-- The values of a series in a window, by physical key. -/
def valuesIn (s : Store) (ref : SeriesRef) (window : Window) : List KeyedValue :=
  (((s.points.get? ref).getD []).filter fun v =>
    window.lowerKey.totalLe v.key && v.key.totalLe window.upperKey && window.contains v.key)
  |>.mergeSort fun v w => v.key.totalLe w.key

/-- The points of a series in a window. -/
def pointsIn (s : Store) (ref : SeriesRef) (window : Window) : Except Error (List Point) :=
  if window.last < window.first then .error .noDataFound
  else
    match s.valuesIn ref window with
    | [] => .error .noDataFound
    | values => .ok (values.map fun v => ⟨keyTime v.key, v.value⟩)

/-- Goes on with a live series; deletes an expired one and fails. -/
def guarded {α : Type} (s : Store) (now : UInt64) (ref : SeriesRef) (act : Outcome Store α) :
    Outcome Store α :=
  match s.access now ref with
  | .live _ => act
  | .unknown => .fail .metadataNotFound s
  | .expired _ => (s.delete [ref]).andThen fun _ s => .fail .seriesExpired s

/-- Writes values to a live series. -/
def write (s : Store) (now : UInt64) (ref : SeriesRef) (draws : Draws) (times : List UInt64)
    (values : List Binary64) : Outcome Store Unit :=
  s.guarded now ref (.succeed () (s.append ref (keyedValues draws times values)))

/-- Reads the points of a live series in a window. -/
def read (s : Store) (now : UInt64) (ref : SeriesRef) (window : Window) :
    Outcome Store (List Point) :=
  s.guarded now ref (.answered (s.pointsIn ref window) s)

/-! ## Searching and clearing -/

/-- Searches for a series. -/
def search (s : Store) (query : Search) : Except Error (List SeriesRef) := do
  query.validate
  match ← s.lookupName query.ns query.name with
  | some id => return [⟨query.ns, id⟩]
  | none => return []

/-- Forgets everything, also which ids were given. -/
def clear (_ : Store) : Store := empty

end Store

end Memory

end SeriesStorage
