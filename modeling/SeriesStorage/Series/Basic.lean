import SeriesStorage.Text.Blank

/-!
# Series

A series lives in a namespace, has an id that the backend gave it, and a descriptor that never
changes once the series exists.

* `SeriesMetadata.isExpired now`: the instant of expiry lies before `now`, in whole seconds; in its
  last second a series is still live.
* `SeriesInput.describe id now`: the descriptor of a series created at `now`; a time to live of 0
  means none.
-/

namespace SeriesStorage

/-- A tenant; series and their keys belong to one. -/
structure Namespace where
  number : Int32
deriving DecidableEq, Repr, Inhabited

/-- The number of a series, given by the backend at its creation. -/
structure SeriesId where
  number : UInt64
deriving DecidableEq, Repr, Inhabited

instance : ToString Namespace := ⟨fun ns => toString ns.number.toInt⟩
instance : ToString SeriesId := ⟨fun id => toString id.number.toNat⟩

/-- The name under which writes wait for a common flush; the empty one means no waiting. -/
structure RequestId where
  text : String
deriving DecidableEq, Repr, Inhabited

instance : ToString RequestId := ⟨RequestId.text⟩

namespace RequestId

def empty : RequestId := ⟨""⟩

def isEmpty (id : RequestId) : Bool := id.text.isEmpty

end RequestId

/-- The caller's mark on an entry of a creation batch. -/
structure CreateMark where
  number : UInt64
deriving DecidableEq, Repr, Inhabited

/-- A series, named from outside: namespace and id. -/
structure SeriesRef where
  ns : Namespace
  id : SeriesId
deriving DecidableEq, Repr, Inhabited

/-- The descriptor of a series. -/
structure SeriesMetadata where
  id : SeriesId
  ns : Namespace
  name : String
  tags : List String
  /-- The last second in which the series is live, if it ever expires. -/
  expireAt : Option UInt64
deriving DecidableEq, Repr, Inhabited

namespace SeriesMetadata

/-- The series that a descriptor describes. -/
def ref (m : SeriesMetadata) : SeriesRef := ⟨m.ns, m.id⟩

/-- Whether the series is gone at a second. -/
def isExpired (m : SeriesMetadata) (now : UInt64) : Bool :=
  match m.expireAt with
  | some last => decide (last < now)
  | none => false

end SeriesMetadata

/-- What a caller says about a series that shall exist. -/
structure SeriesInput where
  ns : Namespace
  name : String
  tags : List String
  /-- Seconds to live from the creation on. -/
  ttl : Option UInt32
deriving DecidableEq, Repr, Inhabited

namespace SeriesInput

/-- The descriptor of the series created with this id at this second. -/
def describe (input : SeriesInput) (id : SeriesId) (now : UInt64) : SeriesMetadata where
  id := id
  ns := input.ns
  name := input.name
  tags := input.tags
  expireAt := (input.ttl.filter (0 < ·)).map fun ttl => now + ttl.toUInt64

end SeriesInput

/-- What a creation batch answers for one of its entries. -/
structure Created where
  mark : CreateMark
  id : SeriesId
  /-- False if the series was there already. -/
  isNew : Bool
deriving DecidableEq, Repr, Inhabited

/-- The marked entries of a creation batch, in the order in which they are worked off. -/
abbrev CreateBatch := List (CreateMark × SeriesInput)

/-! ## Lemmas -/

theorem SeriesMetadata.isExpired_iff (m : SeriesMetadata) (now : UInt64) :
    m.isExpired now = true ↔ ∃ last, m.expireAt = some last ∧ last < now := by
  unfold isExpired
  cases h : m.expireAt <;> simp

theorem SeriesMetadata.isExpired_mono (m : SeriesMetadata) {now later : UInt64} (h : now ≤ later)
    (gone : m.isExpired now = true) : m.isExpired later = true := by
  rw [isExpired_iff] at gone ⊢
  obtain ⟨last, hl, hn⟩ := gone
  exact ⟨last, hl, UInt64.lt_of_lt_of_le hn h⟩

end SeriesStorage
