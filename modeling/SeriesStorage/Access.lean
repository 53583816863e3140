import SeriesStorage.Series.Basic

/-!
# Access to a series

Before a read or a write a backend looks for the series: it may be live, unknown (also if it belongs
to another namespace), or found expired, in which case it has to be deleted before the call fails.
-/

namespace SeriesStorage

/-- What a backend finds when a series is accessed. -/
inductive Access
  | live (m : SeriesMetadata)
  | unknown
  | expired (m : SeriesMetadata)
deriving DecidableEq, Repr

/-- What a found descriptor means for an access under a namespace at a second. -/
def Access.ofMetadata (found : Option SeriesMetadata) (ns : Namespace) (now : UInt64) : Access :=
  match found with
  | none => .unknown
  | some m => if m.ns ≠ ns then .unknown else if m.isExpired now then .expired m else .live m

/-! ## Lemmas -/

theorem Access.ofMetadata_eq_live_iff {found : Option SeriesMetadata} {ns : Namespace}
    {now : UInt64} {m : SeriesMetadata} :
    ofMetadata found ns now = .live m ↔ found = some m ∧ m.ns = ns ∧ m.isExpired now = false := by
  unfold ofMetadata
  split
  next => simp
  next m' => grind

end SeriesStorage
