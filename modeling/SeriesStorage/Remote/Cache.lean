import SeriesStorage.Series.Basic

/-!
# The descriptor cache

Descriptors that were loaded, the one used last in front.  Beyond its capacity the cache forgets
what was not used for longest; a cache of capacity 0 is off.  A descriptor's life in the cache is
never over here: of the life time only 0 matters, which turns the cache off, and no clock makes an
entry lapse.
-/

namespace SeriesStorage

namespace Remote

/-- Descriptors by series, the one used last in front. -/
structure Cache where
  capacity : Nat
  entries : List (SeriesRef × SeriesMetadata)
deriving DecidableEq, Repr, Inhabited

namespace Cache

/-- How many descriptors a cache keeps. -/
def fullCapacity : Nat := 10000

/-- An empty cache; descriptors that live for no time are not kept at all. -/
def empty (lifeMs : UInt64) : Cache := ⟨if lifeMs = 0 then 0 else fullCapacity, []⟩

/-- The descriptor of a series, if it is kept. -/
def get? (cache : Cache) (ref : SeriesRef) : Option SeriesMetadata :=
  (cache.entries.find? fun entry => entry.1 = ref).map (·.2)

/-- Forgets series. -/
def invalidate (cache : Cache) (refs : List SeriesRef) : Cache :=
  { cache with entries := cache.entries.filter fun entry => !refs.contains entry.1 }

/-- Puts a descriptor in front. -/
def insert (cache : Cache) (ref : SeriesRef) (m : SeriesMetadata) : Cache :=
  { cache with entries := ((ref, m) :: (cache.invalidate [ref]).entries).take cache.capacity }

def clear (cache : Cache) : Cache := { cache with entries := [] }

/-! ## Lemmas -/

@[simp] theorem get?_clear (cache : Cache) (ref : SeriesRef) : cache.clear.get? ref = none := rfl

@[simp] theorem get?_empty (lifeMs : UInt64) (ref : SeriesRef) : (empty lifeMs).get? ref = none :=
  rfl

/-- What is left is what was kept before of other series. -/
theorem get?_invalidate (cache : Cache) (refs : List SeriesRef) (ref : SeriesRef) :
    (cache.invalidate refs).get? ref = if ref ∈ refs then none else cache.get? ref := by
  unfold get? invalidate
  rw [List.find?_filter]
  split
  · next gone =>
    rw [List.find?_eq_none.mpr]
    · rfl
    · intro entry _ left
      simp only [Bool.not_eq_true', List.contains_eq_mem, decide_eq_true_eq,
        decide_eq_false_iff_not] at left
      exact left.1 (left.2 ▸ gone)
  · next kept =>
    congr 2
    funext entry
    by_cases same : entry.1 = ref <;> simp [same, kept]

/-- What is left was kept before, and is not of the series that were forgotten. -/
theorem get?_of_invalidate {cache : Cache} {refs : List SeriesRef} {ref : SeriesRef}
    {m : SeriesMetadata} (h : (cache.invalidate refs).get? ref = some m) :
    ref ∉ refs ∧ cache.get? ref = some m := by
  rw [get?_invalidate] at h
  split at h
  · cases h
  · next kept => exact ⟨kept, h⟩

/-- What is kept after something was put in front is that, or was kept before. -/
theorem get?_of_insert {cache : Cache} {ref ref' : SeriesRef} {m m' : SeriesMetadata}
    (h : (cache.insert ref m).get? ref' = some m') :
    (ref' = ref ∧ m' = m) ∨ cache.get? ref' = some m' := by
  unfold get? insert at h
  rw [Option.map_eq_some_iff] at h
  obtain ⟨entry, found, rfl⟩ := h
  have found := (List.take_prefix cache.capacity _).find?_eq_some found
  rw [List.find?_cons] at found
  split at found
  · next same =>
    obtain rfl := Option.some.inj found
    exact Or.inl ⟨(of_decide_eq_true same).symm, rfl⟩
  · have left : (cache.invalidate [ref]).get? ref' = some entry.2 :=
      Option.map_eq_some_iff.mpr ⟨entry, found, rfl⟩
    exact Or.inr (get?_of_invalidate left).2

end Cache

end Remote

end SeriesStorage
