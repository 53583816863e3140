/-!
# Tables

A table maps keys to values and keeps the order in which its keys were first inserted.  Everything
about a table is said through `get?`: what `insert` and `erase` do to it is `get?_insert` and
`get?_erase`.
-/

namespace SeriesStorage

/-- A finite map from keys to values, in the order of insertion. -/
structure Table (κ α : Type) where
  entries : List (κ × α)
deriving Repr, DecidableEq

namespace Table

variable {κ α : Type}

/-! ## Operations -/

def empty : Table κ α := ⟨[]⟩

instance : Inhabited (Table κ α) := ⟨empty⟩

def size (t : Table κ α) : Nat := t.entries.length

def keys (t : Table κ α) : List κ := t.entries.map (·.1)

variable [DecidableEq κ]

/-- The value at a key in a list of entries. -/
def lookup (k : κ) : List (κ × α) → Option α
  | [] => none
  | (k', a) :: rest => if k' = k then some a else lookup k rest

/-- The value at a key. -/
def get? (t : Table κ α) (k : κ) : Option α := lookup k t.entries

def contains (t : Table κ α) (k : κ) : Bool := (t.get? k).isSome

/-- Puts a value at the place of its key in a list of entries, at the end if the key is new. -/
def put (k : κ) (a : α) : List (κ × α) → List (κ × α)
  | [] => [(k, a)]
  | (k', a') :: rest => if k' = k then (k, a) :: rest else (k', a') :: put k a rest

/-- Puts a value at a key. -/
def insert (t : Table κ α) (k : κ) (a : α) : Table κ α := ⟨put k a t.entries⟩

/-- Removes a key. -/
def erase (t : Table κ α) (k : κ) : Table κ α := ⟨t.entries.filter fun entry => entry.1 ≠ k⟩

/-! ## Lemmas -/

theorem lookup_put (k k' : κ) (a : α) (entries : List (κ × α)) :
    lookup k' (put k a entries) = if k = k' then some a else lookup k' entries := by
  induction entries with
  | nil => simp [put, lookup]
  | cons entry rest ih =>
    obtain ⟨key, value⟩ := entry
    by_cases hk : key = k
    · subst hk
      by_cases h : key = k' <;> simp [put, lookup, h]
    · by_cases h : key = k'
      · subst h
        simp [put, lookup, hk, Ne.symm hk]
      · simp [put, lookup, hk, h, ih]

theorem lookup_filter_ne (k k' : κ) (entries : List (κ × α)) :
    lookup k' (entries.filter fun entry => decide (entry.1 ≠ k)) =
      if k = k' then none else lookup k' entries := by
  induction entries with
  | nil => simp [lookup]
  | cons entry rest ih =>
    obtain ⟨key, value⟩ := entry
    by_cases hk : key = k
    · subst hk
      by_cases h : key = k' <;> simp_all [lookup]
    · by_cases h : key = k'
      · subst h
        simp [lookup, hk, Ne.symm hk]
      · simp_all [lookup]

@[simp] theorem get?_empty (k : κ) : (empty : Table κ α).get? k = none := rfl

@[simp, grind =] theorem get?_insert (t : Table κ α) (k k' : κ) (a : α) :
    (t.insert k a).get? k' = if k = k' then some a else t.get? k' := lookup_put k k' a t.entries

@[simp, grind =] theorem get?_erase (t : Table κ α) (k k' : κ) :
    (t.erase k).get? k' = if k = k' then none else t.get? k' := lookup_filter_ne k k' t.entries

theorem mem_of_get? {t : Table κ α} {k : κ} {a : α} (h : t.get? k = some a) :
    (k, a) ∈ t.entries := by
  obtain ⟨entries⟩ := t
  change lookup k entries = some a at h
  show (k, a) ∈ entries
  induction entries with
  | nil => cases h
  | cons entry rest ih =>
    obtain ⟨key, value⟩ := entry
    rw [lookup] at h
    split at h
    · next same =>
      obtain rfl := Option.some.inj h
      rw [same]
      exact List.mem_cons_self
    · exact List.mem_cons_of_mem _ (ih h)

theorem mem_insert {t : Table κ α} {k : κ} {a : α} {entry : κ × α}
    (h : entry ∈ (t.insert k a).entries) : entry = (k, a) ∨ entry ∈ t.entries := by
  obtain ⟨entries⟩ := t
  change entry ∈ put k a entries at h
  show entry = (k, a) ∨ entry ∈ entries
  induction entries with
  | nil => exact Or.inl (List.mem_singleton.mp h)
  | cons first rest ih =>
    rw [put] at h
    split at h
    · rcases List.mem_cons.mp h with rfl | inside
      · exact Or.inl rfl
      · exact Or.inr (List.mem_cons_of_mem _ inside)
    · rcases List.mem_cons.mp h with rfl | inside
      · exact Or.inr List.mem_cons_self
      · exact (ih inside).imp_right (List.mem_cons_of_mem _)

theorem contains_iff (t : Table κ α) (k : κ) : t.contains k = true ↔ ∃ a, t.get? k = some a := by
  simp [contains, Option.isSome_iff_exists]

end Table

end SeriesStorage
