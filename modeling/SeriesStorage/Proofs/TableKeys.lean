import SeriesStorage.Table

/-!
# Keys of tables

A table whose keys are different from each other keeps them so (`nodup_keys_insert`,
`nodup_keys_erase`), and then its entries are what `get?` says (`get?_of_mem`).  Removing a key undoes
what was put there (`erase_insert_self`) and does not mind what is put elsewhere
(`erase_insert_of_ne`).
-/

namespace SeriesStorage

namespace Table

variable {κ α : Type} [DecidableEq κ]

theorem mem_keys_iff {t : Table κ α} {k : κ} : k ∈ t.keys ↔ ∃ a, t.get? k = some a := by
  obtain ⟨entries⟩ := t
  show k ∈ entries.map (·.1) ↔ ∃ a, lookup k entries = some a
  induction entries with
  | nil => simp [lookup]
  | cons entry rest ih =>
    obtain ⟨key, value⟩ := entry
    rw [List.map_cons, List.mem_cons, ih, lookup]
    by_cases same : key = k
    · simp [same]
    · simp [same, Ne.symm same]

/-- A key that is new comes behind the others. -/
theorem keys_insert (t : Table κ α) (k : κ) (a : α) :
    (t.insert k a).keys = if k ∈ t.keys then t.keys else t.keys ++ [k] := by
  obtain ⟨entries⟩ := t
  show (put k a entries).map (·.1) =
    if k ∈ entries.map (·.1) then entries.map (·.1) else entries.map (·.1) ++ [k]
  induction entries with
  | nil => rfl
  | cons entry rest ih =>
    obtain ⟨key, value⟩ := entry
    rw [put, List.map_cons]
    by_cases same : key = k
    · simp [same]
    · have elsewhere : k ∈ key :: rest.map (·.1) ↔ k ∈ rest.map (·.1) := by
        simp [Ne.symm same]
      rw [if_neg same, List.map_cons, ih]
      simp only [elsewhere]
      split <;> rfl

theorem nodup_keys_insert {t : Table κ α} (nodup : t.keys.Nodup) (k : κ) (a : α) :
    (t.insert k a).keys.Nodup := by
  obtain ⟨entries⟩ := t
  change (entries.map (·.1)).Nodup at nodup
  show ((put k a entries).map (·.1)).Nodup
  induction entries with
  | nil => simp [put]
  | cons entry rest ih =>
    obtain ⟨key, value⟩ := entry
    rw [List.map_cons, List.nodup_cons] at nodup
    rw [put]
    split
    · next same => rwa [List.map_cons, List.nodup_cons, ← same]
    · next other =>
      rw [List.map_cons, List.nodup_cons]
      refine ⟨fun inside => ?_, ih nodup.2⟩
      obtain ⟨e, he, hkey⟩ := List.mem_map.mp inside
      rcases mem_insert (t := ⟨rest⟩) he with rfl | old
      · exact other hkey.symm
      · exact nodup.1 (List.mem_map.mpr ⟨e, old, hkey⟩)

theorem nodup_keys_erase {t : Table κ α} (nodup : t.keys.Nodup) (k : κ) :
    (t.erase k).keys.Nodup :=
  nodup.sublist (List.filter_sublist.map _)

theorem get?_of_mem {t : Table κ α} (nodup : t.keys.Nodup) {k : κ} {a : α}
    (h : (k, a) ∈ t.entries) : t.get? k = some a := by
  obtain ⟨entries⟩ := t
  change (entries.map (·.1)).Nodup at nodup
  show lookup k entries = some a
  induction entries with
  | nil => cases h
  | cons entry rest ih =>
    obtain ⟨key, value⟩ := entry
    rw [List.map_cons, List.nodup_cons] at nodup
    rcases List.mem_cons.mp h with first | inside
    · obtain ⟨rfl, rfl⟩ := Prod.mk.inj first
      rw [lookup, if_pos rfl]
    · rw [lookup, if_neg, ih inside nodup.2]
      rintro rfl
      exact nodup.1 (List.mem_map.mpr ⟨_, inside, rfl⟩)

theorem insert_ne_nil (t : Table κ α) (k : κ) (a : α) : (t.insert k a).entries ≠ [] := by
  obtain ⟨entries⟩ := t
  show put k a entries ≠ []
  cases entries with
  | nil => exact List.cons_ne_nil _ _
  | cons entry rest =>
    rw [put]
    split <;> exact List.cons_ne_nil _ _

/-! ## Removing a key -/

/-- What is put at a key goes when the key is removed. -/
theorem erase_insert_self (t : Table κ α) (k : κ) (a : α) : (t.insert k a).erase k = t.erase k := by
  obtain ⟨entries⟩ := t
  refine congrArg Table.mk ?_
  show (put k a entries).filter _ = entries.filter _
  induction entries with
  | nil => simp [put]
  | cons entry rest ih =>
    obtain ⟨key, value⟩ := entry
    by_cases same : key = k
    · simp [put, same]
    · simpa [put, same] using ih

/-- A key is removed and a value put at another one, in any order. -/
theorem erase_insert_of_ne (t : Table κ α) {k k' : κ} (apart : k ≠ k') (a : α) :
    (t.insert k a).erase k' = (t.erase k').insert k a := by
  obtain ⟨entries⟩ := t
  refine congrArg Table.mk ?_
  show (put k a entries).filter _ = put k a (entries.filter _)
  induction entries with
  | nil => simp [put, apart]
  | cons entry rest ih =>
    obtain ⟨key, value⟩ := entry
    by_cases same : key = k
    · subst same
      simp [put, apart]
    · by_cases gone : key = k'
      · subst gone
        simpa [put, same] using ih
      · simpa [put, same, gone] using ih

/-- What has no value at a key stays as it is when the key is removed. -/
theorem erase_of_forall_ne {t : Table κ α} {k : κ} (h : ∀ entry ∈ t.entries, entry.1 ≠ k) :
    t.erase k = t := by
  obtain ⟨entries⟩ := t
  exact congrArg Table.mk (List.filter_eq_self.mpr fun entry inside => decide_eq_true (h entry inside))

/-- Nothing is left when the only key is removed. -/
theorem erase_of_forall_eq {t : Table κ α} {k : κ} (h : ∀ entry ∈ t.entries, entry.1 = k) :
    t.erase k = .empty := by
  obtain ⟨entries⟩ := t
  refine congrArg Table.mk (List.filter_eq_nil_iff.mpr fun entry inside => ?_)
  simp [h entry inside]

end Table

end SeriesStorage
