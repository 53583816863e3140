import SeriesStorage.Point.Bucket

/-!
# Buckets of a window

The buckets of a window are all different (`bucketsIn_nodup`), and every timestamp of the window has
its bucket among them (`bucketOf_mem`).  So what is gathered bucket by bucket is what lies in any of
the buckets, each thing once (`perm_flatMap_filter`).
-/

namespace SeriesStorage

theorem bucketOf_eq (time : UInt64) : (bucketOf time).toNat = time.toNat / 86400000 * 86400000 := by
  have := bucketOf_toNat time
  omega

theorem max_of_le {first last : UInt64} (order : first ≤ last) : max last first = last := by
  show (if last ≤ first then first else last) = last
  split
  · next back => exact UInt64.le_antisymm order back
  · rfl

/-- How many buckets a window meets, as days. -/
theorem bucketCount_toNat {first last : UInt64} (h : first ≤ last) :
    (bucketCount first last).toNat = last.toNat / 86400000 - first.toNat / 86400000 + 1 := by
  have days : first.toNat / 86400000 ≤ last.toNat / 86400000 := Nat.div_le_div_right h
  have small := last.toNat_lt
  have order : bucketOf first ≤ bucketOf last := by
    rw [UInt64.le_iff_toNat_le, bucketOf_eq, bucketOf_eq]
    omega
  have size : bucketSize.toNat = 86400000 := rfl
  rw [bucketCount, max_of_le h, UInt64.toNat_add, UInt64.toNat_div, UInt64.toNat_sub_of_le _ _ order,
    bucketOf_eq, bucketOf_eq, size]
  show (_ + 1) % 0x10000000000000000 = _
  omega

/-- The buckets of a window begin on consecutive days. -/
theorem bucketRun_toNat {first last : UInt64} (h : first ≤ last) {i : Nat}
    (hi : i < (bucketCount first last).toNat) :
    (bucketOf first + UInt64.ofNat i * bucketSize).toNat =
      (first.toNat / 86400000 + i) * 86400000 := by
  rw [bucketCount_toNat h] at hi
  have small := last.toNat_lt
  have days : first.toNat / 86400000 ≤ last.toNat / 86400000 := Nat.div_le_div_right h
  have size : bucketSize.toNat = 86400000 := rfl
  rw [UInt64.toNat_add, UInt64.toNat_mul, bucketOf_eq, size, UInt64.toNat_ofNat_of_lt' (by
    rw [UInt64.size]
    omega)]
  omega

theorem bucketsIn_nodup {first last : UInt64} (h : first ≤ last) :
    (bucketsIn first last).Nodup := by
  unfold bucketsIn bucketRun
  rw [List.nodup_iff_pairwise_ne, List.pairwise_map]
  refine List.Pairwise.imp_of_mem (R := (· < ·)) (fun {i j} hi hj less same => ?_)
    List.pairwise_lt_range
  have values := congrArg UInt64.toNat same
  rw [bucketRun_toNat h (List.mem_range.mp hi), bucketRun_toNat h (List.mem_range.mp hj)] at values
  omega

/-- The bucket of a timestamp of the window is one of its buckets. -/
theorem bucketOf_mem {first last time : UInt64} (low : first ≤ time) (high : time ≤ last) :
    bucketOf time ∈ bucketsIn first last := by
  have h := UInt64.le_trans low high
  have from_first : first.toNat / 86400000 ≤ time.toNat / 86400000 := Nat.div_le_div_right low
  have to_last : time.toNat / 86400000 ≤ last.toNat / 86400000 := Nat.div_le_div_right high
  have inside :
      time.toNat / 86400000 - first.toNat / 86400000 < (bucketCount first last).toNat := by
    rw [bucketCount_toNat h]
    omega
  refine List.mem_map.mpr ⟨_, List.mem_range.mpr inside, ?_⟩
  apply UInt64.toNat_inj.mp
  rw [bucketRun_toNat h inside, bucketOf_eq]
  omega

/-- What is gathered for different keys is what has any of the keys. -/
theorem perm_flatMap_filter {α β : Type} [DecidableEq β] (key : α → β) (as : List α)
    {keys : List β} (nodup : keys.Nodup) :
    (keys.flatMap fun k => as.filter fun a => key a = k).Perm
      (as.filter fun a => key a ∈ keys) := by
  induction keys with
  | nil => simp
  | cons k rest ih =>
    obtain ⟨fresh, nodup⟩ := List.nodup_cons.mp nodup
    rw [List.flatMap_cons]
    refine ((ih nodup).append_left _).trans ?_
    clear ih
    induction as with
    | nil => simp
    | cons a as ih =>
      by_cases here : key a = k
      · have elsewhere : key a ∉ rest := here ▸ fresh
        simpa [here, fresh] using ih
      · by_cases there : key a ∈ rest
        · simpa [here, there] using List.perm_middle.trans (ih.cons a)
        · simpa [here, there] using ih

end SeriesStorage
