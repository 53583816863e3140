import SeriesStorage.Proofs.Point.Buckets

/-!
# The buckets of a window, exactly

Going from a bucket to the next while the last one is not passed is a relation, `Steps`; that a step
is taken only when its sum is at most the last bucket is what keeps it from overflowing.  The
buckets of a window are what the steps from its first bucket to its last give (`steps_bucketsIn`).

From the steps alone follow their order (`Steps.ascending`) and their members (`Steps.mem_iff`): a
window that does not end before it begins is covered by its buckets (`covers_bucketsIn`), also in the
last, incomplete bucket of all.  `readBuckets_exact` adds the count of the buckets and what a read
makes of it.
-/

namespace SeriesStorage

/-- Going from bucket to bucket up to `last` gives these buckets. -/
inductive Steps (last : UInt64) : UInt64 → List UInt64 → Prop
  /-- The next bucket would begin past the last. -/
  | stop {bucket : UInt64} : last.toNat < bucket.toNat + bucketSize.toNat → Steps last bucket [bucket]
  /-- The next bucket begins by the last. -/
  | next {bucket : UInt64} {rest : List UInt64} :
      bucket.toNat + bucketSize.toNat ≤ last.toNat → Steps last (bucket + bucketSize) rest →
      Steps last bucket (bucket :: rest)

/-- These are the buckets of the timestamps of a window, in ascending order. -/
structure Covers (first last : UInt64) (buckets : List UInt64) : Prop where
  ascending : buckets.Pairwise (· < ·)
  aligned : ∀ bucket ∈ buckets, 86400000 ∣ bucket.toNat
  mem_iff : ∀ bucket, bucket ∈ buckets ↔ ∃ time, first ≤ time ∧ time ≤ last ∧ bucketOf time = bucket

/-! ## Steps -/

/-- A step that does not pass the last bucket does not overflow. -/
theorem toNat_step {bucket last : UInt64} (near : bucket.toNat + bucketSize.toNat ≤ last.toNat) :
    (bucket + bucketSize).toNat = bucket.toNat + bucketSize.toNat := by
  have small := last.toNat_lt
  rw [UInt64.toNat_add]
  exact Nat.mod_eq_of_lt (Nat.lt_of_le_of_lt near small)

namespace Steps

variable {last bucket : UInt64} {buckets : List UInt64}

/-- No bucket comes before the first. -/
theorem first_le (steps : Steps last bucket buckets) : ∀ b ∈ buckets, bucket ≤ b := by
  induction steps with
  | stop => simp
  | next near _ ih =>
    refine List.forall_mem_cons.mpr ⟨UInt64.le_refl _, fun b there => ?_⟩
    have := UInt64.le_iff_toNat_le.mp (ih b there)
    rw [toNat_step near] at this
    exact UInt64.le_iff_toNat_le.mpr (by omega)

theorem ascending (steps : Steps last bucket buckets) : buckets.Pairwise (· < ·) := by
  induction steps with
  | stop => simp
  | next near rest ih =>
    refine List.pairwise_cons.mpr ⟨fun b there => ?_, ih⟩
    have above := UInt64.le_iff_toNat_le.mp (rest.first_le b there)
    have size : bucketSize.toNat = 86400000 := rfl
    rw [toNat_step near] at above
    exact UInt64.lt_iff_toNat_lt.mpr (by omega)

/-- The steps meet what lies up to the last bucket and a whole number of days from the first. -/
theorem mem_iff (steps : Steps last bucket buckets) (order : bucket ≤ last) (b : UInt64) :
    b ∈ buckets ↔ bucket ≤ b ∧ b ≤ last ∧ 86400000 ∣ b.toNat - bucket.toNat := by
  have size : bucketSize.toNat = 86400000 := rfl
  induction steps with
  | stop far =>
    rw [size] at far
    rw [List.mem_singleton, ← UInt64.toNat_inj]
    rw [UInt64.le_iff_toNat_le] at order
    simp only [UInt64.le_iff_toNat_le]
    omega
  | @next bucket _ near _ ih =>
    have step := toNat_step near
    rw [size] at near step
    have inside : bucket + bucketSize ≤ last := by
      rw [UInt64.le_iff_toNat_le, step]
      exact near
    refine List.mem_cons.trans ((or_congr_right (ih inside)).trans ?_)
    rw [UInt64.le_iff_toNat_le] at order
    simp only [← UInt64.toNat_inj, UInt64.le_iff_toNat_le, step]
    omega

end Steps

/-- A run of buckets that ends with the last is what the steps give. -/
theorem steps_run {last : UInt64} (n : Nat) : ∀ bucket : UInt64,
    bucket.toNat + n * 86400000 ≤ last.toNat → last.toNat < bucket.toNat + (n + 1) * 86400000 →
    Steps last bucket ((List.range (n + 1)).map fun i => bucket + UInt64.ofNat i * bucketSize) := by
  have size : bucketSize.toNat = 86400000 := rfl
  have alone (bucket : UInt64) : bucket + UInt64.ofNat 0 * bucketSize = bucket := by
    rw [show UInt64.ofNat 0 = 0 from rfl, UInt64.zero_mul, UInt64.add_zero]
  induction n with
  | zero =>
    intro bucket _ far
    rw [show List.range (0 + 1) = [0] from rfl, List.map_cons, List.map_nil, alone]
    exact .stop (by omega)
  | succ n ih =>
    intro bucket inside far
    have near : bucket.toNat + bucketSize.toNat ≤ last.toNat := by
      rw [size]
      omega
    have step := toNat_step near
    rw [size] at step
    have rest := ih (bucket + bucketSize) (by omega) (by omega)
    have shifted (i : Nat) : bucket + UInt64.ofNat (i + 1) * bucketSize =
        bucket + bucketSize + UInt64.ofNat i * bucketSize := by
      rw [UInt64.ofNat_add, UInt64.add_mul, show UInt64.ofNat 1 = 1 from rfl, UInt64.one_mul,
        UInt64.add_comm _ bucketSize, UInt64.add_assoc]
    have run : (List.range (n + 1 + 1)).map (fun i => bucket + UInt64.ofNat i * bucketSize) =
        bucket :: (List.range (n + 1)).map fun i =>
          bucket + bucketSize + UInt64.ofNat i * bucketSize := by
      rw [List.range_succ_eq_map, List.map_cons, List.map_map, alone]
      exact congrArg _ (List.map_congr_left fun i _ => shifted i)
    exact run ▸ .next near rest

/-! ## The buckets of a window -/

theorem bucketOf_eq_iff {time bucket : UInt64} :
    bucketOf time = bucket ↔ 86400000 ∣ bucket.toNat ∧ bucket.toNat ≤ time.toNat ∧
      time.toNat < bucket.toNat + 86400000 := by
  rw [← UInt64.toNat_inj, bucketOf_eq]
  omega

theorem max_of_lt {first last : UInt64} (back : last < first) : max last first = first :=
  if_pos (UInt64.le_of_lt back)

theorem le_max_first (first last : UInt64) : first ≤ max last first := by
  rcases UInt64.le_or_lt first last with order | back
  · rwa [max_of_le order]
  · rw [max_of_lt back]
    exact UInt64.le_refl _

/-- A window that ends before it begins has the buckets of its beginning. -/
theorem bucketCount_max (first last : UInt64) :
    bucketCount first last = bucketCount first (max last first) := by
  rw [bucketCount, bucketCount, max_of_le (le_max_first first last)]

/-- **The buckets of a window are what the steps from its first bucket to its last give.** -/
theorem steps_bucketsIn (first last : UInt64) :
    Steps (bucketOf (max last first)) (bucketOf first) (bucketsIn first last) := by
  have order := le_max_first first last
  have count := bucketCount_toNat order
  rw [← bucketCount_max] at count
  rw [UInt64.le_iff_toNat_le] at order
  rw [bucketsIn, bucketRun, count]
  refine steps_run _ _ ?_ ?_ <;> rw [bucketOf_eq, bucketOf_eq] <;> omega

theorem covers_bucketsIn {first last : UInt64} (order : first ≤ last) :
    Covers first last (bucketsIn first last) := by
  have steps := steps_bucketsIn first last
  rw [max_of_le order] at steps
  rw [UInt64.le_iff_toNat_le] at order
  have ordered : bucketOf first ≤ bucketOf last := by
    rw [UInt64.le_iff_toNat_le, bucketOf_eq, bucketOf_eq]
    omega
  have members := steps.mem_iff ordered
  simp only [UInt64.le_iff_toNat_le, bucketOf_eq] at members
  refine ⟨steps.ascending, fun bucket there => ?_, fun bucket => (members bucket).trans ?_⟩
  · have := (members bucket).mp there
    omega
  · constructor
    · rintro ⟨low, high, whole⟩
      -- the later of the window's beginning and the bucket's is a timestamp of both
      rcases Nat.le_total first.toNat bucket.toNat with inside | before
      · have early : bucket.toNat ≤ last.toNat := by omega
        exact ⟨bucket, inside, early, bucketOf_eq_iff.mpr (by omega)⟩
      · exact ⟨first, Nat.le_refl _, order, bucketOf_eq_iff.mpr (by omega)⟩
    · rintro ⟨time, low, high, rfl⟩
      rw [UInt64.le_iff_toNat_le] at low high
      rw [bucketOf_eq]
      omega

/-! ## What a read visits -/

/-- No subtraction, quotient or sum that counts the buckets leaves the machine's words. -/
theorem bucketCount_exact (first last : UInt64) :
    (bucketCount first last).toNat =
      ((bucketOf (max last first)).toNat - (bucketOf first).toNat) / 86400000 + 1 := by
  have order := le_max_first first last
  rw [bucketCount_max, bucketCount_toNat order, bucketOf_eq, bucketOf_eq]
  rw [UInt64.le_iff_toNat_le] at order
  omega

/-- A window that ends before it begins has one bucket. -/
theorem bucketsIn_of_lt {first last : UInt64} (back : last < first) :
    bucketsIn first last = [bucketOf first] := by
  have steps := steps_bucketsIn first last
  rw [max_of_lt back] at steps
  generalize bucketsIn first last = buckets at steps ⊢
  cases steps with
  | stop => rfl
  | next near _ =>
    have size : bucketSize.toNat = 86400000 := rfl
    omega

theorem readBuckets_eq (first last : UInt64) :
    readBuckets first last =
      if 3660 < (bucketsIn first last).length then
        .error (.invalidQuery (.span first last (bucketsIn first last).length 3660))
      else .ok (bucketsIn first last) := by
  rw [length_bucketsIn]
  rfl

/-- **The buckets of a window are exactly those of its timestamps, in ascending order, whatever the
window, without a step, a sum or a difference that overflows; there are as many as are counted, and
a read visits them all unless there are more than it may, which it refuses.** -/
theorem readBuckets_exact (first last : UInt64) :
    (first ≤ last → Covers first last (bucketsIn first last)) ∧
    (last < first → bucketsIn first last = [bucketOf first]) ∧
    (∀ time : UInt64, (bucketOf time).toNat = time.toNat - time.toNat % 86400000) ∧
    Steps (bucketOf (max last first)) (bucketOf first) (bucketsIn first last) ∧
    (bucketsIn first last).length = (bucketCount first last).toNat ∧
    (bucketCount first last).toNat =
      ((bucketOf (max last first)).toNat - (bucketOf first).toNat) / 86400000 + 1 ∧
    (readBuckets first last = .ok (bucketsIn first last) ↔ (bucketsIn first last).length ≤ 3660) ∧
    (3660 < (bucketsIn first last).length → readBuckets first last =
      .error (.invalidQuery (.span first last (bucketsIn first last).length 3660))) := by
  refine ⟨covers_bucketsIn, bucketsIn_of_lt, bucketOf_toNat, steps_bucketsIn first last,
    length_bucketsIn first last, bucketCount_exact first last, ?_, fun wide => ?_⟩
  · rw [readBuckets_eq]
    split
    · next wide => exact ⟨nofun, fun narrow => absurd wide (Nat.not_lt.mpr narrow)⟩
    · next narrow => exact ⟨fun _ => Nat.not_lt.mp narrow, fun _ => rfl⟩
  · rw [readBuckets_eq, if_pos wide]

/-- The window that ends with the last timestamp of all, in a bucket that is cut short, has the
buckets of its timestamps. -/
theorem readBuckets_exact_last :
    Covers 18446744073657599999 18446744073709551615 [18446744073571200000, 18446744073657600000] ∧
    readBuckets 18446744073657599999 18446744073709551615 =
      .ok [18446744073571200000, 18446744073657600000] := by
  have here : bucketsIn 18446744073657599999 18446744073709551615 =
      [18446744073571200000, 18446744073657600000] := by decide
  obtain ⟨covers, -, -, -, -, -, read, -⟩ :=
    readBuckets_exact 18446744073657599999 18446744073709551615
  rw [here] at covers read
  exact ⟨covers (by decide), read.mpr (by decide)⟩

end SeriesStorage
