import SeriesStorage.Error

/-!
# Day buckets

Timestamps are milliseconds.  A bucket is named by the timestamp at which its day begins.

* `bucketsIn first last`: the buckets that the closed window meets, in ascending order; for a window
  that ends before it begins, the bucket of its beginning.
* `readBuckets`: the same, unless there are more than a read may visit.
-/

namespace SeriesStorage

/-- The milliseconds of a day. -/
def bucketSize : UInt64 := 86400000

/-- How many buckets a read may visit. -/
def maxReadBuckets : Nat := 3660

/-- The bucket of a timestamp. -/
def bucketOf (time : UInt64) : UInt64 := time - time % bucketSize

/-- How many buckets the closed window meets. -/
def bucketCount (first last : UInt64) : UInt64 :=
  (bucketOf (max last first) - bucketOf first) / bucketSize + 1

/-- The first `n` buckets from that of `first` on. -/
def bucketRun (first : UInt64) (n : Nat) : List UInt64 :=
  (List.range n).map fun i => bucketOf first + UInt64.ofNat i * bucketSize

/-- The buckets that the closed window meets, in ascending order. -/
def bucketsIn (first last : UInt64) : List UInt64 := bucketRun first (bucketCount first last).toNat

/-- The first `n` of the buckets that the closed window meets. -/
def firstBucketsIn (first last : UInt64) (n : Nat) : List UInt64 :=
  bucketRun first (min n (bucketCount first last).toNat)

/-- The buckets that a read of the closed window visits, unless they are too many. -/
def readBuckets (first last : UInt64) : Except Error (List UInt64) :=
  let count := (bucketCount first last).toNat
  if maxReadBuckets < count then
    .error (.invalidQuery (.span first last count maxReadBuckets))
  else .ok (bucketsIn first last)

/-- The second at which a bucket ends; the last bucket ends with the last timestamp. -/
def bucketEndSeconds (bucket : UInt64) : UInt64 :=
  UInt64.ofNat (min (bucket.toNat + bucketSize.toNat) 0xffffffffffffffff) / 1000

/-! ## Lemmas -/

theorem bucketOf_toNat (time : UInt64) :
    (bucketOf time).toNat = time.toNat - time.toNat % 86400000 := by
  have h : time % bucketSize ≤ time := by
    rw [UInt64.le_iff_toNat_le, UInt64.toNat_mod]
    exact Nat.mod_le _ _
  rw [bucketOf, UInt64.toNat_sub_of_le _ _ h, UInt64.toNat_mod]
  rfl

theorem firstBucketsIn_eq_take (first last : UInt64) (n : Nat) :
    firstBucketsIn first last n = (bucketsIn first last).take n := by
  simp [firstBucketsIn, bucketsIn, bucketRun, ← List.map_take, List.take_range]

theorem length_bucketsIn (first last : UInt64) :
    (bucketsIn first last).length = (bucketCount first last).toNat := by
  simp [bucketsIn, bucketRun]

end SeriesStorage
