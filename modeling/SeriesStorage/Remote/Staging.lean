import SeriesStorage.Point.Member
import SeriesStorage.Remote.Keys
import SeriesStorage.Remote.Pending

/-!
# Staging points

`stagePoints` turns a batch of points into commands: per bucket, in ascending order, one that adds
the points of the bucket in the order of the batch, and for a series that expires one that sets the
end of the bucket's key.

Within a batch no two points of a bucket may have the same member, since they would be one entry of
the set.  `uniquePoint` looks for a free member: it tries a few drawn paddings, and then all keys
from the timestamp up to but not including the timestamp plus 0.1.
-/

namespace SeriesStorage

namespace Remote

/-- How many drawn paddings are tried. -/
def paddingAttempts : Nat := 8

/-- The buckets and members that a batch has taken so far. -/
abbrev Taken := List (UInt64 × String)

/-- Whether the place of a point is free. -/
def isFree (taken : Taken) (p : StoredPoint) : Bool := !taken.contains (p.bucket, p.member)

/-- The first free one of the next `n` scores from `score` on. -/
def firstFree (taken : Taken) (time : UInt64) (value : Binary64) :
    Nat → Binary64 → Option StoredPoint
  | 0, _ => none
  | n + 1, score =>
    let p := encodeScored time score value
    if isFree taken p then some p else firstFree taken time value n score.next

/-- How many scores there are from a timestamp up to but not including the timestamp plus 0.1.  None
of these numbers is negative or infinite, so they are counted by their codes. -/
def scoreCount (time : UInt64) : Nat :=
  (paddedKey time maxPadding).code - (Binary64.ofUInt64 time).code

/-- A stored form of a point at a free place. -/
def uniquePoint (taken : Taken) (draw : Nat → Padding) (time : UInt64) (value : Binary64) :
    Except Error StoredPoint :=
  let drawn := (List.range paddingAttempts).map fun k => encode time value (draw k).value
  match drawn.find? (isFree taken) with
  | some p => .ok p
  | none =>
    match firstFree taken time value (scoreCount time) (Binary64.ofUInt64 time) with
    | some p => .ok p
    | none => .error (.keySpaceExhausted time)

/-- The stored forms of a batch from the point at `i` on, at places that are free. -/
def encodePoints (draws : Draws) : Nat → Taken → List (UInt64 × Binary64) →
    Except Error (List StoredPoint)
  | _, _, [] => .ok []
  | i, taken, (time, value) :: rest =>
    match uniquePoint taken (draws i) time value with
    | .error e => .error e
    | .ok p => (encodePoints draws (i + 1) ((p.bucket, p.member) :: taken) rest).map (p :: ·)

/-- The buckets of points, in ascending order. -/
def bucketsOf (points : List StoredPoint) : List UInt64 :=
  (points.map (·.bucket)).eraseDups.mergeSort (· ≤ ·)

/-- The commands that store the points of a bucket. -/
def bucketCommands (m : SeriesMetadata) (points : List StoredPoint) (bucket : UInt64) :
    List StagedCommand :=
  let key := Key.data m.ref bucket
  let inBucket := points.filter (·.bucket = bucket)
  let add : StagedCommand :=
    .checked (.addPoints key (inBucket.map fun p => (p.score, p.member))) inBucket.length
  match m.expireAt with
  | none => [add]
  | some last => [add, .unchecked (.expireAt key (max (bucketEndSeconds bucket) last))]

/-- The commands that store a batch of points. -/
def stagePoints (m : SeriesMetadata) (draws : Draws) (times : List UInt64)
    (values : List Binary64) : Except Error (List StagedCommand) :=
  (encodePoints draws 0 [] (times.zip values)).map fun points =>
    (bucketsOf points).flatMap (bucketCommands m points)

end Remote

end SeriesStorage
