import SeriesStorage.Error
import SeriesStorage.Point.Bucket
import SeriesStorage.Point.Key
import SeriesStorage.Number.FixedPoint
import SeriesStorage.Number.Shortest
import SeriesStorage.Number.Literal

/-!
# Points as members of a sorted set

A point is stored in the set of its bucket under its key as score.  Its member is the value's text,
a colon, and the key with six decimals without the leading digits that it shares with the bucket; so
equal values with different keys are different members.

* `encodeScored`, `encode`: the stored form of a point.
* `decodeMember`: the value of a member.
-/

namespace SeriesStorage

/-- The stored form of a point. -/
structure StoredPoint where
  bucket : UInt64
  score : Binary64
  member : String
deriving DecidableEq, Repr, Inhabited

/-- How many leading characters two texts share. -/
def sharedLength : List Char → List Char → Nat
  | a :: as, b :: bs => if a = b then sharedLength as bs + 1 else 0
  | _, _ => 0

/-- What a member says about its score. -/
def scoreSuffix (bucket : UInt64) (score : Binary64) : List Char :=
  let text := score.toFixedChars 6
  text.drop (sharedLength text (Nat.toDigits 10 bucket.toNat))

/-- The stored form of a value at a timestamp, under a given score. -/
def encodeScored (time : UInt64) (score value : Binary64) : StoredPoint where
  bucket := bucketOf time
  score := score
  member := String.ofList (value.toChars ++ ':' :: scoreSuffix (bucketOf time) score)

/-- The stored form of a value at a timestamp, under the padded score. -/
def encode (time : UInt64) (value padding : Binary64) : StoredPoint :=
  encodeScored time (paddedKey time padding) value

/-- The text of a member before its first colon. -/
def memberValue (member : String) : List Char := member.toList.takeWhile (· ≠ ':')

/-- The value of a member. -/
def decodeMember (member : String) : Except Error Binary64 :=
  match Binary64.parse (memberValue member) with
  | .ok value => .ok value
  | .error defect => .error (.internal (.badMember member defect))

end SeriesStorage
