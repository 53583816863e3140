import SeriesStorage.Chance

/-!
# Physical keys of points

Points that share a timestamp are kept apart by a small padding that is drawn at random: the
physical key of a point is its timestamp as a double plus the padding, and truncation gives the
timestamp back.

* `drawsKeepTime`, `drawsInRange`: what drawn paddings must not spoil.
* `Window`: a closed range of timestamps.  `Window.contains` looks at the truncated key, and
  `Window.upperKey` bounds the keys of the window from above.
-/

namespace SeriesStorage

/-- The key of a timestamp with a padding. -/
def paddedKey (time : UInt64) (padding : Binary64) : Binary64 := Binary64.ofUInt64 time + padding

/-- The timestamp of a key, with the padding cut off. -/
def keyTime (key : Binary64) : UInt64 := key.toUInt64

/-- Whether drawn paddings give the timestamp back, all of them. -/
def drawsKeepTime (time : UInt64) (paddings : List Padding) : Bool :=
  paddings.all fun padding => keyTime (paddedKey time padding.value) = time

/-- Whether the keys of drawn paddings lie between the timestamp and the timestamp plus 0.1. -/
def drawsInRange (time : UInt64) (paddings : List Padding) : Bool :=
  paddings.all fun padding =>
    let key := paddedKey time padding.value
    !key.valueLt (Binary64.ofUInt64 time) && !(paddedKey time maxPadding).valueLt key

/-! ## Windows -/

/-- A closed range of timestamps. -/
structure Window where
  first : UInt64
  last : UInt64
deriving DecidableEq, Repr, Inhabited

namespace Window

/-- The largest key that a point of the window can have.  From 2⁴⁹ on this is the end of the window
plus an eighth, from 2⁵⁰ on the end itself, as the padding rounds away.  Beyond 2⁵³ the end may be
rounded up, so that the truncated key has to be looked at as well. -/
def upperKey (window : Window) : Binary64 := Binary64.ofUInt64 window.last + maxPadding

/-- The smallest key that a point of the window can have. -/
def lowerKey (window : Window) : Binary64 := Binary64.ofUInt64 window.first

/-- Whether the timestamp of a key lies in the window. -/
def contains (window : Window) (key : Binary64) : Bool :=
  window.first ≤ keyTime key && keyTime key ≤ window.last

end Window

/-! ## Points -/

/-- A value at a timestamp. -/
structure Point where
  time : UInt64
  value : Binary64
deriving DecidableEq, Repr, Inhabited

/-- Points as a function of the timestamp, by ascending timestamp; of points that share one the last
counts. -/
def latestByTime (points : List Point) : List Point :=
  let latest := points.foldr (fun p kept =>
    if kept.any (·.time = p.time) then kept else p :: kept) []
  latest.mergeSort fun p q => p.time ≤ q.time

end SeriesStorage
