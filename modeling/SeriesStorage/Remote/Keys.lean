import SeriesStorage.Series.Basic

/-!
# Keys in the key/value server

The layout of keys:

* `data_{namespace}-{series}-{bucket}`: the points of a series on one day
* `series_{namespace}_{name}`: the id of a name
* `lock_series_{namespace}_{name}`: the creation lock of a name
* `id_{namespace}`: the last id given
* `meta_{namespace}_{id}`: the descriptor of a series
* `tag_{namespace}_{tag}`: the ids that carry a tag
-/

namespace SeriesStorage

namespace Key

def data (ref : SeriesRef) (bucket : UInt64) : String :=
  "data_" ++ toString ref.ns ++ "-" ++ toString ref.id ++ "-" ++ toString bucket.toNat

def name (ns : Namespace) (name : String) : String := "series_" ++ toString ns ++ "_" ++ name

/-- The lock that guards a key. -/
def lock (key : String) : String := "lock_" ++ key

def counter (ns : Namespace) : String := "id_" ++ toString ns

def descriptor (ref : SeriesRef) : String := "meta_" ++ toString ref.ns ++ "_" ++ toString ref.id

def tag (ns : Namespace) (tag : String) : String := "tag_" ++ toString ns ++ "_" ++ tag

end Key

end SeriesStorage
