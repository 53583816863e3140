import SeriesStorage.Series.Codec
import SeriesStorage.Number.Literal

/-!
# Errors

`Error` says what went wrong and why; each cause is a value, and its wording is given once, in
`Error.message`.  Causes that come from outside the library are kept as `stated`, in their own
words.

* `isRetryable`: repeating the whole call may succeed.
* `isNoData`, `isMissingMetadata`: how callers may take an expired series.
* `sameAs`: equality of errors, that is of their kinds and wordings.
-/

namespace SeriesStorage

/-! ## Causes -/

/-- What can go wrong between a backend and a key/value server. -/
inductive Fault
  /-- The connection could not be made, or broke. -/
  | io (text : String)
  /-- The server answered with an error. -/
  | refused (text : String)
  /-- The answer has not the type that the command promises. -/
  | mistyped (text : String)
deriving DecidableEq, Repr

/-- The wording of a fault. -/
def Fault.message : Fault → String
  | .io text => text
  | .refused text => text
  | .mistyped text => "response was of incompatible type: " ++ text

/-- Why a backend cannot be reached. -/
inductive Outage
  | notInitialized
  | connecting (ns : Namespace) (fault : Fault)
  | pinging (ns : Namespace) (fault : Fault)
  | noConnection (ns : Namespace)
  | stated (text : String)
deriving DecidableEq, Repr

/-- Why a creation lock was not obtained; times are in milliseconds. -/
inductive LockDefect
  | held (key : String) (wait : Nat)
  | stated (text : String)
deriving DecidableEq, Repr

/-- Why a query is not served. -/
inductive QueryDefect
  | conjunction
  | disjunction
  | inequality
  | tag
  | span (first last : UInt64) (days limit : Nat)
  | stated (text : String)
deriving DecidableEq, Repr

/-- Why a configuration document is refused. -/
inductive DocumentDefect
  | malformed
  | shape
deriving DecidableEq, Repr

/-- Why a configuration cannot be put to work. -/
inductive ConfigDefect
  | unknownBackend (name : String)
  | unknownStrategy (name : String)
  | noBackend
  | severalBackends
  | noMetadataStore
  | document (defect : DocumentDefect)
  | noConnections
  | emptyConnections
  | connections
  | timeouts
  | connectionInMemory (address : String) (port : UInt16)
  | stated (text : String)
deriving DecidableEq, Repr

/-- What the library does not expect to find in its own data. -/
inductive Breach
  | danglingName (id : SeriesId)
  | badMember (member : String) (defect : Binary64.ReadingDefect)
  | writeCount (expected stored : Nat)
  | stated (text : String)
deriving DecidableEq, Repr

/-! ## Errors -/

/-- What a call can fail with. -/
inductive Error
  /-- The series exists, but nothing lies in the window. -/
  | noDataFound
  /-- The backend does not know the series; callers create it again and retry. -/
  | metadataNotFound
  | seriesExpired
  | unavailable (cause : Outage)
  | redis (fault : Fault)
  | lockNotObtained (cause : LockDefect)
  | invalidQuery (cause : QueryDefect)
  | namespaceMismatch
  /-- Every physical key of the timestamp is taken by an equal point. -/
  | keySpaceExhausted (time : UInt64)
  | nothingToFlush (request : RequestId)
  | noStrategy
  | config (cause : ConfigDefect)
  | serialization (defect : RecordDefect)
  | internal (cause : Breach)
deriving DecidableEq, Repr

/-- A duration in milliseconds, in the largest unit of which it has at least one. -/
def durationText (ms : Nat) : String :=
  if ms = 0 then "0ns"
  else if ms < 1000 then toString ms ++ "ms"
  else
    let thousandths := (toString (1000 + ms % 1000)).toList.drop 1
    let digits := (thousandths.reverse.dropWhile (· = '0')).reverse
    let fraction := if digits.isEmpty then "" else "." ++ String.ofList digits
    toString (ms / 1000) ++ fraction ++ "s"

def Outage.message : Outage → String
  | .notInitialized => "redis backend not initialized"
  | .connecting ns fault =>
    "failed to init namespace " ++ toString ns ++ ": redis: " ++ fault.message
  | .pinging ns fault => "ping failed for namespace " ++ toString ns ++ ": redis: " ++ fault.message
  | .noConnection ns => "no connection for namespace " ++ toString ns
  | .stated text => text

def LockDefect.message : LockDefect → String
  | .held key wait => key ++ " held by another creator for more than " ++ durationText wait
  | .stated text => text

def QueryDefect.message : QueryDefect → String
  | .conjunction => "no AND support yet"
  | .disjunction => "no OR support yet"
  | .inequality => "only EQUALS support"
  | .tag => "no tag support yet"
  | .span first last days limit =>
    "read range [" ++ toString first ++ ", " ++ toString last ++ "] spans " ++ toString days
      ++ " days, at most " ++ toString limit ++ " allowed"
  | .stated text => text

def DocumentDefect.message : DocumentDefect → String
  | .malformed => "malformed document"
  | .shape => "unexpected shape"

def ConfigDefect.message : ConfigDefect → String
  | .unknownBackend name => "backend " ++ name ++ " not supported"
  | .unknownStrategy name => "backend strategy " ++ name ++ " not supported"
  | .noBackend => "simple strategy requires a backend"
  | .severalBackends => "no more than 1 backend supported for now"
  | .noMetadataStore => "no metadata backend defined"
  | .document defect => "invalid storage config: " ++ defect.message
  | .noConnections => "no redis opts"
  | .emptyConnections => "no namespaces found"
  | .connections => "invalid redis opts: unexpected shape"
  | .timeouts => "invalid redis timeouts: unexpected shape"
  | .connectionInMemory address port =>
    "redis connection type memory is not supported (" ++ address ++ ":" ++ toString port ++ ")"
  | .stated text => text

def Breach.message : Breach → String
  | .danglingName id => "series " ++ toString id ++ " indexed by name but has no metadata"
  | .badMember member defect => "invalid member \"" ++ member ++ "\": " ++ defect.message
  | .writeCount expected stored =>
    "failed write count: expected " ++ toString expected ++ " new points, stored "
      ++ toString stored
  | .stated text => text

namespace Error

/-- The wording of an error. -/
def message : Error → String
  | .noDataFound => "no data found"
  | .metadataNotFound => "series metadata not found"
  | .seriesExpired => "series expired"
  | .unavailable cause => "backend unavailable: " ++ cause.message
  | .redis fault => "redis: " ++ fault.message
  | .lockNotObtained cause => "failed to obtain metadata lock: " ++ cause.message
  | .invalidQuery cause => "invalid query: " ++ cause.message
  | .namespaceMismatch => "invalid namespace"
  | .keySpaceExhausted time => "no free physical key left for timestamp " ++ toString time
  | .nothingToFlush request => "nothing to flush for request " ++ toString request
  | .noStrategy => "no backend strategy configured"
  | .config cause => "configuration: " ++ cause.message
  | .serialization defect => "serialization: " ++ defect.message
  | .internal cause => "internal: " ++ cause.message

/-- The name of the kind of an error. -/
def kind : Error → String
  | .noDataFound => "NoDataFound"
  | .metadataNotFound => "MetadataNotFound"
  | .seriesExpired => "SeriesExpired"
  | .unavailable _ => "BackendUnavailable"
  | .redis _ => "Redis"
  | .lockNotObtained _ => "LockAcquisitionFailed"
  | .invalidQuery _ => "InvalidQuery"
  | .namespaceMismatch => "NamespaceMismatch"
  | .keySpaceExhausted _ => "KeySpaceExhausted"
  | .nothingToFlush _ => "NothingToFlush"
  | .noStrategy => "NoStrategy"
  | .config _ => "Config"
  | .serialization _ => "Serialization"
  | .internal _ => "Internal"

/-- Repeating the whole call may succeed. -/
def isRetryable : Error → Bool
  | .unavailable _ => true
  | .lockNotObtained _ => true
  | .redis (.io _) => true
  | _ => false

/-- Readers take an expired series for an empty window. -/
def isNoData : Error → Bool
  | .noDataFound => true
  | .seriesExpired => true
  | _ => false

/-- The series has to be created again before it can be used. -/
def isMissingMetadata : Error → Bool
  | .metadataNotFound => true
  | .seriesExpired => true
  | _ => false

/-- Errors are equal if their kinds and wordings are. -/
def sameAs (a b : Error) : Bool := a.kind == b.kind && a.message == b.message

end Error

end SeriesStorage
