import SeriesStorage.Error
import SeriesStorage.Json.Record

/-!
# Options of a remote backend

Which server serves which namespace, and how long things may take, in milliseconds.  The options of
a configured backend list the connections, whose places in the list are their namespaces, and may
change single times.
-/

namespace SeriesStorage

namespace Remote

/-- What stands behind a connection. -/
inductive ConnectionKind
  | server
  | cluster
  | memory
deriving DecidableEq, Repr, Inhabited

/-- Where a connection leads, and what it says there first. -/
structure ConnectionDetails where
  address : String
  port : UInt16
  /-- Empty for a server that asks for none. -/
  password : String
  database : Int64
  kind : ConnectionKind
deriving DecidableEq, Repr, Inhabited

/-- The options of a remote backend. -/
structure Options where
  /-- The connections of namespaces, by ascending namespace. -/
  connections : List (Namespace × ConnectionDetails)
  connectMs : UInt64 := 5000
  ioMs : UInt64 := 5000
  /-- How long a creation lock lasts if its holder dies. -/
  lockLeaseMs : UInt64 := 60000
  /-- How long a creation waits for the lock. -/
  lockWaitMs : UInt64 := 5000
  /-- How long a descriptor stays in the cache. -/
  metadataCacheMs : UInt64 := 1000
deriving DecidableEq, Repr, Inhabited

/-- The namespace whose connection serves all namespaces without one of their own. -/
def defaultNamespace : Namespace := ⟨0⟩

/-- Connections by ascending namespace; of several for one namespace the last counts. -/
def orderConnections (connections : List (Namespace × ConnectionDetails)) :
    List (Namespace × ConnectionDetails) :=
  let latest := connections.foldr
    (fun c kept => if kept.any (·.1 = c.1) then kept else c :: kept) []
  latest.mergeSort fun a b => decide (a.1.number.toInt ≤ b.1.number.toInt)

/-! ## Reading -/

namespace ConnectionKind

def name : ConnectionKind → String
  | .server => "server"
  | .cluster => "cluster"
  | .memory => "memory"

def ofName? : String → Option ConnectionKind
  | "server" => some .server
  | "cluster" => some .cluster
  | "memory" => some .memory
  | _ => none

/-- A kind is written as its name, or as an object with its name as only member, which is null. -/
def ofJson? : Json → Option ConnectionKind
  | .string name => ofName? name
  | .object [(name, .null)] => ofName? name
  | _ => none

end ConnectionKind

def ConnectionDetails.ofJson? (value : Json) : Option ConnectionDetails := do
  match (← value.fields? ["addr", "port", "password", "database", "type"]).values with
  | [address, port, password, database, kind] =>
    return {
      address := ← address.bind Json.string?
      port := ← port.bind Json.unsigned16?
      password := ← Json.optional Json.string? "" password
      database := ← Json.optional Json.signed64? 0 database
      kind := ← Json.optional ConnectionKind.ofJson? .server kind }
  | _ => none

/-- A time that may be left out of an object, though not of an array, or be null. -/
def time? (positional : Bool) (preset : UInt64) (field : Option Json) : Option UInt64 :=
  match field with
  | none => if positional then none else some preset
  | some value => (Json.nullOr? Json.unsigned64? value).map (·.getD preset)

/-- The options with the times that a value sets. -/
def Options.withTimes? (options : Options) (value : Json) : Option Options := do
  let names := ["connect_ms", "io_ms", "lock_lease_ms", "lock_wait_ms", "metadata_cache_ms"]
  let fields ← value.fields? names
  match fields.values with
  | [connect, io, lease, wait, cache] =>
    return { options with
      connectMs := ← time? fields.positional options.connectMs connect
      ioMs := ← time? fields.positional options.ioMs io
      lockLeaseMs := ← time? fields.positional options.lockLeaseMs lease
      lockWaitMs := ← time? fields.positional options.lockWaitMs wait
      metadataCacheMs := ← time? fields.positional options.metadataCacheMs cache }
  | _ => none

/-- A list of connections. -/
def connections? : Json → Option (List ConnectionDetails)
  | .array items => items.mapM ConnectionDetails.ofJson?
  | _ => none

/-- The options that a configured backend's free-form options describe. -/
def Options.ofJson (value : Json) : Except Error Options := do
  match value.get? "redis" with
  | none => throw (.config .noConnections)
  | some listed =>
    match connections? listed with
    | none => throw (.config .connections)
    | some [] => throw (.config .emptyConnections)
    | some details =>
      let options : Options :=
        { connections := details.zipIdx.map fun (c, i) => (⟨Int32.ofNat i⟩, c) }
      match value.get? "timeouts" with
      | none => return options
      | some times =>
        match options.withTimes? times with
        | none => throw (.config .timeouts)
        | some options => return options

end Remote

end SeriesStorage
