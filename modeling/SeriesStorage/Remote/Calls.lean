import SeriesStorage.Remote.Lease
import SeriesStorage.Remote.Staging
import SeriesStorage.Search

/-!
# Calls of a remote backend

* `create` finds or creates the series of a batch.  A name is looked up, locked, and looked up once
  more before a series is created, so that of several creators one wins and the others find its
  series.
* `access` looks for a series, in the cache first.  `write` and `read` go on with a live series; an
  expired one they delete, and fail.
* A `write` under a request id only stages its commands; `flush` sends what is staged, and forgets
  it before anything is sent.
* `delete` loads the descriptors of all series of a batch before it changes anything.
-/

namespace SeriesStorage

namespace Remote

open Server (Command)

/-! ## Descriptors -/

/-- The id of a name. -/
def lookupName (connections : Connections) (ns : Namespace) (name : String) :
    Task (Option SeriesId) := do
  let word ← ask connections ns (.get (Key.name ns name)) wordOrNothing
  return word.map SeriesId.mk

/-- The descriptor of a series, from its server. -/
def loadMetadata (connections : Connections) (ref : SeriesRef) : Task (Option SeriesMetadata) := do
  match ← ask connections ref.ns (.get (Key.descriptor ref)) textOrNothing with
  | none => return none
  | some text =>
    match SeriesMetadata.decode text with
    | .ok m => return some m
    | .error defect => throw (.serialization defect)

/-- The descriptor of a series, from the cache if it is there. -/
def cachedMetadata (connections : Connections) (ref : SeriesRef) :
    Task (Option SeriesMetadata) := do
  match (← get).cache.get? ref with
  | some m =>
    modify fun client => { client with cache := client.cache.insert ref m }
    return some m
  | none =>
    match ← loadMetadata connections ref with
    | none => return none
    | some m =>
      modify fun client => { client with cache := client.cache.insert ref m }
      return some m

/-- Takes descriptors out of the cache. -/
def invalidate (refs : List SeriesRef) : Task Unit :=
  modify fun client => { client with cache := client.cache.invalidate refs }

/-! ## Creation -/

/-- The commands that enter a descriptor. -/
def registration (m : SeriesMetadata) : List StagedCommand :=
  .unchecked (.set (Key.name m.ns m.name) (toString m.id))
    :: .unchecked (.set (Key.descriptor m.ref) m.encode)
    :: m.tags.map fun tag => .unchecked (.addMember (Key.tag m.ns tag) (toString m.id))

/-- Creates a series unless its name is there; for the holder of the name's lock. -/
def createLocked (connections : Connections) (now : UInt64) (input : SeriesInput) :
    Task (SeriesId × Bool) := do
  match ← lookupName connections input.ns input.name with
  | some id => return (id, false)
  | none =>
    let number ← ask connections input.ns (.increment (Key.counter input.ns)) wordOfInteger
    let m := input.describe ⟨number⟩ now
    execute connections input.ns (registration m)
    invalidate [m.ref]
    return (m.id, true)

/-- Finds or creates one series; answers whether it is new. -/
def createOne (connections : Connections) (now : UInt64) (chance : LockChance)
    (input : SeriesInput) : Task (SeriesId × Bool) := do
  match ← lookupName connections input.ns input.name with
  | some id => return (id, false)
  | none =>
    withLock connections input.ns (Key.lock (Key.name input.ns input.name)) chance
      (createLocked connections now input)

/-- Finds or creates the entries of a batch from the one at `i` on. -/
def createFrom (connections : Connections) (now : UInt64) (chances : LockChances) :
    Nat → CreateBatch → Task (List Created)
  | _, [] => return []
  | i, (mark, input) :: rest => do
    let (id, isNew) ← createOne connections now (chances i) input
    return ⟨mark, id, isNew⟩ :: (← createFrom connections now chances (i + 1) rest)

/-- Finds or creates the series of a batch. -/
def create (now : UInt64) (chances : LockChances) (batch : CreateBatch) :
    Task (List Created) := do
  createFrom (← connected) now chances 0 batch

/-! ## Deletion -/

/-- The descriptors of a batch that is to be deleted. -/
def loadBatch (connections : Connections) : List SeriesRef → Task (List SeriesMetadata)
  | [] => return []
  | ref :: rest => do
    match ← loadMetadata connections ref with
    | none => throw .metadataNotFound
    | some m =>
      if m.ns ≠ ref.ns then throw .namespaceMismatch
      return m :: (← loadBatch connections rest)

/-- The commands that remove a descriptor. -/
def removal (m : SeriesMetadata) : List StagedCommand :=
  .unchecked (.delete [Key.name m.ns m.name, Key.descriptor m.ref])
    :: m.tags.map fun tag => .unchecked (.removeMember (Key.tag m.ns tag) (toString m.id))

/-- Removes descriptors, one namespace after the other. -/
def executeRemovals (connections : Connections) (metas : List SeriesMetadata) :
    List Namespace → Task Unit
  | [] => return ()
  | ns :: rest => do
    execute connections ns ((metas.filter (·.ns = ns)).flatMap removal)
    executeRemovals connections metas rest

/-- Deletes a batch of series.  Their points stay, but nothing leads to them any more. -/
def delete (refs : List SeriesRef) : Task Unit := do
  let connections ← connected
  let metas ← loadBatch connections refs
  executeRemovals connections metas (metas.map (·.ns)).eraseDups
  invalidate (metas.map (·.ref))

/-! ## Access -/

/-- What an access to a series finds. -/
def access (now : UInt64) (ref : SeriesRef) : Task Access := do
  let connections ← connected
  let found ← cachedMetadata connections ref
  return .ofMetadata found ref.ns now

/-- Goes on with a live series; deletes an expired one and fails. -/
def guarded {α : Type} (now : UInt64) (ref : SeriesRef) (act : SeriesMetadata → Task α) :
    Task α := do
  match ← access now ref with
  | .live m => act m
  | .unknown => throw .metadataNotFound
  | .expired _ =>
    delete [ref]
    throw .seriesExpired

/-! ## Points -/

/-- Stores points of a series that was found, or stages them under a request. -/
def append (ns : Namespace) (req : RequestId) (m : SeriesMetadata) (draws : Draws)
    (times : List UInt64) (values : List Binary64) : Task Unit := do
  let connections ← connected
  let commands ← Task.ofExcept (stagePoints m draws times values)
  if req.isEmpty then execute connections ns commands
  else modify fun client => { client with pending := client.pending.stage req ns commands }

/-- Writes points to a live series. -/
def write (now : UInt64) (ref : SeriesRef) (req : RequestId) (draws : Draws) (times : List UInt64)
    (values : List Binary64) : Task Unit :=
  guarded now ref fun m => append ref.ns req m draws times values

/-- Sends staged commands, one namespace after the other. -/
def executeWrites (connections : Connections) : List (Namespace × List StagedCommand) → Task Unit
  | [] => return ()
  | (ns, commands) :: rest => do
    execute connections ns commands
    executeWrites connections rest

/-- Sends what is staged under a request. -/
def flush (req : RequestId) : Task Unit := do
  match (← get).pending.writes? req with
  | none => throw (.nothingToFlush req)
  | some writes =>
    modify fun client => { client with pending := client.pending.remove req }
    executeWrites (← connected) writes.entries

/-- Asks for several ranges of points, all at once where the connection allows it. -/
def queryRanges (connection : Connection) (commands : List Command) :
    Task (List (String × Binary64)) := do
  if connection.transactions then
    let replies ← orFault (← request connection.server (.pipeline commands))
    orFault ((replies.mapM scoredMembers).map List.flatten)
  else querySingly commands
where
  /-- Asks for one range after the other, up to the first fault. -/
  querySingly : List Command → Task (List (String × Binary64))
    | [] => return []
    | command :: rest => do
      let replies ← orFault (← request connection.server (.single command))
      let found ← orFault (only replies >>= scoredMembers)
      return found ++ (← querySingly rest)

/-- The values of those members whose key lies in a window. -/
def decodeScored (window : Window) (members : List (String × Binary64)) :
    Except Error (List (Binary64 × Binary64)) :=
  (members.filter fun (_, score) => window.contains score).mapM fun (member, score) =>
    (decodeMember member).map (score, ·)

/-- The points of a series in a window, from its server. -/
def fetch (ref : SeriesRef) (window : Window) : Task (List Point) := do
  let connections ← connected
  if window.last < window.first then throw .noDataFound
  let buckets ← Task.ofExcept (readBuckets window.first window.last)
  let connection ← Task.ofExcept (connections.route ref.ns)
  let members ← queryRanges connection <| buckets.map fun bucket =>
    .pointsBetween (Key.data ref bucket) window.first window.upperKey
  let scored ← Task.ofExcept (decodeScored window members)
  if scored.isEmpty then throw .noDataFound
  return (scored.mergeSort fun a b => a.1.totalLe b.1).map fun (key, value) => ⟨keyTime key, value⟩

/-- Reads the points of a live series in a window. -/
def read (now : UInt64) (ref : SeriesRef) (window : Window) : Task (List Point) :=
  guarded now ref fun _ => fetch ref window

/-! ## Searching and clearing -/

/-- Searches for a series. -/
def search (query : Search) : Task (List SeriesRef) := do
  Task.ofExcept query.validate
  let connections ← connected
  match ← lookupName connections query.ns query.name with
  | none => return []
  | some id =>
    match ← cachedMetadata connections ⟨query.ns, id⟩ with
    | none => throw (.internal (.danglingName id))
    | some _ => return [⟨query.ns, id⟩]

/-- Clears the servers of namespaces, one after the other. -/
def flushServers (connections : Connections) : List Namespace → Task Unit
  | [] => return ()
  | ns :: rest => do
    ask connections ns .flush fun _ => .ok ()
    flushServers connections rest

/-- Forgets everything, on the servers and here. -/
def clear : Task Unit := do
  let connections ← connected
  flushServers connections (connections.map (·.1))
  modify fun client => { client with pending := .empty, cache := client.cache.clear }

end Remote

end SeriesStorage
