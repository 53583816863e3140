import SeriesStorage.Access
import SeriesStorage.Point.Member
import SeriesStorage.Remote.Cache
import SeriesStorage.Remote.Keys
import SeriesStorage.Remote.Options
import SeriesStorage.Remote.Pending
import SeriesStorage.Remote.Session

/-!
# The client of key/value servers

A `Client` is what a remote backend keeps itself: its options, the connections once it is
initialized, staged writes and the descriptor cache.  A `Task` is a call on it: it talks to servers,
may change the client, and succeeds or fails.

This module holds what all calls are made of: connecting, asking for one reply, reading replies, and
`execute`, which sends write commands in one transaction where the connection allows it and one by
one where it does not.
-/

namespace SeriesStorage

namespace Remote

open Server (Command Reply Request)

/-! ## Clients and tasks -/

/-- The connection of a namespace: a server, and whether it takes transactions. -/
structure Connection where
  server : Nat
  transactions : Bool
deriving DecidableEq, Repr, Inhabited

/-- The connections of namespaces, by ascending namespace. -/
abbrev Connections := List (Namespace × Connection)

/-- What a remote backend keeps itself. -/
structure Client where
  options : Options
  connections : Option Connections
  pending : Pending
  cache : Cache
deriving DecidableEq, Repr, Inhabited

/-- A client that has not connected yet. -/
def Client.ofOptions (options : Options) : Client where
  options := options
  connections := none
  pending := .empty
  cache := .empty options.metadataCacheMs

/-- A call on a client. -/
abbrev Task (α : Type) := ExceptT Error (StateT Client Session) α

namespace Task

variable {α : Type}

/-- The session of a task on a client. -/
def session (task : Task α) (client : Client) : Session (Except Error α × Client) :=
  (task.run).run client

/-- Plays a task against a host. -/
def play {σ : Type} (task : Task α) (host : Host σ) (client : Client) (s : σ) :
    (Except Error α × Client) × σ :=
  (task.session client).run host s

/-- A session as a task. -/
def ofSession (session : Session α) : Task α := ExceptT.lift (StateT.lift session)

/-- The result of an attempt as a task. -/
def ofExcept : Except Error α → Task α
  | .ok a => pure a
  | .error e => throw e

/-- Runs a task and hands over its result, also if it failed. -/
def attempt (task : Task α) : Task (Except Error α) :=
  ExceptT.mk (task.run >>= fun result => pure (.ok result))

end Task

/-! ## Connections -/

/-- The connection that serves a namespace: its own one, or else the default one. -/
def Connections.route (connections : Connections) (ns : Namespace) : Except Error Connection :=
  match connections.find? (·.1 = ns) with
  | some (_, c) => .ok c
  | none =>
    match connections.find? (·.1 = defaultNamespace) with
    | some (_, c) => .ok c
    | none => .error (.unavailable (.noConnection ns))

/-- The connections of an initialized client. -/
def connected : Task Connections := do
  match (← get).connections with
  | some connections => return connections
  | none => throw (.unavailable .notInitialized)

/-- Sends a request and waits for the answer. -/
def request (server : Nat) (r : Request) : Task (Except Fault (List Reply)) :=
  Task.ofSession (.send server r .done)

/-- A fault of a server as an error of the call. -/
def orFault {α : Type} : Except Fault α → Task α
  | .ok a => pure a
  | .error fault => throw (.redis fault)

/-! ## Reading replies -/

/-- A reply that its command does not give. -/
def unexpected {α : Type} : Except Fault α := .error (.mistyped "unexpected reply")

/-- The only reply of a single command. -/
def only : List Reply → Except Fault Reply
  | [reply] => .ok reply
  | _ => unexpected

def textOrNothing : Reply → Except Fault (Option String)
  | .nothing => .ok none
  | .text s => .ok (some s)
  | _ => unexpected

/-- A word that is stored as text. -/
def wordOrNothing : Reply → Except Fault (Option UInt64)
  | .nothing => .ok none
  | .text s =>
    match word? s with
    | some n => .ok (some n)
    | none => .error (.mistyped "could not convert from string")
  | _ => unexpected

/-- A whole number as a word; negative ones wrap around. -/
def wordOfInteger : Reply → Except Fault UInt64
  | .integer n => .ok (UInt64.ofInt n)
  | _ => unexpected

/-- A count of members. -/
def count : Reply → Except Fault Nat
  | .integer n => .ok n.toNat
  | _ => unexpected

def scoredMembers : Reply → Except Fault (List (String × Binary64))
  | .scored members => .ok members
  | _ => unexpected

/-- Sends one command over the connection of a namespace and reads its reply. -/
def ask {α : Type} (connections : Connections) (ns : Namespace) (command : Command)
    (read : Reply → Except Fault α) : Task α := do
  let connection ← Task.ofExcept (connections.route ns)
  let replies ← orFault (← request connection.server (.single command))
  orFault (only replies >>= read)

/-! ## Write commands -/

/-- The counts reported for those commands that are checked, added up. -/
def reportedTotal : List (StagedCommand × Reply) → Except Fault Nat
  | [] => .ok 0
  | (staged, reply) :: rest => do
    let total ← reportedTotal rest
    match staged.expected with
    | none => return total
    | some _ => return (← count reply) + total

/-- Sends commands in one transaction. -/
def executeTogether (server : Nat) (commands : List StagedCommand) : Task Nat := do
  let replies ← orFault (← request server (.transaction (commands.map (·.command))))
  orFault (reportedTotal (commands.zip replies))

/-- Sends commands one by one, up to the first that fails. -/
def executeSingly (server : Nat) : List StagedCommand → Task Nat
  | [] => return 0
  | staged :: rest => do
    let replies ← orFault (← request server (.single staged.command))
    let reply ← orFault (only replies)
    let added ← orFault (reportedTotal [(staged, reply)])
    return added + (← executeSingly server rest)

/-- Sends write commands over the connection of a namespace and checks the counts they report. -/
def execute (connections : Connections) (ns : Namespace) (commands : List StagedCommand) :
    Task Unit := do
  if commands.isEmpty then return ()
  let connection ← Task.ofExcept (connections.route ns)
  let stored ←
    if connection.transactions then executeTogether connection.server commands
    else executeSingly connection.server commands
  let expected := expectedTotal commands
  if stored ≠ expected then throw (.internal (.writeCount expected stored))

/-! ## Initialization -/

/-- No connection waits for a time of 0. -/
def zeroTime : Fault := .io "cannot set a 0 duration timeout"

/-- Opens the connection of one namespace.  A cluster is told no database and has no limit for
connecting. -/
def openConnection (options : Options) (details : ConnectionDetails) :
    Task (Except Fault Connection) := do
  if details.kind = .server ∧ options.connectMs = 0 then return .error zeroTime
  match ← Task.ofSession (.dial details.address details.port .done) with
  | .error fault => return .error fault
  | .ok server =>
    if details.password ≠ "" then
      match ← request server (.single (.auth details.password)) with
      | .error fault => return .error fault
      | .ok _ => pure ()
    if details.kind = .server ∧ details.database ≠ 0 then
      match ← request server (.single (.select details.database.toInt)) with
      | .error fault => return .error fault
      | .ok _ => pure ()
    if options.ioMs = 0 then return .error zeroTime
    return .ok ⟨server, details.kind = .server⟩

/-- Opens connections one after the other, up to the first that fails. -/
def openConnections (options : Options) : List (Namespace × ConnectionDetails) → Task Connections
  | [] => return []
  | (ns, details) :: rest => do
    if details.kind = .memory then
      throw (.config (.connectionInMemory details.address details.port))
    match ← openConnection options details with
    | .error fault => throw (.unavailable (.connecting ns fault))
    | .ok connection => return (ns, connection) :: (← openConnections options rest)

/-- Asks servers whether they are there, up to the first that is not. -/
def pingAll : Connections → Task Unit
  | [] => return ()
  | (ns, connection) :: rest => do
    match ← request connection.server (.single .ping) with
    | .error fault => throw (.unavailable (.pinging ns fault))
    | .ok _ => pingAll rest

/-- The connections of a client, opened unless they are there already. -/
def openOnce : Task Connections := do
  let client ← get
  match client.connections with
  | some connections => return connections
  | none =>
    let connections ← openConnections client.options client.options.connections
    modify fun client => { client with connections := some connections }
    return connections

/-- Connects, unless that was done before, and asks all servers whether they are there. -/
def connect : Task Unit := do
  pingAll (← openOnce)

end Remote

end SeriesStorage
