import SeriesStorage.Server.Request

/-!
# Servers in rehearsal

A `Rehearsal` is a server for trying things out: besides its keys it has faults that were prepared,
by which commands fail instead of being executed, and interventions, by which somebody else changes
keys right after a command.  Without them it answers as any server does.

A `Stage` is a set of such servers with the addresses at which they can be reached, and a log of the
commands that reached them.
-/

namespace SeriesStorage

namespace Server

/-! ## What is prepared -/

/-- A command fails once, with a text, after some executions have passed. -/
structure PreparedFault where
  command : String
  skip : Nat
  text : String
deriving DecidableEq, Repr

/-- What somebody else does to a key. -/
inductive Effect
  | put (key text : String)
  | remove (key : String)
deriving DecidableEq, Repr

/-- What somebody else does once, right after a command whose first argument is a key. -/
structure Intervention where
  command : String
  key : String
  effects : List Effect
deriving DecidableEq, Repr

/-- A server with what was prepared for it. -/
structure Rehearsal where
  /-- Empty for a server that asks for no password. -/
  password : String
  keyspace : Keyspace
  faults : List PreparedFault
  interventions : List Intervention
deriving DecidableEq, Inhabited

namespace Rehearsal

/-- A server that holds nothing. -/
def withPassword (password : String) : Rehearsal := ⟨password, .empty, [], []⟩

def Effect.apply (ks : Keyspace) : Effect → Keyspace
  | .put key text => ks.insert key { value := .string text }
  | .remove key => ks.erase key

/-- Applies effects, one after the other. -/
def affect (r : Rehearsal) (effects : List Effect) : Rehearsal :=
  { r with keyspace := effects.foldl Effect.apply r.keyspace }

/-- The fault that hits the next execution of a command, and the faults left. -/
def takeFault (name : String) : List PreparedFault → Option String × List PreparedFault
  | [] => (none, [])
  | fault :: rest =>
    if fault.command = name then
      if fault.skip = 0 then (some fault.text, rest)
      else
        let (hit, rest) := takeFault name rest
        (hit, { fault with skip := fault.skip - 1 } :: rest)
    else
      let (hit, rest) := takeFault name rest
      (hit, fault :: rest)

/-- The intervention that follows a command, and the interventions left. -/
def takeIntervention (command : Command) : List Intervention → List Effect × List Intervention
  | [] => ([], [])
  | i :: rest =>
    if i.command = command.name ∧ command.arguments.head? = some i.key then (i.effects, rest)
    else
      let (effects, rest) := takeIntervention command rest
      (effects, i :: rest)

/-- Answers a command, unless a fault hits it, and lets the intervention follow. -/
def exec (command : Command) (r : Rehearsal) : Except String Reply × Rehearsal :=
  let (hit, faults) := takeFault command.name r.faults
  let (reply, keyspace) : Except String Reply × Keyspace :=
    match hit with
    | some text => (.error text, r.keyspace)
    | none => Server.exec r.password command r.keyspace
  let (effects, interventions) := takeIntervention command r.interventions
  (reply, { r with keyspace, faults, interventions }.affect effects)

/-- Executes a request, with the replies of its commands.  A fault of the end of a transaction keeps
all of it from being executed. -/
def execRequest (r : Rehearsal) (request : Request) :
    Except Fault (List (Except String Reply)) × Rehearsal :=
  match request with
  | .transaction commands =>
    match takeFault "EXEC" r.faults with
    | (some text, faults) => (.error (.refused text), { r with faults })
    | (none, faults) =>
      let (replies, r) := execAll exec commands { r with faults }
      (.ok replies, r)
  | request =>
    let (replies, r) := execAll exec request.commands r
    (.ok replies, r)

end Rehearsal

/-! ## Stages -/

/-- The address of a server. -/
structure Listener where
  address : String
  port : UInt16
  server : Nat
deriving DecidableEq, Repr

/-- What the log says: where transactions begin and end, and each command with its reply. -/
inductive LogEntry
  | begin
  | commit
  | command (command : Command) (reply : Except String Reply)

/-- What the log says about a request and the replies of its commands. -/
def logged (request : Request) (replies : List (Except String Reply)) : List LogEntry :=
  let entries := (request.commands.zip replies).map fun (command, reply) => .command command reply
  match request with
  | .transaction _ => .begin :: entries ++ [.commit]
  | _ => entries

/-- Servers, where they can be reached, and what reached them, by the number of the server. -/
structure Stage where
  servers : List Rehearsal
  listeners : List Listener
  log : List (Nat × LogEntry)
deriving Inhabited

namespace Stage

/-- The server that is reached at an address. -/
def dial (stage : Stage) (address : String) (port : UInt16) : Except Fault Nat :=
  match stage.listeners.find? fun l => l.address = address ∧ l.port = port with
  | some listener => .ok listener.server
  | none => .error (.io "Connection refused")

/-- Changes one of the servers. -/
def update (stage : Stage) (server : Nat) (f : Rehearsal → Rehearsal) : Stage :=
  { stage with servers := stage.servers.modify server f }

/-- Answers a request to one of the servers. -/
def serve (stage : Stage) (server : Nat) (request : Request) :
    Except Fault (List Reply) × Stage :=
  match stage.servers[server]? with
  | none => (.error (.io "Connection reset"), stage)
  | some r =>
    let (outcome, r) := r.execRequest request
    let stage := stage.update server fun _ => r
    let entries := logged request ((outcome.toOption).getD [])
    (outcome.bind gather, { stage with log := stage.log ++ entries.map (server, ·) })

/-- Forgets what reached the servers. -/
def forgetLog (stage : Stage) : Stage := { stage with log := [] }

end Stage

end Server

end SeriesStorage
