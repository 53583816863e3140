import SeriesStorage.Call
import SeriesStorage.Clock
import SeriesStorage.Server.Rehearsal

/-!
# Deployments

Several backends on one clock, the servers that remote ones talk to, and what backends do with
series that they find expired.  A backend that is not linked, or whose link is dead, deletes such a
series itself; a linked one reports it, and the link decides what that means: to delete it from one
of the backends, to fail, or to do nothing.  Reported series are remembered in `reports`.

`perform` serves a call on one of the backends.  Only writes and reads find expired series, so only
they look at links.
-/

namespace SeriesStorage

/-- The kinds of backends. -/
inductive BackendKind
  | memory
  | redis
deriving DecidableEq, Repr, Inhabited

def BackendKind.name : BackendKind → String
  | .memory => "memory"
  | .redis => "redis"

instance : ToString BackendKind := ⟨BackendKind.name⟩

/-- The kind of a name, in any case of its letters. -/
def BackendKind.ofName (name : String) : Except Error BackendKind :=
  if equalUpToCase name "memory" then .ok .memory
  else if equalUpToCase name "redis" then .ok .redis
  else .error (.config (.unknownBackend name))

/-- A backend. -/
inductive Backend
  | memory (store : Memory.Store)
  | remote (client : Remote.Client)

def Backend.kind : Backend → BackendKind
  | .memory _ => .memory
  | .remote _ => .redis

/-- What is done with series that were reported as expired. -/
inductive Deleter
  /-- They are deleted from the backend at a place. -/
  | backend (index : Nat)
  | failing (e : Error)
  | idle
deriving DecidableEq

/-- Whom a backend reports expired series to. -/
structure Link where
  deleter : Deleter
  /-- False once the receiver of reports is gone. -/
  alive : Bool
deriving DecidableEq

/-- A backend with its link. -/
structure Participant where
  backend : Backend
  link : Option Link

/-- Backends, their servers, the time, and the reports made so far. -/
structure Deployment where
  participants : List Participant
  stage : Server.Stage
  now : Instant
  reports : List (List SeriesRef)

namespace Deployment

/-- The stage as the host of sessions. -/
def host : Remote.Host Server.Stage where
  dial := fun address port stage => (stage.dial address port, stage)
  serve := fun server request stage => stage.serve server request

/-- Unlinked backends, with no servers. -/
def ofBackends (backends : List Backend) (now : Instant) : Deployment where
  participants := backends.map fun backend => ⟨backend, none⟩
  stage := ⟨[], [], []⟩
  now := now
  reports := []

/-! ## Changing parts -/

def setBackend (d : Deployment) (i : Nat) (backend : Backend) : Deployment :=
  { d with participants := d.participants.modify i fun p => { p with backend } }

def setLink (d : Deployment) (i : Nat) (link : Link) : Deployment :=
  { d with participants := d.participants.modify i fun p => { p with link := some link } }

def setTime (d : Deployment) (now : Instant) : Deployment := { d with now }

/-- Forgets which series were reported. -/
def forgetReports (d : Deployment) : Deployment := { d with reports := [] }

/-- There is no backend at this place. -/
def missing : Error := .internal (.stated "no backend at this place")

/-- Runs what one of the two kinds of backends does. -/
def onBackend {α : Type} (d : Deployment) (i : Nat)
    (memory : Memory.Store → Outcome Memory.Store α) (remote : Remote.Task α) :
    Outcome Deployment α :=
  match d.participants[i]? with
  | none => .fail missing d
  | some ⟨.memory store, _⟩ =>
    let outcome := memory store
    ⟨outcome.answer, d.setBackend i (.memory outcome.state)⟩
  | some ⟨.remote client, _⟩ =>
    let ((answer, client), stage) := remote.play host client d.stage
    ⟨answer, { d.setBackend i (.remote client) with stage }⟩

/-! ## Expired series -/

/-- Deletes series from a backend. -/
def delete (d : Deployment) (i : Nat) (refs : List SeriesRef) : Outcome Deployment Unit :=
  d.onBackend i (·.delete refs) (Remote.delete refs)

/-- Remembers a report. -/
def report (d : Deployment) (refs : List SeriesRef) : Deployment :=
  { d with reports := d.reports ++ [refs] }

/-- Gets rid of a series that a backend found expired. -/
def expire (d : Deployment) (i : Nat) (ref : SeriesRef) : Outcome Deployment Unit :=
  match d.participants[i]?.bind (·.link) with
  | some ⟨deleter, true⟩ =>
    let d := d.report [ref]
    match deleter with
    | .backend k => d.delete k [ref]
    | .failing e => .fail e d
    | .idle => .succeed () d
  | _ => d.delete i [ref]

/-- What an access to a series of a backend finds. -/
def access (d : Deployment) (i : Nat) (ref : SeriesRef) : Outcome Deployment Access :=
  d.onBackend i (fun s => .succeed (s.access d.now.seconds ref) s)
    (Remote.access d.now.seconds ref)

/-- Goes on with a live series; gets rid of an expired one and fails. -/
def guarded {α : Type} (d : Deployment) (i : Nat) (ref : SeriesRef)
    (act : SeriesMetadata → Deployment → Outcome Deployment α) : Outcome Deployment α :=
  (d.access i ref).andThen fun found d =>
    match found with
    | .live m => act m d
    | .unknown => .fail .metadataNotFound d
    | .expired _ => (d.expire i ref).andThen fun _ d => .fail .seriesExpired d

/-! ## Calls -/

/-- Serves a call on one of the backends. -/
def perform (d : Deployment) (i : Nat) (call : Call) : Outcome Deployment Answer :=
  match call with
  | .write ref req draws times values =>
    d.guarded i ref fun m d =>
      (d.onBackend i
        (fun s => .succeed () (s.append ref (Memory.Store.keyedValues draws times values)))
        (Remote.append ref.ns req m draws times values)).map fun _ => .done
  | .read ref window =>
    d.guarded i ref fun _ d =>
      (d.onBackend i (fun s => .answered (s.pointsIn ref window) s)
        (Remote.fetch ref window)).map .points
  | call =>
    d.onBackend i (fun s => s.perform d.now.seconds call) (Remote.perform d.now.seconds call)

/-- The stores of the backends in memory. -/
def stores (d : Deployment) : List Memory.Store :=
  d.participants.filterMap fun p =>
    match p.backend with
    | .memory store => some store
    | .remote _ => none

/-- How many requests wait for a flush on a backend. -/
def pendingRequests (d : Deployment) (i : Nat) : Nat :=
  match d.participants[i]? with
  | some ⟨.remote client, _⟩ => client.pending.requestCount
  | _ => 0

end Deployment

end SeriesStorage
