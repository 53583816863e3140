import SeriesStorage.Proofs.Remote.Acting
import Mathlib.Logic.Function.Basic
import Mathlib.Logic.Relation
import Mathlib.Data.Set.Insert

/-!
# Creators in a race

Any number of creators find or create series at the same time, in any interleaving of their requests.
Each of them may stop for good at any time, and the lock of a creator that has stopped may lapse
(`Race.Step`).

A creator is always in some `Phase` of finding or creating its series.  `Next` says which phase
follows and what becomes of the keys of the server, and `Creator.Is.acts` that this is what the
session of a creator does.
-/

namespace SeriesStorage

namespace Remote

open Server (Attempt Keyspace Network Node)

/-! ## Races -/

/-- One who finds or creates a series. -/
structure Creator where
  client : Client
  connections : Connections
  now : UInt64
  chance : LockChance
  input : SeriesInput

/-- What a creator ends with: its answer, and what its client keeps. -/
abbrev Ending := Except Error (SeriesId × Bool) × Client

namespace Creator

variable (cr : Creator)

/-- All that a creator does. -/
def session : Session Ending :=
  (createOne cr.connections cr.now cr.chance cr.input).session cr.client

def nameKey : String := Key.name cr.input.ns cr.input.name

def lockKey : String := Key.lock cr.nameKey

/-- What the lock holds while the creator has it. -/
def lock : Server.Entry := Reaches.lockEntry cr.chance.token cr.client.options

end Creator

/-- Creators, with what each of them is still going to do, who has stopped for good, and the servers. -/
structure Race (ι : Type) where
  sessions : ι → Session Ending
  stopped : Set ι
  world : Network

namespace Race

variable {ι : Type}

/-- All creators are at their beginning. -/
def start (creators : ι → Creator) (world : Network) : Race ι :=
  ⟨fun i => (creators i).session, ∅, world⟩

/-- What a creator has answered, if it has returned successfully. -/
def answer? (race : Race ι) (i : ι) : Option (SeriesId × Bool) :=
  match race.sessions i with
  | .done (.ok answer, _) => some answer
  | _ => none

variable [DecidableEq ι]

/-- A creator sends its next request and gets the answer. -/
def act (race : Race ι) (i : ι) : Race ι :=
  let (session, world) := (race.sessions i).step World.host race.world
  ⟨Function.update race.sessions i session, race.stopped, world⟩

theorem act_eq (race : Race ι) (i : ι) : race.act i =
    ⟨Function.update race.sessions i ((race.sessions i).step World.host race.world).1, race.stopped,
      ((race.sessions i).step World.host race.world).2⟩ := rfl

/-- What can happen next in a race. -/
inductive Step (creators : ι → Creator) (race : Race ι) : Race ι → Prop
  | act {i : ι} : i ∉ race.stopped → Step creators race (race.act i)
  | stop (i : ι) : Step creators race { race with stopped := insert i race.stopped }
  /-- A lock lapses, unless it is that of a creator that has not stopped. -/
  | lapse {server : Nat} {node : Node} {ns : Namespace} {n : String} :
      race.world.nodes[server]? = some node →
      (∀ i, node.keyspace.string? (Key.lock (Key.name ns n)) =
        .ok (some (creators i).chance.token) → i ∈ race.stopped) →
      Step creators race { race with
        world := race.world.setKeys server (node.keyspace.erase (Key.lock (Key.name ns n))) }

end Race

/-! ## Phases -/

/-- Where a creator is. -/
inductive Phase
  | looking
  | locking (retries : Nat)
  | rechecking
  | counting
  | entering (id : SeriesId)
  | releasing (result : Except Error (SeriesId × Bool))
  | finished (result : Except Error (SeriesId × Bool))

namespace Phase

/-- What follows the lookup under the lock. -/
def rechecked : Except Error (Option SeriesId) → Phase
  | .ok none => .counting
  | .ok (some id) => .releasing (.ok (id, false))
  | .error e => .releasing (.error e)

/-- What follows once the counter was asked for an id. -/
def counted : Except Error UInt64 → Phase
  | .ok number => .entering ⟨number⟩
  | .error e => .releasing (.error e)

end Phase

namespace Creator

variable (cr : Creator)

/-- What follows the first lookup. -/
def looked : Except Error (Option SeriesId) → Phase
  | .ok none => .locking cr.chance.retries
  | .ok (some id) => .finished (.ok (id, false))
  | .error e => .finished (.error e)

/-- What is left once a result is there: the lock is released. -/
def after (result : Except Error (SeriesId × Bool)) : Task (SeriesId × Bool) := do
  let _ ← (release cr.connections cr.input.ns cr.lockKey cr.chance.token).attempt
  Task.ofExcept result

def underLock (task : Task (SeriesId × Bool)) : Task (SeriesId × Bool) := do
  cr.after (← task.attempt)

theorem underLock_bind {α : Type} (task : Task α) (next : α → Task (SeriesId × Bool)) :
    cr.underLock (task >>= next) =
      task.attempt >>= fun result => cr.underLock (Task.ofExcept result >>= next) := by
  unfold underLock
  rw [attempt_bind, bind_assoc]

/-- Enters the series under an id. -/
def enter (id : SeriesId) : Task (SeriesId × Bool) := do
  let m := cr.input.describe id cr.now
  execute cr.connections cr.input.ns (registration m)
  invalidate [m.ref]
  return (m.id, true)

/-- What is left to do from a phase on. -/
def remaining : Phase → Task (SeriesId × Bool)
  | .looking => createOne cr.connections cr.now cr.chance cr.input
  | .locking retries => do
    obtain cr.connections cr.input.ns cr.lockKey cr.chance.token cr.client.options retries
    cr.underLock (createLocked cr.connections cr.now cr.input)
  | .rechecking => cr.underLock (createLocked cr.connections cr.now cr.input)
  | .counting => cr.underLock do
    let number ← ask cr.connections cr.input.ns (.increment (Key.counter cr.input.ns))
      wordOfInteger
    cr.enter ⟨number⟩
  | .entering id => cr.underLock (cr.enter id)
  | .releasing result => cr.after result
  | .finished result => Task.ofExcept result

/-- What a creator still does is what is left of a phase. -/
def Is (phase : Phase) (session : Session Ending) : Prop :=
  ∃ client, client.options = cr.client.options ∧ session = (cr.remaining phase).session client

theorem is_looking : cr.Is .looking cr.session := ⟨cr.client, rfl, rfl⟩

end Creator

/-- What a creator does next: which phase follows, and which keys the server holds then. -/
inductive Next (cr : Creator) (required : String) : Phase → Keyspace → Phase → Keyspace → Prop
  | looked {ks : Keyspace} {answer : Except Error (Option SeriesId)} :
      LookedUp ks cr.nameKey answer → Next cr required .looking ks (cr.looked answer) ks
  | locked {ks : Keyspace} {retries : Nat} : ks.get? cr.lockKey = none →
      Next cr required (.locking retries) ks .rechecking (ks.insert cr.lockKey cr.lock)
  | held {ks : Keyspace} {retries : Nat} :
      Next cr required (.locking (retries + 1)) ks (.locking retries) ks
  | timedOut {ks : Keyspace} {e : Error} :
      Next cr required (.locking 0) ks (.finished (.error e)) ks
  | rechecked {ks : Keyspace} {answer : Except Error (Option SeriesId)} :
      LookedUp ks cr.nameKey answer → Next cr required .rechecking ks (.rechecked answer) ks
  | counted {ks ks' : Keyspace} {reply : Except String Server.Reply} :
      Attempt required (.increment (Key.counter cr.input.ns)) ks reply ks' →
      Next cr required .counting ks
        (.counted ((reply.mapError .refused >>= wordOfInteger).mapError .redis)) ks'
  | entered {ks ks' : Keyspace} {id : SeriesId} {set : List (String × String)}
      (result : Except Error Unit) :
      Entered (cr.input.describe id cr.now) ks true true ks' set →
      Next cr required (.entering id) ks (.releasing (result.map fun _ => (id, true))) ks'
  | released {ks ks' : Keyspace} {result : Except Error (SeriesId × Bool)} :
      (ks' = ks ∨ ks.string? cr.lockKey = .ok (some cr.chance.token) ∧ ks' = ks.erase cr.lockKey) →
      Next cr required (.releasing result) ks (.finished result) ks'

/-- **A creator acts as its phase says**, unless it has finished. -/
theorem Creator.Is.acts {cr : Creator} {phase : Phase} {session : Session Ending} {server : Nat}
    {world : Network} {node : Node} (is : cr.Is phase session)
    (route : cr.connections.route cr.input.ns = .ok ⟨server, true⟩)
    (found : world.nodes[server]? = some node) :
    (∃ result client, phase = .finished result ∧ session = .done (result, client)) ∨
      ∃ phase' session' ks, Next cr node.password phase node.keyspace phase' ks ∧
        cr.Is phase' session' ∧ Acts world server node session session' ks := by
  obtain ⟨client, options, rfl⟩ := is
  -- in each phase the task is taken apart at its first call
  cases phase with
  | looking =>
    have split : cr.remaining .looking = _ := bind_eq_attempt _ _
    rw [split]
    obtain ⟨answer, looked, acts⟩ := acts_lookup route found
    refine Or.inr ⟨_, _, _, .looked looked, ⟨client, options, ?_⟩, acts⟩
    rcases answer with e | _ | id
    · rfl
    · show (obtain _ _ cr.lockKey _ client.options _ >>= _).session client = _
      rw [options]
      rfl
    · rfl
  | locking retries =>
    have split : cr.remaining (.locking retries) = _ := obtain_bind _ _ _ _ _ _ _
    rw [split]
    obtain ⟨free, acts⟩ | acts := acts_tryLock route found
    · exact Or.inr ⟨_, _, _, .locked free, ⟨client, options, rfl⟩, acts⟩
    · cases retries with
      | zero => exact Or.inr ⟨_, _, _, .timedOut, ⟨client, options, rfl⟩, acts⟩
      | succ retries => exact Or.inr ⟨_, _, _, .held, ⟨client, options, rfl⟩, acts⟩
  | rechecking =>
    have split : cr.remaining .rechecking = _ := cr.underLock_bind _ _
    rw [split]
    obtain ⟨answer, looked, acts⟩ := acts_lookup route found
    refine Or.inr ⟨_, _, _, .rechecked looked, ⟨client, options, ?_⟩, acts⟩
    rcases answer with e | _ | id <;> rfl
  | counting =>
    have split : cr.remaining .counting = _ := cr.underLock_bind _ _
    rw [split]
    have counted : ∀ answer, (cr.underLock
        (Task.ofExcept answer >>= fun number => cr.enter ⟨number⟩)).session client =
          (cr.remaining (.counted answer)).session client := by
      intro answer
      cases answer <;> rfl
    exact Or.inr ⟨_, _, _, .counted (Server.attempt_exec _ _ _), ⟨client, options, counted _⟩,
      acts_ask route found rfl⟩
  | entering id =>
    have split : cr.remaining (.entering id) = _ := cr.underLock_bind _ _
    rw [split]
    obtain ⟨answer, ks, set, entered, acts⟩ := acts_register route rfl found
    refine Or.inr ⟨_, _, _, .entered answer entered, ?_, acts⟩
    cases answer with
    | error e => exact ⟨client, options, rfl⟩
    | ok done =>
      exact ⟨{ client with cache := client.cache.invalidate [(cr.input.describe id cr.now).ref] },
        options, rfl⟩
  | releasing result =>
    obtain ⟨answer, ks, keys, acts⟩ := acts_release route found
    exact Or.inr ⟨_, _, _, .released keys, ⟨client, options, rfl⟩, acts⟩
  | finished result => exact Or.inl ⟨result, client, rfl, session_ofExcept result client⟩

end Remote

end SeriesStorage
