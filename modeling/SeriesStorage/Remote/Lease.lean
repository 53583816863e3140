import SeriesStorage.Chance
import SeriesStorage.Remote.Client

/-!
# The creation lock

A lock is a key that holds the token of its holder and goes away after a lease.  `obtain` tries to
set it, again and again while another one holds it, and `release` deletes it only if it still holds
the token.  `withLock` releases the lock whatever becomes of the task that needs it, and takes no
notice of a fault of the release.
-/

namespace SeriesStorage

namespace Remote

/-- How often a lock is tried after the first time within a waiting time, if nothing but waiting
takes time: the pauses double from `pause` to at most 100 ms, and the last one ends with the waiting
time. -/
def retriesWithin (pause left : Nat) : Nat :=
  if left = 0 then 0
  else if pause = 0 then 0
  else 1 + retriesWithin (min (2 * pause) 100) (left - pause)
termination_by left

/-- The pause after the first attempt, in milliseconds. -/
def firstPause : Nat := 5

/-- Tries once to take a lock; answers whether it was free. -/
def tryLock (connections : Connections) (ns : Namespace) (key token : String) (options : Options) :
    Task Bool :=
  ask connections ns (.setNew key token (max options.lockLeaseMs 1)) fun
    | .ok => .ok true
    | .nothing => .ok false
    | _ => unexpected

/-- Obtains a lock, with so many attempts after the first one. -/
def obtain (connections : Connections) (ns : Namespace) (key token : String) (options : Options) :
    Nat → Task Unit
  | 0 => do
    if ← tryLock connections ns key token options then return ()
    throw (.lockNotObtained (.held key options.lockWaitMs.toNat))
  | retries + 1 => do
    if ← tryLock connections ns key token options then return ()
    obtain connections ns key token options retries

/-- Deletes a lock if it still holds the token; answers whether it did. -/
def release (connections : Connections) (ns : Namespace) (key token : String) : Task Bool :=
  ask connections ns (.release key token) fun
    | .integer n => .ok (n = 1)
    | _ => unexpected

/-- Runs a task while holding a lock. -/
def withLock {α : Type} (connections : Connections) (ns : Namespace) (key : String)
    (chance : LockChance) (task : Task α) : Task α := do
  obtain connections ns key chance.token (← get).options chance.retries
  let result ← task.attempt
  let _ ← (release connections ns key chance.token).attempt
  Task.ofExcept result

end Remote

end SeriesStorage
