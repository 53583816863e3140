import SeriesStorage.Chance
import SeriesStorage.Memory.Store
import SeriesStorage.Remote.Calls

/-!
# Calls

What can be asked of any backend, and what it answers.  The two kinds of backends serve the same
calls: `Memory.Store.perform` and `Remote.perform`.
-/

namespace SeriesStorage

/-- What is asked of a backend, with the random choices that it takes. -/
inductive Call
  | connect
  | create (chances : LockChances) (batch : CreateBatch)
  | search (query : Search)
  | delete (refs : List SeriesRef)
  | clear
  | write (ref : SeriesRef) (req : RequestId) (draws : Draws) (times : List UInt64)
      (values : List Binary64)
  | flush (req : RequestId)
  | read (ref : SeriesRef) (window : Window)

/-- What a backend answers. -/
inductive Answer
  | done
  | created (rows : List Created)
  | found (refs : List SeriesRef)
  | points (points : List Point)
deriving DecidableEq, Repr

/-- The entries of a batch in ascending order of their marks; of several with one mark the last
counts. -/
def CreateBatch.ofEntries (entries : List (CreateMark × SeriesInput)) : CreateBatch :=
  let latest := entries.foldr (fun e kept => if kept.any (·.1 = e.1) then kept else e :: kept) []
  latest.mergeSort fun a b => decide (a.1.number ≤ b.1.number)

namespace Outcome

variable {σ α β : Type}

/-- The answer of a call, read in another way. -/
def map (f : α → β) (outcome : Outcome σ α) : Outcome σ β :=
  ⟨outcome.answer.map f, outcome.state⟩

end Outcome

/-- Serves a call from memory.  There is nothing to connect to, and nothing waits for a flush. -/
def Memory.Store.perform (s : Memory.Store) (now : UInt64) : Call → Outcome Memory.Store Answer
  | .connect => .succeed .done s
  | .create _ batch => (s.create now batch).map .created
  | .search query => .answered ((s.search query).map .found) s
  | .delete refs => (s.delete refs).map fun _ => .done
  | .clear => .succeed .done s.clear
  | .write ref _ draws times values => (s.write now ref draws times values).map fun _ => .done
  | .flush _ => .succeed .done s
  | .read ref window => (s.read now ref window).map .points

/-- Serves a call by talking to servers. -/
def Remote.perform (now : UInt64) : Call → Remote.Task Answer
  | .connect => do
    Remote.connect
    return .done
  | .create chances batch => return .created (← Remote.create now chances batch)
  | .search query => return .found (← Remote.search query)
  | .delete refs => do
    Remote.delete refs
    return .done
  | .clear => do
    Remote.clear
    return .done
  | .write ref req draws times values => do
    Remote.write now ref req draws times values
    return .done
  | .flush req => do
    Remote.flush req
    return .done
  | .read ref window => return .points (← Remote.read now ref window)

end SeriesStorage
