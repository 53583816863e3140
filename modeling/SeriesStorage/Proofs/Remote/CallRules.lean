import SeriesStorage.Proofs.Remote.Execution

/-!
# Rules for calls

A call sends commands and changes what its client keeps.  So it preserves whatever requests with
commands of the kind that it sends preserve, and these changes; which kind of commands that is (`E`)
is left to the invariant.  The loops of the calls, over the entries of a batch and over namespaces,
are gone through here, once for all invariants.

* `Preserves.createEach`: a batch is created entry by entry.
* `Preserves.append`, `Preserves.flush`: points are sent, or staged and sent later.
* `Preserves.clear`: the servers are cleared, and then everything is forgotten.
-/

namespace SeriesStorage

namespace Remote

open Server (Command Reply Request)

namespace Preserves

variable {σ α : Type} [World σ] {I : Site σ → Prop}

/-- A batch preserves what each of its entries does. -/
theorem createEach {now : UInt64}
    (each : ∀ connections chance input, Preserves I (createOne connections now chance input))
    (chances : LockChances) (batch : CreateBatch) : Preserves I (create now chances batch) := by
  refine bind connected fun connections => ?_
  suffices ∀ i, Preserves I (createFrom connections now chances i batch) from this 0
  induction batch with
  | nil => exact fun _ => pure _
  | cons entry rest ih =>
    exact fun i => bind (each connections _ entry.2) fun _ => bind (ih (i + 1)) fun _ => pure _

/-- A lock is tried again and again. -/
theorem obtain {connections : Connections} {ns : Namespace} {key token : String}
    {options : Options} (tried : Preserves I (tryLock connections ns key token options))
    (retries : Nat) : Preserves I (Remote.obtain connections ns key token options retries) := by
  induction retries with
  | zero =>
    refine bind tried fun isFree => ?_
    cases isFree
    · exact throw _
    · exact pure _
  | succ retries ih =>
    refine bind tried fun isFree => ?_
    cases isFree
    · exact ih
    · exact pure _

/-- Clearing the servers of namespaces preserves what clearing one server does. -/
theorem flushServers (cleared : ∀ server, Preserves I (request server (.single .flush)))
    (connections : Connections) (namespaces : List Namespace) :
    Preserves I (flushServers connections namespaces) := by
  induction namespaces with
  | nil => exact pure _
  | cons ns rest ih => exact bind (ask connections ns _ _ cleared) fun _ => ih

theorem clear (cleared : ∀ server, Preserves I (request server (.single .flush)))
    (forgotten : Preserves I (modify fun client =>
      { client with pending := .empty, cache := client.cache.clear } : Task Unit)) :
    Preserves I clear :=
  bind connected fun connections => bind (flushServers cleared connections _) fun _ => forgotten

section Kinds

variable {E : Command → Prop}
  (asked : ∀ server (r : Request), (∀ command ∈ r.commands, E command) →
    Preserves I (request server r))

include asked

theorem askOne {command : Command} (h : E command) (connections : Connections) (ns : Namespace)
    (read : Reply → Except Fault α) : Preserves I (Remote.ask connections ns command read) :=
  ask _ _ _ _ fun server => asked server _ fun _ inside => List.mem_singleton.mp inside ▸ h

/-! ## Descriptors -/

theorem withLock {key : String} {chance : LockChance}
    (locks : ∀ leaseMs, E (.setNew key chance.token leaseMs))
    (releases : E (.release key chance.token)) (connections : Connections) (ns : Namespace)
    {task : Task α} (h : Preserves I task) :
    Preserves I (withLock connections ns key chance task) :=
  bind get fun _ => bind (obtain (askOne asked (locks _) _ _ _) _) fun _ =>
    bind (attempt h) fun _ => bind (attempt (askOne asked releases _ _ _)) fun _ => ofExcept _

section Creating

variable (read : ∀ key, E (.get key)) (counted : ∀ ns, E (.increment (Key.counter ns)))
  (registered : ∀ m, ∀ staged ∈ registration m, E staged.command)
  (forgotten : ∀ refs, Preserves I (invalidate refs))

include read counted registered forgotten

/-- What a creation does under its lock. -/
theorem createLocked (connections : Connections) (now : UInt64) (input : SeriesInput) :
    Preserves I (createLocked connections now input) := by
  refine bind (bind (askOne asked (read _) _ _ _) fun _ => pure _) fun taken => ?_
  cases taken with
  | some taken => exact pure _
  | none =>
    exact bind (askOne asked (counted _) _ _ _) fun number =>
      bind (execute asked _ _ (registered _)) fun _ => bind (forgotten _) fun _ => pure _

theorem createOne {chance : LockChance}
    (locks : ∀ key leaseMs, E (.setNew key chance.token leaseMs))
    (releases : ∀ key, E (.release key chance.token)) (connections : Connections) (now : UInt64)
    (input : SeriesInput) : Preserves I (createOne connections now chance input) := by
  refine bind (bind (askOne asked (read _) _ _ _) fun _ => pure _) fun known => ?_
  cases known with
  | some known => exact pure _
  | none =>
    exact withLock asked (locks _) (releases _) _ _ <|
      createLocked asked read counted registered forgotten connections now input

end Creating

theorem executeRemovals {metas : List SeriesMetadata}
    (removed : ∀ m ∈ metas, ∀ staged ∈ removal m, E staged.command) (connections : Connections)
    (namespaces : List Namespace) :
    Preserves I (executeRemovals connections metas namespaces) := by
  induction namespaces with
  | nil => exact pure _
  | cons ns rest ih =>
    refine bind (execute asked _ _ fun staged inside => ?_) fun _ => ih
    obtain ⟨m, hm, inside⟩ := List.mem_flatMap.mp inside
    exact removed m (List.mem_filter.mp hm).1 staged inside

/-! ## Points -/

/-- Points are stored at once, or staged. -/
theorem append {ns : Namespace} {req : RequestId} {m : SeriesMetadata} {draws : Draws}
    {times : List UInt64} {values : List Binary64}
    (points : ∀ commands, stagePoints m draws times values = .ok commands →
      ∀ staged ∈ commands, E staged.command)
    (waiting : ∀ commands : List StagedCommand, (∀ staged ∈ commands, E staged.command) →
      Preserves I (modify fun client =>
        { client with pending := client.pending.stage req ns commands } : Task Unit)) :
    Preserves I (append ns req m draws times values) := by
  refine bind connected fun connections => ofExcept_bind fun commands encoded => ?_
  have own := points commands encoded
  split
  · exact execute asked connections ns own
  · exact waiting commands own

/-- What is staged is forgotten and sent. -/
theorem flush
    (staged : ∀ site, I site → ∀ req writes, site.client.pending.writes? req = some writes →
      ∀ entry ∈ writes.entries, ∀ staged ∈ entry.2, E staged.command)
    (forgotten : ∀ req, Preserves I (modify fun client =>
      { client with pending := client.pending.remove req } : Task Unit))
    (req : RequestId) : Preserves I (flush req) := by
  intro site hsite
  unfold Remote.flush
  rw [Site.outcome_bind, Site.outcome_get, Outcome.andThen_succeed]
  cases found : site.client.pending.writes? req with
  | none => exact hsite
  | some writes =>
    exact bind (forgotten req) (fun _ => bind connected fun connections =>
      executeWrites asked connections (staged site hsite req writes found)) site hsite

end Kinds

end Preserves

end Remote

end SeriesStorage
