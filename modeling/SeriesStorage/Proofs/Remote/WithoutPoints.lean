import SeriesStorage.Proofs.Remote.CallRules
import SeriesStorage.Proofs.Remote.Connecting
import SeriesStorage.Proofs.Remote.Deletion

/-!
# Calls that store no points

Searching, creating, deleting and reading send no command that changes points, and of what the
client keeps they change the cache only: they look descriptors up in it and forget some.  So they
preserve whatever such requests, lookups and forgetting preserve, and so does the access to a series
before a write.

* `Preserves.search`, `Preserves.fetch`: looking up and reading send only commands that change no
  key.
* `Preserves.guarded`: what is done with a live series decides.
-/

namespace SeriesStorage

namespace Server

/-- Whether a command changes points. -/
def Command.OnData : Command → Prop
  | .addPoints _ _ => True
  | .expireAt _ _ => True
  | _ => False

theorem Command.not_onData_of_keyless {command : Command} (h : ∀ key, ¬ command.Changes key) :
    ¬ command.OnData := by
  cases command with
  | addPoints key _ => exact absurd rfl (h key)
  | expireAt key _ => exact absurd rfl (h key)
  | _ => exact id

end Server

namespace Remote

open Server (Command Request)

namespace Preserves

variable {σ α : Type} [World σ] {I : Site σ → Prop}

/-- What follows with the connections of the client; an invariant may say something about them. -/
theorem connected_bind {P : Connections → Prop}
    (known : ∀ site connections, I site → site.client.connections = some connections →
      P connections)
    {f : Connections → Task α} (h : ∀ connections, P connections → Preserves I (f connections)) :
    Preserves I (Remote.connected >>= f) := by
  intro site hsite
  cases found : site.client.connections with
  | none =>
    rw [Site.outcome_bind, Site.outcome_connected_none found]
    exact hsite
  | some connections =>
    rw [Site.outcome_bind, Site.outcome_connected found, Outcome.andThen_succeed]
    exact h connections (known site connections hsite found) site hsite

/-! ## Looking up and reading -/

section LookingUp

variable
  (asked : ∀ server (r : Request), (∀ command ∈ r.commands, ∀ key, ¬ command.Changes key) →
    Preserves I (request server r))
  {P : Connections → Prop}
  (known : ∀ site connections, I site → site.client.connections = some connections → P connections)
  (looked : ∀ connections ref, P connections →
    Preserves I (Remote.cachedMetadata connections ref))

include asked

theorem lookupName (connections : Connections) (ns : Namespace) (n : String) :
    Preserves I (Remote.lookupName connections ns n) :=
  bind (askOne asked (fun _ => id) _ _ _) fun _ => pure _

theorem loadMetadata (connections : Connections) (ref : SeriesRef) :
    Preserves I (Remote.loadMetadata connections ref) :=
  loadRecord (fun server => asked server _ (List.forall_mem_singleton.mpr fun _ => id)) connections

/-- The lookup preserves what asking does, if the cache does not matter. -/
theorem cachedMetadata
    (cached : ∀ f : Cache → Cache,
      Preserves I (modify fun client => { client with cache := f client.cache } : Task Unit))
    (connections : Connections) (ref : SeriesRef) :
    Preserves I (Remote.cachedMetadata connections ref) := by
  refine bind get fun client => ?_
  cases client.cache.get? ref with
  | some m => exact bind (cached fun cache => cache.insert ref m) fun _ => pure _
  | none =>
    refine bind (loadMetadata asked connections ref) fun found => ?_
    cases found with
    | none => exact pure _
    | some m => exact bind (cached fun cache => cache.insert ref m) fun _ => pure _

include known looked in
theorem search (query : Search) : Preserves I (Remote.search query) := by
  refine bind (ofExcept _) fun _ => connected_bind known fun connections hconnections =>
    bind (lookupName asked _ _ _) fun named => ?_
  cases named with
  | none => exact pure _
  | some named =>
    refine bind (looked _ _ hconnections) fun found => ?_
    cases found with
    | none => exact throw _
    | some m => exact pure _

/-- A search leaves the client its connections, so that what is looked up may depend on them. -/
theorem search_connected
    (looked : ∀ connections ref, Preserves
      (fun site => I site ∧ site.client.connections = some connections)
      (Remote.cachedMetadata connections ref))
    (query : Search) : Preserves I (Remote.search query) := by
  intro site hsite
  have kept : Preserves (fun after : Site σ =>
      I after ∧ after.client.connections = site.client.connections) (Remote.search query) := by
    refine search (P := fun connections => site.client.connections = some connections)
      (fun server r keyless after h => ⟨asked server r keyless after h.1, h.2⟩)
      (fun after connections h own => h.2.symm.trans own) (fun connections ref own => ?_) query
    rw [own]
    exact looked connections ref
  exact (kept site ⟨hsite, rfl⟩).1

omit asked in
include known looked in
theorem access (now : UInt64) (ref : SeriesRef) : Preserves I (Remote.access now ref) :=
  connected_bind known fun _ hconnections => bind (looked _ _ hconnections) fun _ => pure _

theorem fetch (ref : SeriesRef) (window : Window) : Preserves I (Remote.fetch ref window) := by
  have queried : ∀ connection : Connection, ∀ buckets : List UInt64,
      Preserves I (queryRanges connection <| buckets.map fun bucket =>
        .pointsBetween (Key.data ref bucket) window.first window.upperKey) := by
    intro connection buckets
    unfold queryRanges
    split
    · refine bind (asked _ _ fun c hc => ?_) fun _ => bind (orFault _) fun _ => orFault _
      obtain ⟨bucket, _, rfl⟩ := List.mem_map.mp hc
      exact fun _ => id
    · induction buckets with
      | nil => exact pure _
      | cons bucket rest ih =>
        exact bind (asked _ _ (List.forall_mem_singleton.mpr fun _ => id)) fun _ =>
          bind (orFault _) fun _ => bind (orFault _) fun _ => bind ih fun _ => pure _
  refine bind connected fun connections => ite_bind (throw _) (fun answered _ => answered) ?_
  refine bind (ofExcept _) fun buckets => bind (ofExcept _) fun connection =>
    bind (queried _ _) fun members => bind (ofExcept _) fun scored => ?_
  exact ite_bind (throw _) (fun answered _ => answered) (pure _)

end LookingUp

section WithoutPoints

variable
  (asked : ∀ server (r : Request), (∀ command ∈ r.commands, ¬ command.OnData) →
    Preserves I (request server r))
  {P : Connections → Prop}
  (known : ∀ site connections, I site → site.client.connections = some connections → P connections)
  (looked : ∀ connections ref, P connections →
    Preserves I (Remote.cachedMetadata connections ref))
  (forgotten : ∀ refs, Preserves I (invalidate refs))

include asked

theorem keyless (server : Nat) (r : Request)
    (h : ∀ command ∈ r.commands, ∀ key, ¬ command.Changes key) : Preserves I (request server r) :=
  asked server r fun command inside => Command.not_onData_of_keyless (h command inside)

/-! ## Creating and deleting -/

include forgotten

theorem create (now : UInt64) (chances : LockChances) (batch : CreateBatch) :
    Preserves I (Remote.create now chances batch) := by
  refine createEach (fun connections chance input => ?_) chances batch
  refine createOne asked (fun _ => id) (fun _ => id) ?_ forgotten (fun _ _ => id) (fun _ => id)
    connections now input
  intro m staged inside
  simp only [registration, List.mem_cons, List.mem_map] at inside
  obtain rfl | rfl | ⟨tag, _, rfl⟩ := inside <;> exact id

theorem delete (refs : List SeriesRef) : Preserves I (Remote.delete refs) := by
  have loaded : ∀ connections, Preserves I (loadBatch connections refs) :=
    loadRecords fun _ _ server => asked server _ (List.forall_mem_singleton.mpr id)
  have removed : ∀ connections metas namespaces,
      Preserves I (Remote.executeRemovals connections metas namespaces) := by
    refine fun connections metas => executeRemovals asked (fun m _ staged inside => ?_) connections
    simp only [removal, List.mem_cons, List.mem_map] at inside
    obtain rfl | ⟨tag, _, rfl⟩ := inside <;> exact id
  exact bind connected fun _ => bind (loaded _) fun _ => bind (removed _ _ _) fun _ =>
    forgotten _

/-! ## Access -/

include known looked in
/-- What is done with a live series decides. -/
theorem guarded (now : UInt64) (ref : SeriesRef) {act : SeriesMetadata → Task α}
    (h : ∀ m, Preserves I (act m)) : Preserves I (Remote.guarded now ref act) := by
  refine bind (access known looked now ref) fun found => ?_
  cases found with
  | live m => exact h m
  | unknown => exact throw _
  | expired m => exact bind (delete asked forgotten [ref]) fun _ => throw _

end WithoutPoints

end Preserves

end Remote

end SeriesStorage
