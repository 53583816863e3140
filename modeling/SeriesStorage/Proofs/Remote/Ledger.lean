import SeriesStorage.Proofs.Remote.Flush
import SeriesStorage.Proofs.Remote.StoringPoints
import SeriesStorage.Proofs.Remote.WithoutPoints
import SeriesStorage.Proofs.TableKeys

/-!
# The ledger of staged writes

A ledger is the history of what is staged, told without looking at the client's buffer: a write
under a request id that succeeds adds a batch, a flush strikes out the batches of its request, and a
clear strikes out all (`Site.ledgerAfter`).  After any visits, whatever the servers do meanwhile, the
buffer is what the ledger says (`Tallies`, `visits_tallied`).

What is staged can also be routed: nobody writes to a series without having looked for it over the
connection of its namespace, and connections never change.  That a descriptor may come from the cache
makes this an invariant of the cache as well (`Tallied.cached`).
-/

namespace SeriesStorage

namespace Remote

open Server (Command Request)

/-! ## Ledgers -/

/-- What one write staged. -/
structure StagedBatch where
  request : RequestId
  ns : Namespace
  commands : List StagedCommand

/-- The batches that wait for a flush, in the order of their staging. -/
abbrev Ledger := List StagedBatch

namespace Ledger

/-- The commands staged under a request for a namespace, in the order of their staging. -/
def staged (ledger : Ledger) (req : RequestId) (ns : Namespace) : List StagedCommand :=
  (ledger.filter fun batch => batch.request = req ∧ batch.ns = ns).flatMap (·.commands)

/-- Something was staged under a request. -/
def HasRequest (ledger : Ledger) (req : RequestId) : Prop := ∃ batch ∈ ledger, batch.request = req

/-- Something was staged under a request for a namespace, though it may be a batch without points. -/
def HasBatch (ledger : Ledger) (req : RequestId) (ns : Namespace) : Prop :=
  ∃ batch ∈ ledger, batch.request = req ∧ batch.ns = ns

theorem staged_append (ledger : Ledger) (batch : StagedBatch) (req : RequestId) (ns : Namespace) :
    staged (ledger ++ [batch]) req ns =
      if batch.request = req ∧ batch.ns = ns then ledger.staged req ns ++ batch.commands
      else ledger.staged req ns := by
  unfold staged
  by_cases same : batch.request = req ∧ batch.ns = ns <;> simp [same]

theorem staged_filter_ne (ledger : Ledger) (req req' : RequestId) (ns : Namespace) :
    staged (ledger.filter fun batch => batch.request ≠ req) req' ns =
      if req = req' then [] else ledger.staged req' ns := by
  unfold staged
  rw [List.filter_filter]
  split
  · next same =>
    subst same
    rw [List.filter_eq_nil_iff.mpr (by simp +contextual)]
    rfl
  · next other =>
    congr 1
    refine List.filter_congr fun batch _ => ?_
    by_cases same : batch.request = req'
    · simp [same, Ne.symm other]
    · simp [same]

theorem mem_staged {ledger : Ledger} {req : RequestId} {ns : Namespace} {staged : StagedCommand}
    (h : staged ∈ ledger.staged req ns) :
    ∃ batch ∈ ledger, batch.request = req ∧ batch.ns = ns ∧ staged ∈ batch.commands := by
  obtain ⟨batch, hbatch, hstaged⟩ := List.mem_flatMap.mp h
  obtain ⟨inside, same⟩ := List.mem_filter.mp hbatch
  exact ⟨batch, inside, (of_decide_eq_true same).1, (of_decide_eq_true same).2, hstaged⟩

end Ledger

/-! ## Keeping the ledger -/

namespace Site

variable {σ : Type} [World σ]

/-- The commands of a batch of points: those for the live series that the access finds. -/
def commandsFor (site : Site σ) (now : UInt64) (ref : SeriesRef) (draws : Draws)
    (times : List UInt64) (values : List Binary64) : List StagedCommand :=
  match (site.outcome (access now ref)).answer with
  | .ok (.live m) => (stagePoints m draws times values).toOption.getD []
  | _ => []

/-- The ledger after a visit. -/
def ledgerAfter (site : Site σ) (ledger : Ledger) (v : Visit) : Ledger :=
  match v.call with
  | .write ref req draws times values =>
    if (site.visit v).answer.isOk ∧ ¬ req.isEmpty then
      ledger ++ [⟨req, ref.ns, site.commandsFor v.time.seconds ref draws times values⟩]
    else ledger
  | .flush req => ledger.filter fun batch => batch.request ≠ req
  | .clear => if (site.visit v).answer.isOk then [] else ledger
  | _ => ledger

/-- The ledger after visits. -/
def ledgerFrom (site : Site σ) (ledger : Ledger) : List Visit → Ledger
  | [] => ledger
  | v :: rest => (site.visit v).state.ledgerFrom (site.ledgerAfter ledger v) rest

end Site

/-! ## The buffer -/

/-- The buffer holds what the ledger says. -/
structure Tallies (pending : Pending) (ledger : Ledger) : Prop where
  requests : pending.requests.keys.Nodup
  unstaged : ∀ req, pending.writes? req = none ↔ ¬ ledger.HasRequest req
  namespaces : ∀ req writes, pending.writes? req = some writes → writes.keys.Nodup
  batches : ∀ req writes, pending.writes? req = some writes → ∀ ns,
    (∃ commands, writes.get? ns = some commands) ↔ ledger.HasBatch req ns
  commands : ∀ req ns, pending.commands req ns = ledger.staged req ns

namespace Tallies

variable {pending : Pending} {ledger : Ledger}

theorem empty : Tallies .empty [] where
  requests := List.nodup_nil
  unstaged := fun req => by simp [Pending.empty, Pending.writes?, Ledger.HasRequest]
  namespaces := fun req writes h => by cases h
  batches := fun req writes h => by cases h
  commands := fun req ns => rfl

theorem stage (h : Tallies pending ledger) (req : RequestId) (ns : Namespace)
    (more : List StagedCommand) :
    Tallies (pending.stage req ns more) (ledger ++ [⟨req, ns, more⟩]) where
  requests := Table.nodup_keys_insert h.requests _ _
  unstaged := by
    intro req'
    have before := h.unstaged req'
    rw [← Option.not_isSome_iff_eq_none] at before ⊢
    rw [Pending.writes?_stage]
    simp only [Ledger.HasRequest, List.mem_append, List.mem_singleton, or_and_right, exists_or,
      exists_eq_left] at before ⊢
    by_cases same : req = req'
    · simp [same]
    · simpa [same] using before
  namespaces := by
    intro req' writes found
    change (pending.requests.insert req _).get? req' = some writes at found
    rw [Table.get?_insert] at found
    split at found
    · obtain rfl := Option.some.inj found
      apply Table.nodup_keys_insert
      cases before : pending.requests.get? req with
      | none => exact List.nodup_nil
      | some writes => exact h.namespaces req writes before
    · exact h.namespaces req' writes found
  batches := by
    intro req' writes found ns'
    change (pending.requests.insert req _).get? req' = some writes at found
    rw [Table.get?_insert] at found
    have split_batch : Ledger.HasBatch (ledger ++ [⟨req, ns, more⟩]) req' ns' ↔
        ledger.HasBatch req' ns' ∨ (req = req' ∧ ns = ns') := by
      simp [Ledger.HasBatch, or_and_right, exists_or]
    rw [split_batch]
    split at found
    · next same =>
      subst same
      obtain rfl := Option.some.inj found
      rw [Table.get?_insert]
      by_cases here : ns = ns'
      · simp [here]
      · rw [if_neg here]
        cases before : pending.requests.get? req with
        | none =>
          have none_before : ¬ ledger.HasBatch req ns' := fun ⟨batch, inside, same, _⟩ =>
            (h.unstaged req).mp before ⟨batch, inside, same⟩
          simp [here, none_before]
        | some writes =>
          rw [Option.getD_some, h.batches req writes before ns']
          simp [here]
    · next other =>
      rw [h.batches req' writes found ns']
      simp [other]
  commands := by
    intro req' ns'
    rw [Pending.commands_stage, Ledger.staged_append, h.commands, h.commands]
    dsimp only
    split
    · next same => rw [same.1, same.2]
    · rfl

theorem remove (h : Tallies pending ledger) (req : RequestId) :
    Tallies (pending.remove req) (ledger.filter fun batch => batch.request ≠ req) where
  requests := Table.nodup_keys_erase h.requests req
  unstaged := by
    intro req'
    rw [Pending.writes?_remove]
    split
    · next same => simp [Ledger.HasRequest, same]
    · next other =>
      rw [h.unstaged req']
      simp only [Ledger.HasRequest, List.mem_filter, decide_eq_true_eq]
      exact not_congr ⟨fun ⟨batch, inside, same⟩ => ⟨batch, ⟨inside, same ▸ Ne.symm other⟩, same⟩,
        fun ⟨batch, inside, same⟩ => ⟨batch, inside.1, same⟩⟩
  namespaces := fun req' writes found =>
    h.namespaces req' writes (Pending.writes?_of_remove found)
  batches := by
    intro req' writes found ns
    rw [Pending.writes?_remove] at found
    split at found
    · cases found
    · next other =>
      rw [h.batches req' writes found ns]
      simp only [Ledger.HasBatch, List.mem_filter, decide_eq_true_eq]
      exact ⟨fun ⟨batch, inside, same⟩ => ⟨batch, ⟨inside, same.1 ▸ Ne.symm other⟩, same⟩,
        fun ⟨batch, inside, same⟩ => ⟨batch, inside.1, same⟩⟩
  commands := by
    intro req' ns
    rw [Ledger.staged_filter_ne]
    have before := h.commands req' ns
    unfold Pending.commands Pending.remove at *
    rw [Table.get?_erase]
    split
    · rfl
    · exact before

end Tallies

/-! ## What calls keep -/

/-- A client is connected to the server of a namespace. -/
def Routed (client : Client) (ns : Namespace) : Prop :=
  ∃ connections c, client.connections = some connections ∧ connections.route ns = .ok c

/-- Nothing was staged since a client was as it is, and only descriptors of namespaces that it is
connected to were cached. -/
structure Kept {σ : Type} (client : Client) (site : Site σ) : Prop where
  pending : site.client.pending = client.pending
  connections : site.client.connections = client.connections
  cached : ∀ ref m, site.client.cache.get? ref = some m → Routed client ref.ns

section Kept

variable {σ α : Type} [World σ] {client : Client}

namespace Kept

omit [World σ] in
/-- The connections of the client, in the form in which lemmas on calls ask for it. -/
theorem known (site : Site σ) (connections : Connections) (h : Kept client site)
    (found : site.client.connections = some connections) : client.connections = some connections :=
  h.connections.symm.trans found

theorem asked (server : Nat) (r : Request) :
    Preserves (Kept client : Site σ → Prop) (request server r) :=
  fun _ h => ⟨h.pending, h.connections, h.cached⟩

theorem forgotten (refs : List SeriesRef) :
    Preserves (Kept client : Site σ → Prop) (invalidate refs) :=
  fun _ h => ⟨h.pending, h.connections, fun ref m found =>
    h.cached ref m (Cache.get?_of_invalidate found).2⟩

/-- A descriptor is cached if it was cached before or if it came over a connection. -/
theorem looked (connections : Connections) (ref : SeriesRef)
    (own : client.connections = some connections) :
    Preserves (Kept client : Site σ → Prop) (cachedMetadata connections ref) := by
  have insert : ∀ m, Routed client ref.ns →
      Preserves (Kept client : Site σ → Prop)
        (modify fun client => { client with cache := client.cache.insert ref m } : Task Unit) := by
    intro m routed site h
    rw [Site.outcome_modify]
    refine ⟨h.pending, h.connections, fun ref' m' found => ?_⟩
    rcases Cache.get?_of_insert found with ⟨rfl, rfl⟩ | before
    · exact routed
    · exact h.cached ref' m' before
  intro site h
  unfold cachedMetadata
  rw [Site.outcome_bind, Site.outcome_get, Outcome.andThen_succeed]
  cases found : site.client.cache.get? ref with
  | some m =>
    exact Preserves.bind (insert m (h.cached ref m found)) (fun _ => Preserves.pure _) site h
  | none =>
    dsimp only
    cases route : connections.route ref.ns with
    | error e =>
      unfold loadMetadata ask
      simp only [bind_assoc]
      rw [Site.outcome_bind, Site.outcome_ofExcept, route]
      exact h
    | ok c =>
      have loaded : Preserves (Kept client : Site σ → Prop) (loadMetadata connections ref) :=
        Preserves.loadMetadata (fun server r _ => asked server r) connections ref
      refine Preserves.bind loaded (fun found => ?_) site h
      cases found with
      | none => exact Preserves.pure _
      | some m =>
        exact Preserves.bind (insert m ⟨connections, c, own, route⟩) fun _ => Preserves.pure _

theorem access (now : UInt64) (ref : SeriesRef) :
    Preserves (Kept client : Site σ → Prop) (Remote.access now ref) :=
  Preserves.access known looked now ref

theorem delete (refs : List SeriesRef) :
    Preserves (Kept client : Site σ → Prop) (Remote.delete refs) :=
  Preserves.delete (fun server r _ => asked server r) forgotten refs

/-- Commands are sent without anything being staged. -/
theorem execute (connections : Connections) (ns : Namespace) (commands : List StagedCommand) :
    Preserves (Kept client : Site σ → Prop) (Remote.execute connections ns commands) :=
  Preserves.execute (E := fun _ => True) (fun server r _ => asked server r) connections ns
    fun _ _ => trivial

end Kept

/-! ## Writes -/

/-- What is staged for points changes points only. -/
theorem stagePoints_onData {m : SeriesMetadata} {draws : Draws} {times : List UInt64}
    {values : List Binary64} {commands : List StagedCommand}
    (h : stagePoints m draws times values = .ok commands) :
    ∀ staged ∈ commands, staged.command.OnData := by
  intro staged inside
  obtain ⟨bucket, ⟨added, rfl⟩ | ⟨second, rfl⟩⟩ := stagePoints_cases h staged inside
  · exact trivial
  · exact trivial

/-- A live series was found, so the client is connected to its server. -/
theorem Kept.routed_access {site : Site σ} (h : Kept site.client site) {now : UInt64}
    {ref : SeriesRef} {m : SeriesMetadata}
    (found : (site.outcome (Remote.access now ref)).answer = .ok (.live m)) :
    Routed site.client ref.ns := by
  unfold Remote.access at found
  rw [Site.outcome_bind] at found
  obtain ⟨connections, connected, found⟩ := Outcome.answer_andThen_eq_ok_iff.mp found
  cases own : site.client.connections with
  | none =>
    rw [Site.outcome_connected_none own] at connected
    cases connected
  | some others =>
    rw [Site.outcome_connected own] at connected found
    obtain rfl := Except.ok.inj connected
    change (site.outcome (cachedMetadata others ref >>= _)).answer = _ at found
    unfold cachedMetadata at found
    rw [bind_assoc, Site.outcome_bind, Site.outcome_get, Outcome.andThen_succeed] at found
    cases cached : site.client.cache.get? ref with
    | some m => exact h.cached ref m cached
    | none =>
      rw [cached] at found
      cases route : others.route ref.ns with
      | ok c => exact ⟨others, c, own, route⟩
      | error e =>
        simp only [loadMetadata, ask, bind_assoc] at found
        rw [Site.outcome_bind, Site.outcome_ofExcept, route] at found
        cases found

/-- What a write under a request id does. -/
inductive WriteUnder (site : Site σ) (now : UInt64) (ref : SeriesRef) (req : RequestId)
    (draws : Draws) (times : List UInt64) (values : List Binary64) :
    Outcome (Site σ) Unit → Prop
  /-- A live series was found, and the commands for it are staged. -/
  | staged (m : SeriesMetadata) (commands : List StagedCommand) (after : Site σ) :
      stagePoints m draws times values = .ok commands →
      site.commandsFor now ref draws times values = commands →
      Kept site.client after → Routed site.client ref.ns →
      WriteUnder site now ref req draws times values
        (.succeed () { after with client :=
          { after.client with pending := after.client.pending.stage req ref.ns commands } })
  /-- Nothing is staged. -/
  | failed (e : Error) (after : Site σ) : Kept site.client after →
      WriteUnder site now ref req draws times values (.fail e after)

theorem write_under {site : Site σ} (h : Kept site.client site) (now : UInt64) (ref : SeriesRef)
    {req : RequestId} (waits : req.isEmpty = false) (draws : Draws) (times : List UInt64)
    (values : List Binary64) :
    WriteUnder site now ref req draws times values
      (site.outcome (write now ref req draws times values)) := by
  have kept := Kept.access now ref site h
  unfold write guarded
  rw [Site.outcome_bind]
  cases found : (site.outcome (Remote.access now ref)).answer with
  | error e =>
    rw [Outcome.andThen_eq_of_error found]
    exact .failed e _ kept
  | ok found' =>
    rw [Outcome.andThen_eq_of_ok found]
    cases found' with
    | unknown => exact .failed _ _ kept
    | expired m =>
      have deleted := Kept.delete [ref] _ kept
      dsimp only
      rw [Site.outcome_bind]
      cases gone : ((site.outcome (Remote.access now ref)).state.outcome
        (Remote.delete [ref])).answer with
      | error e =>
        rw [Outcome.andThen_eq_of_error gone]
        exact .failed e _ deleted
      | ok u =>
        rw [Outcome.andThen_eq_of_ok gone]
        exact .failed _ _ deleted
    | live m =>
      have routed := h.routed_access found
      obtain ⟨connections, c, own, route⟩ := id routed
      dsimp only
      unfold append
      rw [Site.outcome_bind, Site.outcome_connected (kept.connections.trans own),
        Outcome.andThen_succeed, Site.outcome_bind, Site.outcome_ofExcept]
      cases points : stagePoints m draws times values with
      | error e => exact .failed e _ kept
      | ok commands =>
        rw [Outcome.andThen_eq_of_ok rfl, waits]
        refine .staged m commands _ points ?_ kept routed
        unfold Site.commandsFor
        rw [found]
        simp only [points, Except.toOption, Option.getD_some]

end Kept

/-! ## Visits -/

open Server (Stage)

/-- The buffer is what the ledger says, and what is staged can be routed. -/
structure Tallied (site : Site Stage) (ledger : Ledger) : Prop where
  pending : Tallies site.client.pending ledger
  cached : Kept site.client site
  routed : ∀ batch ∈ ledger, Routed site.client batch.ns
  onData : ∀ batch ∈ ledger, ∀ staged ∈ batch.commands, staged.command.OnData

namespace Tallied

variable {site site' : Site Stage} {ledger : Ledger}

theorem start (options : Options) (stage : Stage) : Tallied ⟨.ofOptions options, stage⟩ [] where
  pending := .empty
  cached := ⟨rfl, rfl, fun ref m found => by cases found⟩
  routed := fun batch h => by cases h
  onData := fun batch h => by cases h

/-- What is staged and where it goes depends on the client only. -/
theorem of_client (h : Tallied site ledger) (pending : site'.client.pending = site.client.pending)
    (connections : site'.client.connections = site.client.connections)
    (cached : ∀ ref m, site'.client.cache.get? ref = some m → Routed site.client ref.ns) :
    Tallied site' ledger := by
  have routed : ∀ ns, Routed site.client ns → Routed site'.client ns := by
    rintro ns ⟨others, c, own, route⟩
    exact ⟨others, c, connections.trans own, route⟩
  exact ⟨pending ▸ h.pending, ⟨rfl, rfl, fun ref m found => routed _ (cached ref m found)⟩,
    fun batch inside => routed _ (h.routed batch inside), h.onData⟩

theorem of_kept (h : Tallied site ledger) (kept : Kept site.client site') : Tallied site' ledger :=
  h.of_client kept.pending kept.connections kept.cached

/-- Before connecting nothing is cached or staged; afterwards connections stay as they are. -/
theorem connect (h : Tallied site ledger) : Tallied (site.outcome Remote.connect).state ledger := by
  have asked : ∀ client : Client, ∀ server (r : Request),
      Preserves (fun s : Site Stage => s.client = client) (request server r) :=
    fun client server r => Preserves.client_request client server r
  cases own : site.client.connections with
  | some connections =>
    have same : (site.outcome Remote.connect).state.client = site.client := by
      rw [outcome_connect own]
      exact Preserves.pingAll (fun server r _ => asked _ server r) connections site rfl
    exact h.of_client (by rw [same]) (by rw [same]) (by rw [same]; exact h.cached.cached)
  | none =>
    have kept : Preserves
        (fun s : Site Stage => s.client.pending = site.client.pending ∧
          s.client.cache = site.client.cache) Remote.connect :=
      Preserves.connect (fun _ _ _ same => same) (fun _ _ _ _ same => same) fun _ _ same => same
    obtain ⟨pending, cache⟩ := kept site ⟨rfl, rfl⟩
    have unrouted : ∀ ns, ¬ Routed site.client ns := by
      rintro ns ⟨connections, c, some_own, _⟩
      rw [own] at some_own
      cases some_own
    refine ⟨pending ▸ h.pending, ⟨rfl, rfl, fun ref m found => ?_⟩,
      fun batch inside => absurd (h.routed batch inside) (unrouted _), h.onData⟩
    rw [cache] at found
    exact absurd (h.cached.cached ref m found) (unrouted _)

theorem flush (h : Tallied site ledger) (req : RequestId) :
    Tallied (site.outcome (Remote.flush req)).state
      (ledger.filter fun batch => batch.request ≠ req) := by
  cases staged : site.client.pending.writes? req with
  | none =>
    rw [outcome_flush_unstaged staged, List.filter_eq_self.mpr]
    · exact h
    · intro batch inside
      exact decide_eq_true fun same =>
        (h.pending.unstaged req).mp staged ⟨batch, inside, same⟩
  | some writes =>
    have client := client_flush staged
    refine ⟨by rw [client]; exact h.pending.remove req,
      ⟨rfl, rfl, by rw [client]; exact h.cached.cached⟩, fun batch inside => ?_, fun batch inside =>
        h.onData batch (List.mem_filter.mp inside).1⟩
    rw [client]
    exact h.routed batch (List.mem_filter.mp inside).1

/-- A clear empties the buffer if it succeeds. -/
theorem clear (h : Tallied site ledger) :
    Tallied (site.outcome Remote.clear).state
      (if (site.outcome Remote.clear).answer.isOk then [] else ledger) := by
  unfold Remote.clear
  cases own : site.client.connections with
  | none =>
    rw [Site.outcome_bind, Site.outcome_connected_none own]
    exact h
  | some connections =>
    rw [Site.outcome_bind, Site.outcome_connected own, Outcome.andThen_succeed, Site.outcome_bind]
    have kept := Preserves.flushServers (fun server => Kept.asked server _) connections
      (connections.map (·.1)) site h.cached
    cases answer : (site.outcome (flushServers connections (connections.map (·.1)))).answer with
    | error e =>
      rw [Outcome.andThen_eq_of_error answer]
      exact h.of_kept kept
    | ok u =>
      rw [Outcome.andThen_eq_of_ok answer, Site.outcome_modify]
      have emptied : ∀ site : Site Stage, site.client.pending = .empty →
          site.client.cache.entries = [] → Tallied site [] := by
        intro site pending cache
        refine ⟨pending ▸ .empty, ⟨rfl, rfl, fun ref m found => ?_⟩, fun _ inside => ?_,
          fun _ inside => ?_⟩
        · simp [Cache.get?, cache] at found
        · cases inside
        · cases inside
      exact emptied _ rfl rfl

/-- A write adds a batch if it succeeds under a request id. -/
theorem write (h : Tallied site ledger) (time : Instant) (ref : SeriesRef) (req : RequestId)
    (draws : Draws) (times : List UInt64) (values : List Binary64) :
    Tallied (site.visit ⟨time, .write ref req draws times values⟩).state
      (site.ledgerAfter ledger ⟨time, .write ref req draws times values⟩) := by
  have visited : site.visit ⟨time, .write ref req draws times values⟩ =
      (site.outcome (Remote.write time.seconds ref req draws times values)).map
        fun _ => .done := by
    rw [Outcome.map_eq_andThen]
    exact Site.outcome_bind site _ _
  unfold Site.ledgerAfter
  cases waits : req.isEmpty with
  | true =>
    have kept : Preserves (Kept site.client : Site Stage → Prop)
        (Remote.write time.seconds ref req draws times values) := by
      refine Preserves.guarded (fun server r _ => Kept.asked server r) Kept.known Kept.looked
        Kept.forgotten time.seconds ref fun m => ?_
      refine Preserves.bind Preserves.connected fun connections =>
        Preserves.bind (Preserves.ofExcept _) fun commands => ?_
      rw [waits]
      exact Kept.execute _ _ _
    rw [visited]
    simp only [waits, not_true_eq_false, and_false, if_false]
    exact h.of_kept (kept site h.cached)
  | false =>
    have written := write_under h.cached time.seconds ref waits draws times values
    rw [visited]
    generalize site.outcome (Remote.write time.seconds ref req draws times values) = outcome
      at written
    cases written with
    | failed e after kept => exact h.of_kept kept
    | staged m commands after points same kept routed =>
      have before := h.of_kept kept
      simp only [waits, same]
      refine ⟨before.pending.stage req ref.ns commands, ⟨rfl, rfl, before.cached.cached⟩,
        fun batch inside => ?_, fun batch inside => ?_⟩
      · rcases List.mem_append.mp inside with old | new
        · exact before.routed batch old
        · obtain rfl := List.mem_singleton.mp new
          obtain ⟨connections, c, own, route⟩ := routed
          exact ⟨connections, c, kept.connections.trans own, route⟩
      · rcases List.mem_append.mp inside with old | new
        · exact before.onData batch old
        · obtain rfl := List.mem_singleton.mp new
          exact stagePoints_onData points

theorem visit (h : Tallied site ledger) (v : Visit) :
    Tallied (site.visit v).state (site.ledgerAfter ledger v) := by
  have asked {E : Command → Prop} : ∀ server (r : Request), (∀ command ∈ r.commands, E command) →
      Preserves (Kept site.client : Site Stage → Prop) (request server r) :=
    fun server r _ => Kept.asked server r
  -- calls that only talk to servers and use the cache
  have quiet : ∀ task : Task Answer, Preserves (Kept site.client : Site Stage → Prop) task →
      Tallied (site.outcome task).state ledger := fun task kept => h.of_kept (kept site h.cached)
  obtain ⟨time, call⟩ := v
  cases call with
  | connect =>
    have same : (site.visit ⟨time, .connect⟩).state = (site.outcome Remote.connect).state := by
      show (site.outcome (Remote.connect >>= fun _ => Pure.pure Answer.done)).state = _
      rw [bind_pure_comp, Site.outcome_map]
      rfl
    rw [same]
    exact h.connect
  | create chances batch =>
    exact quiet _ (Preserves.bind (Preserves.create asked Kept.forgotten _ _ _) fun _ =>
      Preserves.pure _)
  | search query =>
    exact quiet _ (Preserves.bind (Preserves.search asked Kept.known Kept.looked _) fun _ =>
      Preserves.pure _)
  | delete refs =>
    exact quiet _ (Preserves.bind (Kept.delete _) fun _ => Preserves.pure _)
  | read ref window =>
    exact quiet _ (Preserves.bind (Preserves.guarded asked Kept.known Kept.looked Kept.forgotten
      _ _ fun _ => Preserves.fetch asked _ _) fun _ => Preserves.pure _)
  | clear =>
    have same : site.visit ⟨time, .clear⟩ = (site.outcome Remote.clear).map fun _ => .done := by
      rw [Outcome.map_eq_andThen]
      exact Site.outcome_bind site _ _
    have isOk : (site.visit ⟨time, .clear⟩).answer.isOk =
        (site.outcome Remote.clear).answer.isOk := by
      rw [same]
      cases answer : (site.outcome Remote.clear).answer <;>
        rw [Outcome.answer_map, answer] <;> rfl
    unfold Site.ledgerAfter
    rw [isOk, same]
    exact h.clear
  | flush req =>
    have same : (site.visit ⟨time, .flush req⟩).state = (site.outcome (Remote.flush req)).state := by
      show (site.outcome (Remote.flush req >>= fun _ => Pure.pure Answer.done)).state = _
      rw [bind_pure_comp, Site.outcome_map]
      rfl
    rw [same]
    exact h.flush req
  | write ref req draws times values => exact h.write time ref req draws times values

/-- **The ledger is kept.** -/
theorem visits (h : Tallied site ledger) (vs : List Visit) :
    Tallied (site.visits vs).2 (site.ledgerFrom ledger vs) := by
  induction vs generalizing site ledger with
  | nil => exact h
  | cons v rest ih => exact ih (h.visit v)

end Tallied

end Remote

end SeriesStorage
