import SeriesStorage.Proofs.Remote.OwnSeries
import SeriesStorage.Proofs.Remote.Sent
import SeriesStorage.Proofs.Remote.SparedFaults
import SeriesStorage.Proofs.Remote.StruckSeries

/-!
# Batches that are removed from servers

A deletion asks for all records of a batch before it sends anything else.  If one is missing, that
was all; otherwise it strikes the series off, one namespace after the other.

* `loadBatch_registered`, `loadBatch_unregistered`: what is loaded.
* `executeRemovals_clears`: namespaces are cleared of their series in whatever order they come.
* `delete_batch`: a deletion changes nothing, or removes just the batch.
-/

namespace SeriesStorage

namespace Remote

open Server (Command Keyspace Network Node Rehearsal Spares Stage commandsIn)

/-! ## Loading a batch -/

/-- A series has a record on the server of its namespace. -/
def Registered (site : Site Network) (connections : Connections) (ref : SeriesRef)
    (m : SeriesMetadata) : Prop :=
  ∃ c node, Reaches site connections ref.ns c node ∧ HoldsRecord node.keyspace ref m

/-- There is nothing where the record of a series belongs. -/
def Unregistered (site : Site Network) (connections : Connections) (ref : SeriesRef) : Prop :=
  ∃ c node, Reaches site connections ref.ns c node ∧
    node.keyspace.string? (Key.descriptor ref) = .ok none

section Loading

variable {site : Site Network} {connections : Connections} {ref : SeriesRef} {m : SeriesMetadata}
  {refs : List SeriesRef}

theorem Reaches.ask_text {ns : Namespace} {c : Connection} {node : Node} {key : String}
    {text : Option String} (h : Reaches site connections ns c node)
    (found : node.keyspace.string? key = .ok text) :
    site.outcome (Remote.ask connections ns (.get key) textOrNothing) = .succeed text site := by
  have run : Server.exec node.password (.get key) node.keyspace =
      (.ok (text.elim .nothing .text), node.keyspace) := by
    simp only [Server.exec, found]
    cases text <;> rfl
  exact h.ask_unchanged run (by cases text <;> rfl)

theorem Registered.loadMetadata (h : Registered site connections ref m) :
    site.outcome (loadMetadata connections ref) = .succeed (some m) site := by
  obtain ⟨c, node, reaches, text, found, decoded, _⟩ := h
  unfold Remote.loadMetadata
  rw [Site.outcome_bind, reaches.ask_text found, Outcome.andThen_succeed]
  dsimp only
  rw [decoded]
  rfl

theorem Unregistered.loadMetadata (h : Unregistered site connections ref) :
    site.outcome (loadMetadata connections ref) = .succeed none site := by
  obtain ⟨c, node, reaches, missing⟩ := h
  unfold Remote.loadMetadata
  rw [Site.outcome_bind, reaches.ask_text missing, Outcome.andThen_succeed]
  rfl

theorem Registered.ref_eq (h : Registered site connections ref m) : m.ref = ref := by
  obtain ⟨_, _, _, _, _, _, same⟩ := h
  exact same

/-- The first series of a batch is loaded, and then the others. -/
theorem Registered.loadBatch_cons (h : Registered site connections ref m) :
    site.outcome (loadBatch connections (ref :: refs)) =
      (site.outcome (loadBatch connections refs)).map (m :: ·) := by
  have same : m.ns = ref.ns := congrArg SeriesRef.ns h.ref_eq
  conv => lhs; unfold loadBatch
  rw [Site.outcome_bind, h.loadMetadata, Outcome.andThen_succeed]
  dsimp only
  rw [if_neg (not_not_intro same), Site.outcome_bind, Outcome.map_eq_andThen]
  rfl

/-- A batch all of whose series have records is loaded. -/
theorem loadBatch_registered (all : ∀ ref ∈ refs, ∃ m, Registered site connections ref m) :
    ∃ metas, site.outcome (loadBatch connections refs) = .succeed metas site ∧
      List.Forall₂ (Registered site connections) refs metas := by
  induction refs with
  | nil => exact ⟨[], rfl, .nil⟩
  | cons ref rest ih =>
    obtain ⟨m, first⟩ := all ref List.mem_cons_self
    obtain ⟨metas, others, each⟩ := ih fun r inside => all r (List.mem_cons_of_mem _ inside)
    refine ⟨m :: metas, ?_, .cons first each⟩
    rw [first.loadBatch_cons, others, Outcome.map_succeed]

/-- A batch with a series without a record is not loaded. -/
theorem loadBatch_unregistered
    (each : ∀ ref ∈ refs, (∃ m, Registered site connections ref m) ∨
      Unregistered site connections ref)
    (missing : ∃ ref ∈ refs, Unregistered site connections ref) :
    site.outcome (loadBatch connections refs) = .fail .metadataNotFound site := by
  induction refs with
  | nil =>
    obtain ⟨ref, inside, _⟩ := missing
    cases inside
  | cons ref rest ih =>
    have fails : Unregistered site connections ref →
        site.outcome (loadBatch connections (ref :: rest)) = .fail .metadataNotFound site := by
      intro first
      unfold loadBatch
      rw [Site.outcome_bind, first.loadMetadata, Outcome.andThen_succeed]
      rfl
    obtain ⟨other, inside, gone⟩ := missing
    rcases List.mem_cons.mp inside with rfl | later
    · exact fails gone
    · rcases each ref List.mem_cons_self with ⟨m, first⟩ | first
      · rw [first.loadBatch_cons, ih (fun r hr => each r (List.mem_cons_of_mem _ hr))
          ⟨other, later, gone⟩, Outcome.map_fail]
      · exact fails first

end Loading

/-! ## Clearing namespaces -/

/-- A namespace is served by a server. -/
def Connections.Routes (connections : Connections) (ns : Namespace) (server : Nat) : Prop :=
  ∃ c, connections.route ns = .ok c ∧ c.server = server

/-- Series are struck off the servers of their namespaces, and off no others. -/
structure Clears (connections : Connections) (gone : SeriesMetadata → Prop) (net net' : Network) :
    Prop where
  listeners : net'.listeners = net.listeners
  nodes : ∀ i : Nat, Option.Rel (fun node node' => node'.password = node.password ∧
    Strikes (fun m => gone m ∧ connections.Routes m.ns i) node.keyspace node'.keyspace)
      net.nodes[i]? net'.nodes[i]?

namespace Clears

variable {connections : Connections} {gone gone' : SeriesMetadata → Prop}
  {net net' last : Network}

theorem none (connections : Connections) (net : Network) :
    Clears connections (fun _ => False) net net where
  listeners := rfl
  nodes := fun i => by
    cases net.nodes[i]? with
    | none => exact .none
    | some node => exact .some ⟨rfl, (Strikes.none _).congr (by simp)⟩

theorem congr (h : Clears connections gone net net') (same : ∀ m, gone m ↔ gone' m) :
    Clears connections gone' net net' := by
  obtain rfl : gone = gone' := funext fun m => propext (same m)
  exact h

theorem trans (h : Clears connections gone net net') (h' : Clears connections gone' net' last) :
    Clears connections (fun m => gone m ∨ gone' m) net last where
  listeners := h'.listeners.trans h.listeners
  nodes := fun i => by
    have first := h.nodes i
    have second := h'.nodes i
    revert first second
    generalize net.nodes[i]? = node, net'.nodes[i]? = node', last.nodes[i]? = node''
    rintro (⟨password, strikes⟩ | _) second
    · obtain ⟨password', strikes'⟩ | _ := second
      exact .some ⟨password'.trans password,
        (strikes.trans strikes').congr fun m => or_and_right.symm⟩
    · cases second
      exact .none

/-- One server is cleared of series of one namespace. -/
theorem setKeys {ns : Namespace} {c : Connection} (route : connections.route ns = .ok c)
    {node : Node} (found : net.nodes[c.server]? = some node) (own : ∀ m, gone m → m.ns = ns)
    {ks : Keyspace} (strikes : Strikes gone node.keyspace ks) :
    Clears connections gone net (net.setKeys c.server ks) where
  listeners := rfl
  nodes := fun i => by
    rw [Network.getElem?_setKeys]
    split
    · next same =>
      subst same
      rw [found]
      refine .some ⟨rfl, strikes.congr fun m => (and_iff_left_of_imp fun hm => ?_).symm⟩
      exact ⟨c, own m hm ▸ route, rfl⟩
    · next other =>
      have apart : ∀ m, ¬ (gone m ∧ connections.Routes m.ns i) := by
        rintro m ⟨hm, c', route', rfl⟩
        rw [own m hm, route] at route'
        exact other (congrArg Connection.server (Except.ok.inj route'))
      cases net.nodes[i]? with
      | none => exact .none
      | some node' =>
        exact .some ⟨rfl, (Strikes.none _).congr fun m => (iff_false_intro (apart m)).symm⟩

end Clears

/-- **Namespaces are cleared** one after the other, in whatever order they come. -/
theorem executeRemovals_clears {site : Site Network} {connections : Connections}
    (metas : List SeriesMetadata) (order : List Namespace)
    (reached : ∀ ns ∈ order, ∃ c node, Reaches site connections ns c node)
    (sets : ∀ (i : Nat) node, site.world.nodes[i]? = some node →
      ∀ ns, TagsAreSets node.keyspace ns) :
    ∃ net, site.outcome (executeRemovals connections metas order) = .succeed () ⟨site.client, net⟩ ∧
      Clears connections (fun m => m ∈ metas ∧ m.ns ∈ order) site.world net := by
  induction order generalizing site with
  | nil => exact ⟨site.world, rfl, (Clears.none connections site.world).congr (by simp)⟩
  | cons ns rest ih =>
    obtain ⟨c, node, reaches⟩ := reached ns List.mem_cons_self
    obtain ⟨replies, ks, runs, strikes⟩ := removals_strike node.password
      (metas.filter (·.ns = ns)) fun m _ => sets c.server node reaches.node m.ns
    have executed := reaches.execute_unchecked runs fun staged inside => by
      obtain ⟨m, _, inside⟩ := List.mem_flatMap.mp inside
      exact removal_unchecked m staged inside
    have first := Clears.setKeys reaches.route reaches.node
      (fun m inside => by simpa using (List.mem_filter.mp inside).2) strikes
    obtain ⟨net, ran, others⟩ := @ih (site.setKeys c.server ks)
      (fun ns' inside => by
        obtain ⟨c', node', reaches'⟩ := reached ns' (List.mem_cons_of_mem _ inside)
        have there := Site.nodes_setKeys site c.server c'.server ks
        rw [reaches'.node] at there
        split at there
        · exact ⟨c', _, reaches'.route, there⟩
        · exact ⟨c', _, reaches'.route, there⟩)
      (fun i node' found ns' => by
        rw [Site.nodes_setKeys] at found
        split at found
        · obtain ⟨before, there, rfl⟩ := Option.map_eq_some_iff.mp found
          next same =>
          subst same
          rw [reaches.node] at there
          obtain rfl := Option.some.inj there
          exact strikes.tagsAreSets (sets _ _ reaches.node ns')
        · exact sets i node' found ns')
    refine ⟨net, ?_, (first.trans others).congr fun m => ?_⟩
    · unfold executeRemovals
      rw [Site.outcome_bind, executed, Outcome.andThen_succeed, ran]
      rfl
    · simp [and_or_left]

/-! ## Deleting a batch -/

section Deleting

variable {site : Site Network} {connections : Connections} {refs : List SeriesRef}

theorem Registered.unique {ref : SeriesRef} {m m' : SeriesMetadata}
    (h : Registered site connections ref m) (h' : Registered site connections ref m') : m = m' := by
  obtain ⟨c, node, reaches, record⟩ := h
  obtain ⟨c', node', reaches', record'⟩ := h'
  obtain rfl := Except.ok.inj (reaches.route.symm.trans reaches'.route)
  obtain rfl := Option.some.inj (reaches.node.symm.trans reaches'.node)
  exact record.unique record'

/-- The descriptors that are loaded are the records of the batch. -/
theorem mem_loaded {metas : List SeriesMetadata}
    (each : List.Forall₂ (Registered site connections) refs metas) (m : SeriesMetadata) :
    m ∈ metas ↔ m.ref ∈ refs ∧ Registered site connections m.ref m := by
  constructor
  · intro inside
    obtain ⟨ref, listed, record⟩ := exists_left_of_forall₂ each inside
    obtain rfl := record.ref_eq
    exact ⟨listed, record⟩
  · rintro ⟨listed, record⟩
    obtain ⟨m', inside, record'⟩ := exists_left_of_forall₂ each.flip listed
    rwa [record.unique record']

theorem map_ref_loaded {metas : List SeriesMetadata}
    (each : List.Forall₂ (Registered site connections) refs metas) : metas.map (·.ref) = refs := by
  induction each with
  | nil => rfl
  | cons first _ ih => rw [List.map_cons, first.ref_eq, ih]

/-- A deletion of series that all have records. -/
theorem delete_registered (own : site.client.connections = some connections)
    (sets : ∀ (i : Nat) node, site.world.nodes[i]? = some node →
      ∀ ns, TagsAreSets node.keyspace ns)
    (all : ∀ ref ∈ refs, ∃ m, Registered site connections ref m) :
    ∃ net, site.outcome (delete refs) =
        .succeed () (Site.invalidate ⟨site.client, net⟩ refs) ∧
      Clears connections (fun m => m.ref ∈ refs ∧ Registered site connections m.ref m)
        site.world net := by
  obtain ⟨metas, loaded, each⟩ := loadBatch_registered all
  obtain ⟨net, removed, clears⟩ := executeRemovals_clears metas
    (metas.map (·.ns)).eraseDups (fun ns inside => by
      obtain ⟨m, hm, rfl⟩ := List.mem_map.mp (List.mem_eraseDups.mp inside)
      obtain ⟨_, c, node, reaches, _⟩ := (mem_loaded each m).mp hm
      exact ⟨c, node, reaches⟩) sets
  refine ⟨net, ?_, clears.congr fun m => ?_⟩
  · unfold delete
    rw [Site.outcome_bind, Site.outcome_connected own, Outcome.andThen_succeed, Site.outcome_bind,
      loaded, Outcome.andThen_succeed, Site.outcome_bind, removed, Outcome.andThen_succeed,
      Site.outcome_invalidate, map_ref_loaded each]
  · rw [← mem_loaded each]
    exact and_iff_left_of_imp fun hm => List.mem_eraseDups.mpr (List.mem_map_of_mem hm)

end Deleting

/-! ### With faults for other commands -/

namespace Relates

variable {all : List (List Server.PreparedFault)} {refs : List SeriesRef}

theorem unarmed_loadBatch (spared : ∀ faults ∈ all, Spares ["GET"] faults)
    (connections : Connections) :
    Relates (Unarmed all) (Unarmed all) (Remote.loadBatch connections refs) :=
  loadBatch (fun _ _ server => unarmed_request server spared) connections

theorem unarmed_delete (refs : List SeriesRef) (lookups : ∀ faults ∈ all, Spares ["GET"] faults)
    (removals : ∀ faults ∈ all, Spares ["DEL", "SREM", "EXEC"] faults) :
    Relates (Unarmed all) (Unarmed all) (Remote.delete refs) := by
  have connections_eq : ∀ site site', Unarmed all site site' →
      site.client.connections = site'.client.connections := by
    rintro site _ ⟨_, rfl⟩
    rfl
  have removed : ∀ connections metas order, Relates (Unarmed all) (Unarmed all)
      (Remote.executeRemovals connections metas order) := by
    intro connections metas order
    induction order with
    | nil => exact pure _
    | cons ns rest ih =>
      refine bind (execute _ _ fun server r part => unarmed_request server fun faults inside =>
        (removals faults inside).fewer _ fun name named => ?_) fun _ => ih
      have among : ∀ c ∈ r.commands, c.name = "DEL" ∨ c.name = "SREM" := by
        intro c inside
        obtain ⟨staged, staging, rfl⟩ := List.mem_map.mp (part c inside)
        obtain ⟨m, _, staging⟩ := List.mem_flatMap.mp staging
        rcases List.mem_cons.mp staging with rfl | unlisting
        · exact Or.inl rfl
        · obtain ⟨t, _, rfl⟩ := List.mem_map.mp unlisting
          exact Or.inr rfl
      have named' : name = "EXEC" ∨ ∃ c ∈ r.commands, c.name = name := by
        cases r with
        | transaction commands =>
          rcases List.mem_cons.mp named with same | inside
          · exact Or.inl same
          · exact Or.inr (List.mem_map.mp inside)
        | _ => exact Or.inr (List.mem_map.mp named)
      rcases named' with rfl | ⟨c, inside, rfl⟩
      · simp
      · rcases among c inside with same | same <;> simp [same]
  refine connected_bind connections_eq (fun _ _ related => related) fun connections => ?_
  refine weaken ?_ (fun _ _ related => related.1) fun _ _ related => related
  exact bind (unarmed_loadBatch lookups connections) fun metas =>
    bind (removed _ _ _) fun _ => changes fun _ _ related => ⟨related.1, by rw [related.2]⟩

end Relates

/-! ### On a stage -/

/-- The record of a series can be looked up: where it belongs its server has a text, or nothing. -/
def Readable (site : Site Stage) (ref : SeriesRef) : Prop :=
  ∃ ks text, Serves site ref.ns ks ∧ ks.string? (Key.descriptor ref) = .ok text

theorem eq_ok_of_toOption {ε α : Type} {result : Except ε α} {a : α}
    (h : result.toOption = some a) : result = .ok a := by
  cases result with
  | error e => cases h
  | ok b => exact congrArg Except.ok (Option.some.inj h)

/-- What a lookup of a record comes to, unless it fails. -/
def Site.recordText? (site : Site Stage) (ref : SeriesRef) : Option (Option String) := do
  let connections ← site.client.connections
  let c ← (connections.route ref.ns).toOption
  let r ← site.world.servers[c.server]?
  (r.keyspace.string? (Key.descriptor ref)).toOption

namespace Site

variable {site : Site Stage} {ref : SeriesRef}

theorem recordText?_eq_some {text : Option String} (h : site.recordText? ref = some text) :
    ∃ ks, Serves site ref.ns ks ∧ ks.string? (Key.descriptor ref) = .ok text := by
  unfold recordText? at h
  obtain ⟨connections, own, h⟩ := Option.bind_eq_some_iff.mp h
  obtain ⟨c, route, h⟩ := Option.bind_eq_some_iff.mp h
  obtain ⟨r, there, h⟩ := Option.bind_eq_some_iff.mp h
  exact ⟨r.keyspace, ⟨connections, c, r, own, eq_ok_of_toOption route, there, rfl⟩,
    eq_ok_of_toOption h⟩

theorem readable_of_recordText? (h : (site.recordText? ref).isSome = true) :
    Readable site ref := by
  obtain ⟨text, found⟩ := Option.isSome_iff_exists.mp h
  obtain ⟨ks, serves, held⟩ := recordText?_eq_some found
  exact ⟨ks, text, serves, held⟩

theorem lost_of_recordText? (h : site.recordText? ref = some none) : Lost site ref := by
  intro ks serves
  obtain ⟨ks', serves', held⟩ := recordText?_eq_some h
  rw [serves.unique serves']
  exact string?_eq_none held

theorem not_lost_of_recordText? (h : (site.recordText? ref).join.isSome = true) :
    ¬ Lost site ref := by
  intro lost
  obtain ⟨text, found⟩ := Option.isSome_iff_exists.mp h
  obtain ⟨ks, serves, held⟩ := recordText?_eq_some (Option.join_eq_some_iff.mp found)
  unfold Keyspace.string? at held
  rw [lost ks serves] at held
  cases held

end Site

/-- The series of a batch that a server has records of, and serves. -/
def ListedAt (connections : Connections) (refs : List SeriesRef) (server : Nat) (ks : Keyspace)
    (m : SeriesMetadata) : Prop :=
  m.ref ∈ refs ∧ HoldsRecord ks m.ref m ∧ connections.Routes m.ns server

/-- What is left after a batch was deleted: the cache has forgotten its series, and each server has
struck off those that it serves. -/
structure DeletesBatch (connections : Connections) (site : Site Stage) (refs : List SeriesRef)
    (left : Site Stage) : Prop where
  cache : ∀ ref, left.client.cache.get? ref =
    if ref ∈ refs then none else site.client.cache.get? ref
  client : left.client = { site.client with cache := left.client.cache }
  listeners : left.world.listeners = site.world.listeners
  servers : ∀ i : Nat, Option.Rel (fun r r' : Rehearsal =>
    r' = { r with keyspace := r'.keyspace } ∧
      StrikesOnly (ListedAt connections refs i r.keyspace) r.keyspace r'.keyspace)
    site.world.servers[i]? left.world.servers[i]?

section Stages

variable {site : Site Stage} {connections : Connections} {refs : List SeriesRef}
  (own : site.client.connections = some connections)
  (coherent : ∀ r ∈ site.world.servers, ∀ ns, Coherent r.keyspace ns)

include own coherent in
/-- A series whose record can be looked up has one, or there is nothing where it belongs. -/
theorem Readable.registered_or {ref : SeriesRef} (h : Readable site ref) :
    (∃ m, Registered site.onNetwork connections ref m) ∨
      (Unregistered site.onNetwork connections ref ∧ Lost site ref) := by
  obtain ⟨ks, text, serves, found⟩ := h
  obtain ⟨connections', c, node, own', reaches, rfl⟩ := serves.reaches
  obtain rfl := Option.some.inj (own.symm.trans own')
  cases text with
  | none =>
    refine Or.inr ⟨⟨c, node, reaches, found⟩, fun ks' serves' => ?_⟩
    rw [serves'.unique serves]
    exact string?_eq_none found
  | some text =>
    obtain ⟨_, _, r, _, _, there, same⟩ := serves
    have records := (coherent r (List.mem_of_getElem? there) ref.ns).records ref.id text
    rw [same] at records
    obtain ⟨m, record⟩ := records found
    exact Or.inl ⟨m, c, node, reaches, record⟩

include own in
theorem Registered.not_lost {ref : SeriesRef} {m : SeriesMetadata}
    (h : Registered site.onNetwork connections ref m) : ¬ Lost site ref := by
  obtain ⟨c, node, reaches, record⟩ := h
  exact fun lost => lost.not_matched m ⟨node.keyspace, reaches.serves own, record⟩

/-- What a server holds of a batch, seen on the network. -/
theorem registered_iff_listedAt {i : Nat} {node : Node}
    (found : site.onNetwork.world.nodes[i]? = some node) (m : SeriesMetadata) :
    ((m.ref ∈ refs ∧ Registered site.onNetwork connections m.ref m) ∧
      connections.Routes m.ns i) ↔ ListedAt connections refs i node.keyspace m := by
  constructor
  · rintro ⟨⟨listed, c, node', reaches, record⟩, c', route, rfl⟩
    obtain rfl := Except.ok.inj (reaches.route.symm.trans route)
    obtain rfl := Option.some.inj (found.symm.trans reaches.node)
    exact ⟨listed, record, _, route, rfl⟩
  · rintro ⟨listed, record, c, route, rfl⟩
    exact ⟨⟨listed, c, node, ⟨route, found⟩, record⟩, c, route, rfl⟩

include coherent in
theorem coherent_onNetwork (i : Nat) (node : Node)
    (found : site.onNetwork.world.nodes[i]? = some node) (ns : Namespace) :
    Coherent node.keyspace ns := by
  rw [nodes_onNetwork] at found
  obtain ⟨r, there, rfl⟩ := Option.map_eq_some_iff.mp found
  exact coherent r (List.mem_of_getElem? there) ns

include coherent in
/-- What is gone from the network is gone from the servers. -/
theorem deletesBatch_of_clears {left : Site Stage} {net : Network}
    (alone : ∀ r ∈ site.world.servers, r.interventions = [])
    (alone' : ∀ r ∈ left.world.servers, r.interventions = [])
    (faults : left.world.faults = site.world.faults)
    (same : left.onNetwork = Site.invalidate ⟨site.client, net⟩ refs)
    (clears : Clears connections
      (fun m => m.ref ∈ refs ∧ Registered site.onNetwork connections m.ref m)
      site.onNetwork.world net) : DeletesBatch connections site refs left := by
  have client : left.client = { site.client with
      cache := site.client.cache.invalidate refs } := congrArg Site.client same
  have world : left.world.network = net := congrArg Site.world same
  refine ⟨fun ref => ?_, ?_, ?_, fun i => ?_⟩
  · rw [client]
    exact Cache.get?_invalidate _ _ _
  · rw [client]
  · exact (congrArg Network.listeners world).trans clears.listeners
  · rw [Stage.getElem?_servers alone i, Stage.getElem?_servers alone' i, faults, world]
    have cleared := clears.nodes i
    change Option.Rel _ site.world.network.nodes[i]? _ at cleared
    generalize net.nodes[i]? = node' at cleared ⊢
    cases found : site.world.network.nodes[i]? with
    | none =>
      rw [found] at cleared
      cases cleared
      exact .none
    | some node =>
      rw [found] at cleared
      obtain ⟨password, strikes⟩ | _ := cleared
      refine .some ⟨congrArg (fun password => Rehearsal.mk password _ _ []) password, ?_⟩
      exact (strikes.congr (registered_iff_listedAt found)).only
        (coherent_onNetwork coherent i node found) fun m listed => listed.2.1

variable (alone : ∀ r ∈ site.world.servers, r.interventions = [])
  (readable : ∀ ref ∈ refs, Readable site ref)

include own coherent alone readable

/-- A batch with a missing record is refused before anything but lookups is sent. -/
theorem delete_refused (lookups : ∀ faults ∈ site.world.faults, Spares ["GET"] faults)
    {ref : SeriesRef} (listed : ref ∈ refs) (lost : Lost site ref) :
    (∃ log, site.outcome (delete refs) =
      .fail .metadataNotFound ⟨site.client, { site.world with log }⟩) ∧
    ∀ c ∈ commandsIn (site.sent (delete refs)), ∃ ref ∈ refs, c.2 = .get (Key.descriptor ref) := by
  have each := fun r inside => (readable r inside).registered_or own coherent
  have missing : Unregistered site.onNetwork connections ref := by
    rcases each ref listed with ⟨m, record⟩ | ⟨missing, _⟩
    · exact absurd lost (record.not_lost own)
    · exact missing
  have loaded := loadBatch_unregistered (fun r inside => (each r inside).imp_right And.left)
    ⟨ref, listed, missing⟩
  obtain ⟨same, faults, alone'⟩ :=
    site.outcome_spared alone (Relates.unarmed_loadBatch lookups connections)
  have sent : SentOnly (fun c => ∃ ref ∈ refs, c = .get (Key.descriptor ref)) site.world.log
      (site.outcome (loadBatch connections refs)).state :=
    Preserves.loadRecords (fun r inside server => Preserves.request_sending server _
      fun c hc => ⟨r, inside, List.mem_singleton.mp hc⟩) connections site (sentOnly_start _ site)
  rw [loaded] at same
  have failed : (site.outcome (loadBatch connections refs)).answer =
    .error .metadataNotFound := congrArg Outcome.answer same
  have deleted : site.outcome (delete refs) =
      .fail .metadataNotFound (site.outcome (loadBatch connections refs)).state := by
    unfold delete
    rw [Site.outcome_bind, Site.outcome_connected own, Outcome.andThen_succeed,
      Site.outcome_bind, Outcome.andThen_eq_of_error failed]
  refine ⟨⟨(site.outcome (loadBatch connections refs)).state.world.log, ?_⟩,
    SentOnly.sent (by rw [deleted]; exact sent)⟩
  rw [deleted]
  exact congrArg (Outcome.fail _)
    (Site.eq_of_onNetwork alone alone' faults (congrArg Outcome.state same))

/-- A batch all of whose records are there is deleted. -/
theorem delete_listed (lookups : ∀ faults ∈ site.world.faults, Spares ["GET"] faults)
    (removals : ∀ faults ∈ site.world.faults, Spares ["DEL", "SREM", "EXEC"] faults)
    (kept : ∀ ref ∈ refs, ¬ Lost site ref) :
    (site.outcome (delete refs)).answer = .ok () ∧
      DeletesBatch connections site refs (site.outcome (delete refs)).state := by
  have all : ∀ ref ∈ refs, ∃ m, Registered site.onNetwork connections ref m := by
    intro ref listed
    rcases (readable ref listed).registered_or own coherent with registered | ⟨_, lost⟩
    · exact registered
    · exact absurd lost (kept ref listed)
  obtain ⟨net, ran, clears⟩ := @delete_registered site.onNetwork connections refs own
    (fun i node found ns => (coherent_onNetwork coherent i node found ns).tagsAreSets) all
  obtain ⟨same, faults, alone'⟩ :=
    site.outcome_spared alone (Relates.unarmed_delete refs lookups removals)
  rw [ran] at same
  exact ⟨congrArg Outcome.answer same,
    deletesBatch_of_clears coherent alone alone' faults (congrArg Outcome.state same) clears⟩

end Stages

/-- **A batch is deleted as a whole or not at all.**  Take a connected client, alone on servers
whose keys agree, and a batch whose records can all be looked up, while no lookup is hit by a fault.
If one record is missing the deletion says so; it has only looked up records, and has changed
nothing.  Otherwise, if its other commands are not hit by faults either, it succeeds: the cache has
forgotten the batch, and of the keys of each server just its series are struck off. -/
theorem delete_batch {site : Site Stage} {connections : Connections} {refs : List SeriesRef}
    (own : site.client.connections = some connections)
    (alone : ∀ r ∈ site.world.servers, r.interventions = [])
    (coherent : ∀ r ∈ site.world.servers, ∀ ns, Coherent r.keyspace ns)
    (readable : ∀ ref ∈ refs, Readable site ref)
    (lookups : ∀ faults ∈ site.world.faults, Spares ["GET"] faults) :
    ((∃ ref ∈ refs, Lost site ref) →
      (∃ log, site.outcome (delete refs) =
        .fail .metadataNotFound ⟨site.client, { site.world with log }⟩) ∧
      ∀ c ∈ commandsIn (site.sent (delete refs)),
        ∃ ref ∈ refs, c.2 = .get (Key.descriptor ref)) ∧
    ((∀ ref ∈ refs, ¬ Lost site ref) →
      (∀ faults ∈ site.world.faults, Spares ["DEL", "SREM", "EXEC"] faults) →
      (site.outcome (delete refs)).answer = .ok () ∧
      DeletesBatch connections site refs (site.outcome (delete refs)).state) := by
  constructor
  · rintro ⟨ref, listed, lost⟩
    exact delete_refused own coherent alone readable lookups listed lost
  · intro kept removals
    exact delete_listed own coherent alone readable lookups removals kept

/-- Two servers for three namespaces; the second one is a cluster, which takes no transactions. -/
def serverAndCluster : Stage :=
  ⟨[.withPassword "", .withPassword ""], [⟨"a", 1, 0⟩, ⟨"b", 1, 1⟩], []⟩

def threeNamespaces : Options :=
  { connections := [(⟨0⟩, ⟨"a", 1, "", 0, .server⟩), (⟨1⟩, ⟨"b", 1, "", 0, .cluster⟩),
      (⟨2⟩, ⟨"a", 1, "", 0, .server⟩)] }

/-- Series of one name in all namespaces, and one more with a tag of theirs. -/
def stockingVisits : List Visit :=
  [⟨⟨0⟩, .connect⟩, ⟨⟨0⟩, .create (fun _ => ⟨"token", 0⟩)
    [(⟨1⟩, ⟨⟨0⟩, "load", ["a", "a", "b"], none⟩), (⟨2⟩, ⟨⟨1⟩, "load", ["a"], none⟩),
      (⟨3⟩, ⟨⟨2⟩, "load", ["a"], some 1⟩), (⟨4⟩, ⟨⟨0⟩, "rate", ["a"], none⟩)]⟩]

/-- The client that has created them, while a fault is prepared for each server. -/
def stocked (fault : Server.PreparedFault) : Site Stage :=
  let ⟨client, stage⟩ :=
    ((⟨.ofOptions threeNamespaces, serverAndCluster⟩ : Site Stage).visits stockingVisits).2
  ⟨client, { stage with servers := stage.servers.map (Rehearsal.arm [fault]) }⟩

theorem coherent_stocked (fault : Server.PreparedFault) :
    ∀ r ∈ (stocked fault).world.servers, ∀ ns, Coherent r.keyspace ns := by
  intro r inside ns
  obtain ⟨r', there, rfl⟩ := List.mem_map.mp inside
  obtain ⟨calm, empty⟩ :=
    Stage.calm_started (show serverAndCluster.servers = ["", ""].map .withPassword from rfl)
  obtain ⟨last, ran⟩ := Deployment.visits_ofSite
    (⟨.ofOptions threeNamespaces, serverAndCluster⟩ : Site Stage) ⟨0⟩ stockingVisits
  have coherent :=
    (visits_coherent threeNamespaces serverAndCluster ⟨0⟩ stockingVisits calm empty).1
  change (Deployment.lone _ _ _).visits _ = _ at ran
  rw [ran] at coherent
  exact coherent r' there ns

/-- Series of all namespaces, one of them twice. -/
def scattered : List SeriesRef := [⟨⟨0⟩, ⟨1⟩⟩, ⟨⟨1⟩, ⟨1⟩⟩, ⟨⟨0⟩, ⟨1⟩⟩, ⟨⟨2⟩, ⟨1⟩⟩]

/-- All of them are deleted although no points could be stored.  With a series that is not there
none of them is, and no fault of a deletion comes to light. -/
theorem delete_batch_scattered :
    let full := stocked ⟨"ZADD", 0, "READONLY"⟩
    let short := stocked ⟨"DEL", 0, "READONLY"⟩
    (∃ connections, full.client.connections = some connections ∧
      (full.outcome (delete scattered)).answer = .ok () ∧
      DeletesBatch connections full scattered (full.outcome (delete scattered)).state) ∧
    ∃ log, short.outcome (delete (scattered ++ [⟨⟨0⟩, ⟨3⟩⟩])) =
      .fail .metadataNotFound ⟨short.client, { short.world with log }⟩ := by
  intro full short
  let connections : Connections := [(⟨0⟩, ⟨0, true⟩), (⟨1⟩, ⟨1, false⟩), (⟨2⟩, ⟨0, true⟩)]
  have own : ∀ fault, (stocked fault).client.connections = some connections := fun fault => by
    have connected : (((⟨.ofOptions threeNamespaces, serverAndCluster⟩ : Site Stage).visits
      stockingVisits).2).client.connections = some connections := by decide +kernel
    exact connected
  have alone : ∀ fault, ∀ r ∈ (stocked fault).world.servers, r.interventions = [] := by
    have idle : ∀ r ∈ ((⟨.ofOptions threeNamespaces, serverAndCluster⟩ : Site Stage).visits
      stockingVisits).2.world.servers, r.interventions = [] := by decide +kernel
    intro fault r inside
    obtain ⟨r', there, rfl⟩ := List.mem_map.mp inside
    exact idle r' there
  constructor
  · have read : ∀ ref ∈ scattered, (full.recordText? ref).isSome = true := by decide +kernel
    have found : ∀ ref ∈ scattered, (full.recordText? ref).join.isSome = true := by decide +kernel
    exact ⟨connections, own _, (delete_batch (own _) (alone _) (coherent_stocked _)
      (fun ref listed => Site.readable_of_recordText? (read ref listed)) (by decide +kernel)).2
      (fun ref listed => Site.not_lost_of_recordText? (found ref listed)) (by decide +kernel)⟩
  · have read : ∀ ref ∈ scattered ++ [⟨⟨0⟩, ⟨3⟩⟩], (short.recordText? ref).isSome = true := by
      decide +kernel
    have missing : short.recordText? ⟨⟨0⟩, ⟨3⟩⟩ = some none := by decide +kernel
    exact ((delete_batch (own _) (alone _) (coherent_stocked _)
      (fun ref listed => Site.readable_of_recordText? (read ref listed)) (by decide +kernel)).1
      ⟨⟨⟨0⟩, ⟨3⟩⟩, by simp, Site.lost_of_recordText? missing⟩).1

end Remote

end SeriesStorage
