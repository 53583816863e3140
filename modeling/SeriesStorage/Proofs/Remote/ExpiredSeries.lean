import SeriesStorage.Proofs.Remote.SoundClient
import SeriesStorage.Proofs.Remote.StruckSeries

/-!
# Expired series on servers

A read or a write of a series whose record has expired deletes the series and fails.  What has
expired may be a descriptor in the cache, but what is deleted is what the server has; for a client
that is not let down (`Sound`) both are the same.  Points are not deleted, but nothing leads to them
any more.

* `Unregisters`, `Expels`: what the deletion leaves of the keys of the server, and of all.
* `Sound.visit_expired`: the visit that finds a series expired.
* `visitAt_expels`: the same in a deployment, after any events, with what the next call finds.
-/

namespace SeriesStorage

namespace Remote

open Server (Keyspace Network Node Stage)

/-! ## Keys -/

/-- What is left of the keys of a server after a series was deleted: its name and its record are
gone, and its id from the sets of its tags.  Everything else is as it was. -/
structure Unregisters (ks : Keyspace) (m : SeriesMetadata) (ks' : Keyspace) : Prop where
  name : ks'.get? (Key.name m.ns m.name) = none
  record : ks'.get? (Key.descriptor m.ref) = none
  tags : ∀ t ∈ m.tags, ∃ members members', ks.set? (Key.tag m.ns t) = .ok members ∧
    ks'.set? (Key.tag m.ns t) = .ok members' ∧ ∀ s, s ∈ members' ↔ s ∈ members ∧ s ≠ toString m.id
  otherKeys : ∀ key, key ≠ Key.name m.ns m.name → key ≠ Key.descriptor m.ref →
    (∀ t ∈ m.tags, key ≠ Key.tag m.ns t) → ks'.get? key = ks.get? key
  otherSeries : ∀ ref m', ref ≠ m.ref → HoldsRecord ks ref m' → HoldsRecord ks' ref m' ∧
    ks'.get? (Key.name m'.ns m'.name) = ks.get? (Key.name m'.ns m'.name)
  counters : ∀ ns, ks'.get? (Key.counter ns) = ks.get? (Key.counter ns)
  points : ∀ ref bucket, ks'.get? (Key.data ref bucket) = ks.get? (Key.data ref bucket)

/-- The commands of a deletion unregister a series that is there. -/
theorem Orderly.unregisters {ks : Keyspace} (h : Orderly ks) {ref : SeriesRef}
    {m : SeriesMetadata} (record : HoldsRecord ks ref m) (required : String) :
    ∃ replies ks', Server.Runs required ((removal m).map (·.command)) ks replies ks' ∧
      Unregisters ks m ks' := by
  obtain rfl : m.ref = ref := record.choose_spec.2.2
  obtain ⟨replies, ks', runs, strikes⟩ :=
    removal_strikes required (h.coherent m.ns).tagsAreSets
  have only := strikes.only h.coherent fun m' same => same ▸ record
  refine ⟨replies, ks', runs,
    { name := strikes.names m rfl
      record := strikes.records m rfl
      tags := fun t tagged => ?_
      otherKeys := fun key name descriptor tags => strikes.otherKeys key ?_
      otherSeries := fun ref m' apart record' => only.otherSeries ref m' record' fun same => ?_
      counters := only.counters
      points := only.points }⟩
  · obtain ⟨members, found, _⟩ := (h.coherent m.ns).tags t
    obtain ⟨members', found', left⟩ := strikes.tags m.ns t members found
    refine ⟨members, members', found, found', fun s => (left s).trans ?_⟩
    simp [tagged]
  · rintro _ rfl ⟨k, entered, rfl⟩
    cases k with
    | name ns n => exact name (by rw [entered.1, entered.2]; rfl)
    | descriptor ref => exact descriptor (congrArg Key.descriptor entered.symm)
    | tag ns t => exact tags t entered.2 (by rw [entered.1]; rfl)
    | _ => exact entered
  · subst same
    exact apart record'.choose_spec.2.2.symm

/-! ## On the network -/

theorem Holds.records_eq_none {ks : Keyspace} {cat : Catalogue} {ref : SeriesRef}
    (h : Holds ks ref.ns cat) (gone : ks.get? (Key.descriptor ref) = none) :
    cat.records ref.id = none := by
  have entry := (h.records ref.id).symm.trans gone
  simpa [textEntry] using entry

namespace Reaches

variable {site : Site Network} {connections : Connections} {c : Connection} {node : Node}
  {ref : SeriesRef} {m : SeriesMetadata}

/-- The deletion of a series that is there. -/
theorem delete_one (h : Reaches site connections ref.ns c node)
    (own : site.client.connections = some connections) (order : Orderly node.keyspace)
    (record : HoldsRecord node.keyspace ref m) : ∃ ks, Unregisters node.keyspace m ks ∧
      site.outcome (delete [ref]) = .succeed () ((site.setKeys c.server ks).invalidate [ref]) := by
  obtain ⟨replies, ks, runs, unregisters⟩ := order.unregisters record node.password
  obtain ⟨_, cat, wf, holds⟩ := order ref.ns
  obtain rfl : m.ref = ref := record.choose_spec.2.2
  have there : cat.records m.id = some m := (holds.holdsRecord_iff wf m.id m).mp record
  have loaded : site.outcome (loadBatch connections [m.ref]) = .succeed [m] site := by
    unfold loadBatch
    rw [Site.outcome_bind, show m.ref = ⟨m.ref.ns, m.id⟩ from rfl, h.loadMetadata holds, there,
      Outcome.andThen_succeed]
    dsimp only
    rw [if_neg (show ¬ m.ns ≠ m.ref.ns from not_not_intro rfl)]
    rfl
  have removed : site.outcome (executeRemovals connections [m] ([m].map (·.ns)).eraseDups) =
      .succeed () (site.setKeys c.server ks) := by
    rw [@executeRemovals_one connections [m] m.ns fun other inside => by
      rw [List.mem_singleton.mp inside], List.flatMap_singleton]
    exact Reaches.execute_unchecked h runs (removal_unchecked m)
  refine ⟨ks, unregisters, ?_⟩
  unfold delete
  rw [Site.outcome_bind, Site.outcome_connected own, Outcome.andThen_succeed, Site.outcome_bind,
    loaded, Outcome.andThen_succeed, Site.outcome_bind, removed, Outcome.andThen_succeed,
    Site.outcome_invalidate]
  rfl

/-- A read or a write of an expired series, which the client may know from its cache. -/
theorem guarded_expired {α : Type} (h : Reaches site connections ref.ns c node)
    (own : site.client.connections = some connections) (order : Orderly node.keyspace)
    (record : HoldsRecord node.keyspace ref m)
    (cached : ∀ m', site.client.cache.get? ref = some m' → m' = m) {now : UInt64}
    (expired : m.isExpired now = true) (act : SeriesMetadata → Task α) :
    ∃ ks, Unregisters node.keyspace m ks ∧ site.outcome (guarded now ref act) =
      .fail .seriesExpired
        (((site.remember ref (some m)).setKeys c.server ks).invalidate [ref]) := by
  obtain ⟨_, cat, wf, holds⟩ := order ref.ns
  have ns : m.ns = ref.ns := congrArg SeriesRef.ns record.choose_spec.2.2
  have there : cat.records ref.id = some m := (holds.holdsRecord_iff wf ref.id m).mp record
  have known : (site.client.cache.get? ref).or (cat.records ref.id) = some m := by
    cases found : site.client.cache.get? ref with
    | none => exact there
    | some m' => exact congrArg some (cached m' found)
  have accessed : site.outcome (access now ref) =
      .succeed (.expired m) (site.remember ref (some m)) := by
    have looked := h.cachedMetadata holds ref.id
    dsimp only at looked
    rw [known] at looked
    unfold access
    rw [Site.outcome_bind, Site.outcome_connected own, Outcome.andThen_succeed, Site.outcome_bind,
      looked, Outcome.andThen_succeed, Site.outcome_pure]
    unfold Access.ofMetadata
    dsimp only
    rw [if_neg (not_not_intro ns), if_pos expired]
  obtain ⟨ks, unregisters, deleted⟩ :=
    (h.remember ref (some m)).delete_one own order record
  refine ⟨ks, unregisters, ?_⟩
  unfold guarded
  rw [Site.outcome_bind, accessed, Outcome.andThen_succeed]
  dsimp only
  rw [Site.outcome_bind, deleted, Outcome.andThen_succeed, Site.outcome_throw]

/-- An access to a series that is neither cached nor there. -/
theorem access_unknown (h : Reaches site connections ref.ns c node)
    (own : site.client.connections = some connections) (order : Orderly node.keyspace)
    (gone : node.keyspace.get? (Key.descriptor ref) = none)
    (uncached : site.client.cache.get? ref = none) (now : UInt64) :
    site.outcome (access now ref) = .succeed .unknown site := by
  obtain ⟨_, cat, _, holds⟩ := order ref.ns
  have none := holds.records_eq_none gone
  have looked := h.cachedMetadata holds ref.id
  dsimp only at looked
  rw [none, show (⟨ref.ns, ref.id⟩ : SeriesRef) = ref from rfl, uncached] at looked
  unfold access
  rw [Site.outcome_bind, Site.outcome_connected own, Outcome.andThen_succeed, Site.outcome_bind,
    looked, Outcome.andThen_succeed, Site.outcome_pure]
  rfl

/-- A deletion of a series that is not there. -/
theorem delete_unknown (h : Reaches site connections ref.ns c node)
    (own : site.client.connections = some connections) (order : Orderly node.keyspace)
    (gone : node.keyspace.get? (Key.descriptor ref) = none) :
    site.outcome (delete [ref]) = .fail .metadataNotFound site := by
  obtain ⟨_, cat, _, holds⟩ := order ref.ns
  have none := holds.records_eq_none gone
  have loaded := h.loadMetadata holds ref.id
  rw [none] at loaded
  unfold delete loadBatch
  rw [Site.outcome_bind, Site.outcome_connected own, Outcome.andThen_succeed, Site.outcome_bind,
    Site.outcome_bind, loaded]
  rfl

/-- A search for a name that is not there. -/
theorem search_unknown {query : Search} (h : Reaches site connections query.ns c node)
    (own : site.client.connections = some connections) (valid : query.validate = .ok ())
    (gone : node.keyspace.get? (Key.name query.ns query.name) = none) :
    site.outcome (search query) = .succeed [] site := by
  unfold search
  rw [Site.outcome_bind, Site.outcome_ofExcept, valid]
  rw [Outcome.andThen_eq_of_ok rfl, Outcome.state_answered, Site.outcome_bind,
    Site.outcome_connected own, Outcome.andThen_succeed, Site.outcome_bind,
    h.lookupName_absent gone]
  rfl

end Reaches

/-! ## On calm servers -/

/-- A calm server is its node, with nothing prepared. -/
theorem servers_eq_of_calm {stage : Stage} (calm : stage.Calm) :
    stage.servers = stage.network.nodes.map fun node => ⟨node.password, node.keyspace, [], []⟩ := by
  show stage.servers = (stage.servers.map Server.Rehearsal.node).map _
  rw [List.map_map]
  refine (List.map_id' _).symm.trans (List.map_congr_left fun r inside => ?_)
  obtain ⟨password, keyspace, faults, interventions⟩ := r
  obtain ⟨rfl, rfl⟩ := calm _ inside
  rfl

/-- Where a network has got other keys, so have the servers. -/
theorem servers_eq_of_setKeys {stage left : Stage} (calm : stage.Calm) (calm' : left.Calm)
    {server : Nat} {ks : Keyspace} (same : left.network = stage.network.setKeys server ks) :
    left.servers = stage.servers.modify server fun r => { r with keyspace := ks } := by
  rw [servers_eq_of_calm calm', same, servers_eq_of_calm calm]
  refine List.ext_getElem? fun i => ?_
  rw [List.getElem?_map, Network.getElem?_setKeys, List.getElem?_modify, List.getElem?_map]
  split <;> cases stage.network.nodes[i]? <;> rfl

/-- What is left after a series was deleted: the client has forgotten it, and the server of its
namespace has other keys, without the series. -/
structure Expels (site : Site Stage) (ref : SeriesRef) (m : SeriesMetadata) (left : Site Stage) :
    Prop where
  uncached : left.client.cache.get? ref = none
  pending : left.client.pending = site.client.pending
  connections : left.client.connections = site.client.connections
  servers : ∃ connections c r ks, site.client.connections = some connections ∧
    connections.route ref.ns = .ok c ∧ site.world.servers[c.server]? = some r ∧
    Unregisters r.keyspace m ks ∧
    left.world.servers = site.world.servers.modify c.server fun r => { r with keyspace := ks }

variable {site left : Site Stage} {ref : SeriesRef} {m : SeriesMetadata}

/-- **The visit that finds a series expired** fails, and deletes it. -/
theorem Sound.visit_expired (h : Sound site) (there : Matched site ref m) {v : Visit}
    (expired : m.isExpired v.time.seconds = true) (accesses : v.call.accessed? = some ref) :
    (site.visit v).answer = .error .seriesExpired ∧ Expels site ref m (site.visit v).state := by
  obtain ⟨_, serves, record⟩ := there
  obtain ⟨connections, c, node, own, reaches, rfl⟩ := serves.reaches
  have cached : ∀ m', site.client.cache.get? ref = some m' → m' = m := by
    intro m' found
    rcases h.intact.cached ref m' found with stale | ⟨ks, serves', record'⟩ | gone
    · exact stale.elim
    · rw [serves'.unique serves] at record'
      exact record'.unique record
    · exact gone.1.elim
  obtain ⟨act, task, _, visited, _⟩ := Deployment.Hosts.exists_guarded accesses
  obtain ⟨ks, unregisters, ran⟩ := reaches.guarded_expired own
    (h.inOrder c.server node reaches.node) record cached expired task
  obtain ⟨same, calm⟩ := site.outcome_network h.calm (guarded v.time.seconds ref task)
  rw [← visited site v.time] at same calm
  rw [ran] at same
  have after := congrArg Outcome.state same
  have client := congrArg (fun net : Site Network => net.client) after
  change (site.visit v).state.client = { site.client with
    cache := (site.client.cache.insert ref m).invalidate [ref] } at client
  refine ⟨congrArg Outcome.answer same, ?_, ?_, ?_, connections, c, ?_⟩
  · rw [client]
    cases found : ((site.client.cache.insert ref m).invalidate [ref]).get? ref with
    | none => rfl
    | some m' => exact absurd (List.mem_singleton_self ref) (Cache.get?_of_invalidate found).1
  · rw [client]
  · rw [client]
  · have found := reaches.node
    rw [nodes_onNetwork] at found
    obtain ⟨r, stands, rfl⟩ := Option.map_eq_some_iff.mp found
    exact ⟨r, ks, own, reaches.route, stands, unregisters,
      servers_eq_of_setKeys h.calm calm (congrArg (fun net : Site Network => net.world) after)⟩

namespace Expels

/-- The server of its namespace has neither the record nor the name. -/
theorem reaches (h : Expels site ref m left) (own : m.ref = ref) : ∃ connections c node,
    left.onNetwork.client.connections = some connections ∧
      Reaches left.onNetwork connections ref.ns c node ∧
      node.keyspace.get? (Key.descriptor ref) = none ∧
      node.keyspace.get? (Key.name ref.ns m.name) = none := by
  subst own
  obtain ⟨connections, c, r, ks, connected, route, found, unregisters, servers⟩ := h.servers
  refine ⟨connections, c, ⟨r.password, ks⟩, h.connections.trans connected, ⟨route, ?_⟩,
    unregisters.record, unregisters.name⟩
  rw [nodes_onNetwork, servers, List.getElem?_modify, found]
  simp [Server.Rehearsal.node]

/-- A later read or write does not find the series. -/
theorem visit_accessed (h : Expels site ref m left) (own : m.ref = ref) (sound : Sound left)
    {w : Visit} (accesses : w.call.accessed? = some ref) :
    (left.visit w).answer = .error .metadataNotFound := by
  obtain ⟨connections, c, node, connected, reaches, gone, _⟩ := h.reaches own
  obtain ⟨act, task, _, visited, _⟩ := Deployment.Hosts.exists_guarded accesses
  obtain ⟨same, _⟩ := left.outcome_network sound.calm (guarded w.time.seconds ref task)
  rw [← visited left w.time] at same
  refine (congrArg Outcome.answer same).trans ?_
  unfold guarded
  rw [Site.outcome_bind, reaches.access_unknown connected
    (sound.inOrder c.server node reaches.node) gone h.uncached]
  rfl

/-- A later deletion does not find it. -/
theorem visit_delete (h : Expels site ref m left) (own : m.ref = ref) (sound : Sound left)
    (time : Instant) : (left.visit ⟨time, .delete [ref]⟩).answer = .error .metadataNotFound := by
  obtain ⟨connections, c, node, connected, reaches, gone, _⟩ := h.reaches own
  obtain ⟨answer, _⟩ := left.visit_network sound.calm ⟨time, .delete [ref]⟩
  rw [answer]
  show (left.onNetwork.outcome (delete [ref] >>= _)).answer = _
  rw [Site.outcome_bind, reaches.delete_unknown connected
    (sound.inOrder c.server node reaches.node) gone]
  rfl

/-- A later search for its name finds nothing. -/
theorem visit_search (h : Expels site ref m left) (own : m.ref = ref) (sound : Sound left)
    (time : Instant) {query : Search} (valid : query.validate = .ok ()) (ns : query.ns = ref.ns)
    (name : query.name = m.name) :
    (left.visit ⟨time, .search query⟩).answer = .ok (.found []) := by
  obtain ⟨connections, c, node, connected, reaches, _, gone⟩ := h.reaches own
  obtain ⟨answer, _⟩ := left.visit_network sound.calm ⟨time, .search query⟩
  rw [← ns] at reaches
  rw [← ns, ← name] at gone
  rw [answer]
  show (left.onNetwork.outcome (search query >>= _)).answer = _
  rw [Site.outcome_bind, reaches.search_unknown connected valid gone]
  rfl

end Expels

/-! ## In a deployment -/

open Deployment (Hosts)

/-- **Access to an expired series of a client.**  A deployment hosts a client that was just made,
with empty and calm servers at all addresses, among any stores.  After any events, a read or a write
of a series whose record has expired says so, if expired series of the client are deleted from
itself.  Then the series is forgotten, and nothing else is: the next read, write or deletion does
not find it, and a search for its name finds nothing. -/
theorem visitAt_expels {options : Options} {start : Deployment} {place : Nat}
    {first : Option Link} (fresh : start.Hosts place ⟨.ofOptions options, start.stage⟩ first)
    (calm : start.stage.Calm) (empty : ∀ r ∈ start.stage.servers, r.keyspace = .empty)
    (listening : ∀ l ∈ start.stage.listeners, l.server < start.stage.servers.length)
    (events : List Event) {site : Site Stage} {link : Option Link}
    (here : (start.run events).2.Hosts place site link) (deletes : DeletesAt place link)
    {ref : SeriesRef} {m : SeriesMetadata} (there : Matched site ref m) {last : UInt64}
    (ends : m.expireAt = some last) {v : Visit} (passed : last < v.time.seconds)
    (accesses : v.call.accessed? = some ref) :
    let outcome := (start.run events).2.visitAt place v
    outcome.answer = .error .seriesExpired ∧
      (∃ left, outcome.state.Hosts place left link ∧ Expels site ref m left) ∧
      (∀ w : Visit, w.call.accessed? = some ref →
        (outcome.state.visitAt place w).answer = .error .metadataNotFound) ∧
      (∀ time, (outcome.state.visitAt place ⟨time, .delete [ref]⟩).answer =
        .error .metadataNotFound) ∧
      ∀ time query, query.validate = .ok () → query.ns = ref.ns → query.name = m.name →
        (outcome.state.visitAt place ⟨time, .search query⟩).answer = .ok (.found []) := by
  intro outcome
  obtain ⟨site', link', hosts, turns⟩ := Deployment.hosts_run fresh events
  obtain ⟨rfl, rfl⟩ := here.unique hosts
  have sound : Sound site := sound_of_turns (sound_ofOptions calm empty listening options) turns
  have visit := here.visitAt deletes v
  have own : m.ref = ref := there.choose_spec.2.choose_spec.2.2
  obtain ⟨answer, expels⟩ :=
    sound.visit_expired there ((m.isExpired_iff _).mpr ⟨last, ends, passed⟩) accesses
  have later := sound.visit v
  refine ⟨visit.answer.trans answer, ⟨_, visit.hosts, expels⟩, fun w again => ?_, fun time => ?_,
    fun time query valid ns name => ?_⟩
  · rw [(visit.hosts.visitAt deletes w).answer]
    exact expels.visit_accessed own later again
  · rw [(visit.hosts.visitAt deletes _).answer]
    exact expels.visit_delete own later time
  · rw [(visit.hosts.visitAt deletes _).answer]
    exact expels.visit_search own later time valid ns name

/-- The connections of a backend, if it is a client that has any. -/
def connectionsOf : Backend → Option Connections
  | .memory _ => none
  | .remote client => client.connections

/-- A tagged series with a point that is soon to expire, on a client that is linked back to
itself. -/
def shortLived : List Event :=
  [.call 0 ⟨⟨0⟩, .connect⟩,
    .call 0 ⟨⟨0⟩, .create (fun _ => ⟨"token", 0⟩) [(⟨1⟩, ⟨⟨0⟩, "load", ["a"], some 3⟩)]⟩,
    .call 0 ⟨⟨1000⟩, .write ⟨⟨0⟩, ⟨1⟩⟩ .empty (fun _ _ => .zero) [5] [.ofUInt64 3]⟩,
    .link 0 ⟨.backend 0, true⟩]

/-- Two seconds later a read deletes the series. -/
theorem visitAt_expels_shortLived :
    let d := ((Deployment.lone (.remote (.ofOptions oneNamespace)) sharedServer ⟨0⟩).run
      shortLived).2
    ∃ site left link, d.Hosts 0 site link ∧
      (d.visitAt 0 ⟨⟨5000⟩, .read ⟨⟨0⟩, ⟨1⟩⟩ ⟨0, 10⟩⟩).answer = .error .seriesExpired ∧
      Expels site ⟨⟨0⟩, ⟨1⟩⟩ ⟨⟨1⟩, ⟨0⟩, "load", ["a"], some 3⟩ left := by
  intro d
  obtain ⟨calm, empty⟩ :=
    Stage.calm_started (show sharedServer.servers = [""].map .withPassword from rfl)
  have fresh : (Deployment.lone (.remote (.ofOptions oneNamespace)) sharedServer ⟨0⟩).Hosts 0
      ⟨.ofOptions oneNamespace, sharedServer⟩ none := by
    refine ⟨rfl, rfl, fun k p elsewhere found => ?_⟩
    obtain ⟨k, rfl⟩ := Nat.exists_eq_succ_of_ne_zero elsewhere
    cases found
  have listening : ∀ l ∈ sharedServer.listeners, l.server < sharedServer.servers.length := by
    decide
  have connected : (d.participants[0]?.map fun p => (connectionsOf p.backend, p.link)) =
      some (some [(⟨0⟩, ⟨0, true⟩)], some ⟨.backend 0, true⟩) := by decide +kernel
  have stored : (d.stage.servers[0]?.map fun r =>
      r.keyspace.string? (Key.descriptor ⟨⟨0⟩, ⟨1⟩⟩)) = some (.ok (some
        (SeriesMetadata.encode ⟨⟨1⟩, ⟨0⟩, "load", ["a"], some 3⟩))) := by decide +kernel
  obtain ⟨site, link, here, _⟩ := Deployment.hosts_run fresh shortLived
  change d.Hosts 0 site link at here
  rw [here.here] at connected
  rw [here.stage] at stored
  obtain ⟨own, rfl⟩ := Prod.mk.inj (Option.some.inj connected)
  obtain ⟨r, found, text⟩ := Option.map_eq_some_iff.mp stored
  have there : Matched site ⟨⟨0⟩, ⟨1⟩⟩ ⟨⟨1⟩, ⟨0⟩, "load", ["a"], some 3⟩ :=
    ⟨r.keyspace, ⟨_, ⟨0, true⟩, r, own, rfl, found, rfl⟩, _, text, SeriesMetadata.decode_encode _,
      rfl⟩
  have deletes : DeletesAt 0 (some ⟨.backend 0, true⟩) := by
    intro l linked _
    rw [← Option.some.inj linked]
  obtain ⟨answer, ⟨left, _, expels⟩, _⟩ := visitAt_expels fresh calm empty listening shortLived
    here deletes there rfl (v := ⟨⟨5000⟩, .read ⟨⟨0⟩, ⟨1⟩⟩ ⟨0, 10⟩⟩) (by decide) rfl
  exact ⟨site, left, _, here, answer, expels⟩

end Remote

end SeriesStorage
