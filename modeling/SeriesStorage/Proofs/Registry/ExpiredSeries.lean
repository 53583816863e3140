import SeriesStorage.Proofs.Registry.Assembly
import SeriesStorage.Proofs.Remote.ExpiredSeries

/-!
# Expired series of a registry

The backend of a registry reports the series that it finds expired, and the report comes back to
itself as a deletion through the backend that holds descriptors (`Registry.Wired.use_expired`).  If
no command of a server fails the deletion succeeds, and afterwards no search finds the series: for a
store in memory because its descriptors have names of their own, for a client because it is not let
down (`Sound`).

`assemble_wires` says all of a registry: what it can be made of, where its calls go, and what
becomes of its expired series.
-/

namespace SeriesStorage

open Memory (Store)
open Server (Stage)

/-! ## Reports -/

theorem Access.ofMetadata_eq_expired {found : Option SeriesMetadata} {ns : Namespace}
    {now : UInt64} {m : SeriesMetadata} (h : ofMetadata found ns now = .expired m) :
    found = some m ∧ m.ns = ns ∧ m.isExpired now = true := by
  unfold ofMetadata at h
  split at h
  · cases h
  · split at h
    · cases h
    · next same =>
      split at h
      · next gone =>
        obtain rfl := Access.expired.inj h
        exact ⟨rfl, not_not.mp same, gone⟩
      · cases h

namespace Deployment

variable {d : Deployment} {place k : Nat} {ref : SeriesRef} {m : SeriesMetadata} {call : Call}

/-- A deletion as a call answers that it is done. -/
theorem perform_delete (d : Deployment) (place : Nat) (refs : List SeriesRef) :
    d.perform place (.delete refs) = (d.delete place refs).map fun _ => .done := by
  show d.onBackend place (fun s => s.perform d.now.seconds (.delete refs))
    ((fun _ => .done) <$> Remote.delete refs) = (d.onBackend place _ _).map _
  cases here : d.participants[place]? with
  | none =>
    unfold onBackend
    rw [here]
    rfl
  | some participant =>
    obtain ⟨store | client, link⟩ := participant
    · rw [(onBackend_memory here _ _).1, (onBackend_memory here _ _).1]
      rfl
    · rw [onBackend_remote here, onBackend_remote here, Remote.Site.outcome_map]
      rfl

/-- A backend that is linked reports the series that it finds expired, and then it is deleted from
where the link leads, before the call fails. -/
theorem perform_reports (linked : ∃ backend,
      (d.access place ref).state.participants[place]? = some ⟨backend, some ⟨.backend k, true⟩⟩)
    (found : (d.access place ref).answer = .ok (.expired m)) (accesses : call.accessed? = some ref) :
    d.perform place call =
      (((d.access place ref).state.report [ref]).perform k (.delete [ref])).andThen
        fun _ d => .fail .seriesExpired d := by
  obtain ⟨act, _, performed, _, _⟩ := Hosts.exists_guarded accesses
  obtain ⟨backend, here⟩ := linked
  rw [performed, perform_delete]
  unfold guarded
  rw [Outcome.andThen_eq_of_ok found]
  dsimp only
  unfold expire
  rw [here, Option.bind_some]
  dsimp only
  generalize ((d.access place ref).state.report [ref]).delete k [ref] = outcome
  obtain ⟨answer, state⟩ := outcome
  cases answer <;> rfl

end Deployment

namespace Registry

variable {r : Registry} {options : BackendOptions} {kind : BackendKind}

/-- **What a request finds expired is reported**, and deleted through the backend that holds
descriptors, which is the one that found it. -/
theorem Wired.use_expired (h : r.Wired options kind) {context : RequestContext} {v : Visit}
    {ref : SeriesRef} {m : SeriesMetadata} (accesses : v.call.accessed? = some ref)
    (found : ((r.setTime v.time).deployment.access r.metadataStore ref).answer =
      .ok (.expired m)) :
    let left := ((r.setTime v.time).deployment.access r.metadataStore ref).state
    r.use (.request context v) =
      ({ r with deployment := left.report [ref] }.performOnMetadata (.delete [ref])).andThen
        fun _ r => .fail .seriesExpired r := by
  intro left
  have same : left.wiring = (r.setTime v.time).deployment.wiring :=
    Deployment.wiring_onBackend _ _ _ _
  obtain ⟨backend, _, only⟩ := (h.withDeployment (d := left) same).participant
  have called := h.use_eq (.request context v)
  obtain ⟨all, selector, store, deployment⟩ := r
  obtain rfl : store = 0 := h.metadataStore
  have performed : deployment.visitAt 0 v = ((left.report [ref]).perform 0 (.delete [ref])).andThen
      fun _ d => .fail .seriesExpired d :=
    Deployment.perform_reports ⟨backend, congrArg (·[0]?) only⟩ found accesses
  rw [called]
  show Outcome.mk (deployment.visitAt 0 v).answer _ = _
  rw [show (Use.request context v).visit = v from rfl, performed]
  unfold performOnMetadata
  dsimp only
  generalize (left.report [ref]).perform 0 (.delete [ref]) = outcome
  obtain ⟨answer, state⟩ := outcome
  cases answer <;> rfl

end Registry

/-! ## What searches find afterwards -/

/-- No search at a place finds a series, and a search for its name finds nothing. -/
structure Deployment.Misses (d : Deployment) (place : Nat) (ref : SeriesRef) (m : SeriesMetadata) :
    Prop where
  never : ∀ time query refs,
    (d.visitAt place ⟨time, .search query⟩).answer = .ok (.found refs) → ref ∉ refs
  byName : ∀ time (query : Search), query.validate = .ok () → query.ns = ref.ns →
    query.name = m.name → (d.visitAt place ⟨time, .search query⟩).answer = .ok (.found [])

section Stores

variable {s : Store} {ref : SeriesRef} {m : SeriesMetadata}

/-- The series that a search of a store finds have descriptors. -/
theorem Memory.Store.records_of_search {query : Search} {refs : List SeriesRef}
    (found : s.search query = .ok refs) : ∀ r ∈ refs, s.records.contains r.id = true := by
  unfold search at found
  obtain ⟨_, _, found⟩ := exists_of_bind found
  obtain ⟨id, looked, found⟩ := exists_of_bind found
  cases id with
  | none =>
    obtain rfl := Except.ok.inj found
    exact nofun
  | some id =>
    obtain rfl := Except.ok.inj found
    intro r inside
    obtain rfl := List.mem_singleton.mp inside
    unfold lookupName at looked
    split at looked
    · cases looked
    · split at looked
      · next there =>
        obtain rfl := Option.some.inj (Except.ok.inj looked)
        exact there
      · cases looked

/-- A search of a store for a name that is not there finds nothing. -/
theorem Memory.Store.search_absent {query : Search} (valid : query.validate = .ok ())
    (absent : s.names.get? (query.ns, query.name) = none) : s.search query = .ok [] := by
  unfold search lookupName
  rw [valid, absent]
  rfl

namespace Deployment

variable {d : Deployment} {place : Nat} {link : Option Link} {call : Call}

/-- A search is a search of the store at its place. -/
theorem visitAt_search_memory (here : d.participants[place]? = some ⟨.memory s, link⟩)
    (time : Instant) (query : Search) :
    (d.visitAt place ⟨time, .search query⟩).answer = (s.search query).map .found := by
  show ((d.setTime time).onBackend place _ _).answer = _
  rw [(onBackend_memory (d := d.setTime time) here _ _).1]
  rfl

/-- What a store has lost is missed. -/
theorem misses_of_forgets {after : Store} (forgets : s.Forgets ref m after) (owner : m.ns = ref.ns)
    (here : d.participants[place]? = some ⟨.memory after, link⟩) : d.Misses place ref m where
  never := by
    intro time query refs found inside
    rw [visitAt_search_memory here] at found
    cases searched : after.search query with
    | error e =>
      rw [searched] at found
      cases found
    | ok refs' =>
      rw [searched] at found
      obtain rfl : refs' = refs := Answer.found.inj (Except.ok.inj found)
      have there := Store.records_of_search searched ref inside
      rw [Table.contains, forgets.record] at there
      cases there
  byName := by
    intro time query valid ns name
    have absent : after.names.get? (query.ns, query.name) = none := by
      rw [ns, name, ← owner]
      exact forgets.name
    rw [visitAt_search_memory here, Store.search_absent valid absent]
    rfl

/-- What a store finds expired is deleted from it, and then it is missed. -/
theorem expired_memory (here : d.participants[place]? = some ⟨.memory s, link⟩)
    (described : s.Described) (deletes : DeletesAt place link)
    (found : (d.access place ref).answer = .ok (.expired m)) (accesses : call.accessed? = some ref) :
    (d.perform place call).answer = .error .seriesExpired ∧
      (d.perform place call).state.Misses place ref m := by
  rw [access_memory here] at found
  have found : s.access d.now.seconds ref = .expired m := Except.ok.inj found
  obtain ⟨there, owner, _⟩ := Access.ofMetadata_eq_expired found
  obtain ⟨done, left⟩ := expire_memory here ⟨m, there, owner⟩ deletes
  rw [perform_expired here found accesses, Outcome.andThen_eq_of_ok done]
  exact ⟨rfl, misses_of_forgets (described.forgets there owner) owner left⟩

end Deployment

end Stores

/-! ## Clients -/

namespace Remote

/-- Servers on which no command fails: nothing is prepared for them, addresses lead to servers that
are there, and keys are in order. -/
structure Reliable (stage : Stage) : Prop where
  calm : stage.Calm
  listening : ∀ l ∈ stage.listeners, l.server < stage.servers.length
  inOrder : ∀ r ∈ stage.servers, Orderly r.keyspace

/-- Keys in order file every descriptor. -/
theorem Orderly.filed {ks : Server.Keyspace} (h : Orderly ks) (ns : Namespace) :
    ∃ given, Filed ks ns given := by
  obtain ⟨_, cat, wf, holds⟩ := h ns
  refine ⟨cat.lastId, holds.counter, wf.bounded, fun id e found => ?_⟩
  rw [holds.records id] at found
  cases record : cat.records id with
  | none =>
    rw [record] at found
    cases found
  | some m =>
    obtain ⟨rfl, rfl, _⟩ := wf.described id m record
    rw [record] at found
    exact ⟨m, found.symm, rfl, wf.counted m.id m record⟩

/-- A client that was just made is sound with reliable servers. -/
theorem Reliable.sound {stage : Stage} (h : Reliable stage) (options : Options) :
    Sound ⟨.ofOptions options, stage⟩ where
  listening := h.listening
  connected := nofun
  calm := h.calm
  inOrder := by
    intro i node found
    rw [nodes_onNetwork] at found
    obtain ⟨r, there, rfl⟩ := Option.map_eq_some_iff.mp found
    exact h.inOrder r (List.mem_of_getElem? there)
  intact := by
    refine ⟨fun r inside => (h.calm r inside).interventions, fun r inside ns =>
      (h.inOrder r inside).filed ns, pointsOnly_empty, nofun⟩

/-- What a sound client finds expired is what the server of its namespace has. -/
theorem Sound.matched {site : Site Stage} (h : Sound site) {now : UInt64} {ref : SeriesRef}
    {m : SeriesMetadata}
    (found : (site.outcome (Remote.access now ref)).answer = .ok (.expired m)) :
    Matched site ref m ∧ m.isExpired now = true := by
  unfold Remote.access at found
  rw [Site.outcome_bind] at found
  cases own : site.client.connections with
  | none =>
    rw [Site.outcome_connected_none own] at found
    cases found
  | some connections =>
    rw [Site.outcome_connected own, Outcome.andThen_succeed, Site.outcome_bind] at found
    obtain ⟨known, looked, found⟩ := Outcome.answer_andThen_eq_ok_iff.mp found
    obtain ⟨rfl, _, gone⟩ := Access.ofMetadata_eq_expired (Except.ok.inj found)
    refine ⟨?_, gone⟩
    cases cached : site.client.cache.get? ref with
    | some m' =>
      unfold cachedMetadata at looked
      rw [Site.outcome_bind, Site.outcome_get, Outcome.andThen_succeed, cached] at looked
      obtain rfl := Option.some.inj (Except.ok.inj looked)
      rcases h.intact.cached ref m' cached with stale | matched | lost
      · exact stale.elim
      · exact matched
      · exact lost.1.elim
    | none =>
      rcases served_or_unserved site.world connections ref.ns with ⟨c, r, route, stands⟩ | unserved
      · have reaches : Reaches site.onNetwork connections ref.ns c r.node :=
          ⟨route, (site.world.getElem?_network c.server).trans (by rw [stands]; rfl)⟩
        obtain ⟨_, cat, wf, holds⟩ := h.inOrder c.server r.node reaches.node ref.ns
        have answered := congrArg Outcome.answer
          (site.outcome_network h.calm (cachedMetadata connections ref)).1
        rw [show ref = ⟨ref.ns, ref.id⟩ from rfl, reaches.cachedMetadata holds ref.id] at answered
        have record : cat.records ref.id = some m := by
          have same := Except.ok.inj (looked.symm.trans answered)
          rw [show site.onNetwork.client.cache.get? ⟨ref.ns, ref.id⟩ = none from cached,
            Option.none_or] at same
          exact same.symm
        exact ⟨_, reaches.serves own, (holds.holdsRecord_iff wf ref.id m).mpr record⟩
      · unfold cachedMetadata loadMetadata at looked
        obtain ⟨e, failed⟩ := unserved.ask (.get (Key.descriptor ref)) textOrNothing
        rw [Site.outcome_bind, Site.outcome_get, Outcome.andThen_succeed, cached] at looked
        dsimp only at looked
        rw [Site.outcome_bind, Site.outcome_bind, failed] at looked
        cases looked

/-- The series that a search finds belong to its namespace. -/
theorem ns_of_search {σ : Type} [World σ] {site : Site σ} {query : Search} {refs : List SeriesRef}
    (found : (site.outcome (search query)).answer = .ok refs) : ∀ r ∈ refs, r.ns = query.ns := by
  unfold search at found
  rw [Site.outcome_bind] at found
  obtain ⟨_, _, found⟩ := Outcome.answer_andThen_eq_ok_iff.mp found
  rw [Site.outcome_bind] at found
  obtain ⟨connections, _, found⟩ := Outcome.answer_andThen_eq_ok_iff.mp found
  rw [Site.outcome_bind] at found
  obtain ⟨id, _, found⟩ := Outcome.answer_andThen_eq_ok_iff.mp found
  cases id with
  | none =>
    obtain rfl := Except.ok.inj found
    exact nofun
  | some id =>
    dsimp only at found
    rw [Site.outcome_bind] at found
    obtain ⟨known, _, found⟩ := Outcome.answer_andThen_eq_ok_iff.mp found
    cases known with
    | none => cases found
    | some m =>
      obtain rfl := Except.ok.inj found
      intro r inside
      rw [List.mem_singleton.mp inside]

/-- A search that finds a series finds its descriptor, in the cache or on its server. -/
theorem Reaches.search_found {site : Site Server.Network} {connections : Connections}
    {c : Connection} {node : Server.Node} {cat : Catalogue} {query : Search} {refs : List SeriesRef}
    (h : Reaches site connections query.ns c node)
    (own : site.client.connections = some connections) (holds : Holds node.keyspace query.ns cat)
    (found : (site.outcome (search query)).answer = .ok refs) :
    ∀ r ∈ refs, ((site.client.cache.get? r).or (cat.records r.id)).isSome = true := by
  unfold search at found
  rw [Site.outcome_bind, Site.outcome_ofExcept] at found
  obtain ⟨_, _, found⟩ := Outcome.answer_andThen_eq_ok_iff.mp found
  rw [Outcome.state_answered, Site.outcome_bind, Site.outcome_connected own,
    Outcome.andThen_succeed, Site.outcome_bind, h.lookupName (holds.names query.name),
    Outcome.andThen_succeed] at found
  cases named : cat.names query.name with
  | none =>
    rw [named] at found
    obtain rfl := Except.ok.inj found
    exact nofun
  | some id =>
    rw [named] at found
    dsimp only at found
    rw [Site.outcome_bind, h.cachedMetadata holds id, Outcome.andThen_succeed] at found
    intro r inside
    cases known : (site.client.cache.get? ⟨query.ns, id⟩).or (cat.records id) with
    | none =>
      rw [known] at found
      cases found
    | some m =>
      rw [known] at found
      obtain rfl := Except.ok.inj found
      rw [List.mem_singleton.mp inside, known]
      rfl

/-- No search finds a series that was deleted. -/
theorem Expels.not_found {site left : Site Stage} {ref : SeriesRef} {m : SeriesMetadata}
    (h : Expels site ref m left) (own : m.ref = ref) (sound : Sound left) {time : Instant}
    {query : Search} {refs : List SeriesRef}
    (found : (left.visit ⟨time, .search query⟩).answer = .ok (.found refs)) : ref ∉ refs := by
  intro inside
  obtain ⟨connections, c, node, connected, reaches, gone, _⟩ := h.reaches own
  obtain ⟨answer, _⟩ := left.visit_network sound.calm ⟨time, .search query⟩
  rw [answer] at found
  change (left.onNetwork.outcome (Answer.found <$> search query)).answer = _ at found
  rw [Site.outcome_map] at found
  cases searched : (left.onNetwork.outcome (search query)).answer with
  | error e =>
    rw [Outcome.answer_map, searched] at found
    cases found
  | ok refs' =>
    rw [Outcome.answer_map, searched] at found
    obtain rfl : refs' = refs := Answer.found.inj (Except.ok.inj found)
    have same := ns_of_search searched ref inside
    rw [same] at reaches
    obtain ⟨_, cat, _, holds⟩ := sound.inOrder c.server node reaches.node query.ns
    have known := reaches.search_found connected holds searched ref inside
    have uncached : left.onNetwork.client.cache.get? ref = none := h.uncached
    rw [(same ▸ holds : Holds _ ref.ns cat).records_eq_none gone, uncached] at known
    cases known

end Remote

namespace Deployment

open Remote (Site Sound)

/-- What a client finds expired is deleted from its servers, and then it is missed. -/
theorem Hosts.expired {d : Deployment} {place : Nat} {site : Site Stage} {link : Option Link}
    (h : d.Hosts place site link) (sound : Sound site) (deletes : DeletesAt place link) {v : Visit}
    {ref : SeriesRef} {m : SeriesMetadata}
    (found : ((d.setTime v.time).access place ref).answer = .ok (.expired m))
    (accesses : v.call.accessed? = some ref) :
    (d.visitAt place v).answer = .error .seriesExpired ∧
      (d.visitAt place v).state.Misses place ref m := by
  have accessed : Plays place link ((d.setTime v.time).access place ref)
      (site.outcome (Remote.access v.time.seconds ref)) := (h.setTime v.time).onBackend _ _
  obtain ⟨matched, gone⟩ := sound.matched (accessed.answer.symm.trans found)
  have own : m.ref = ref := matched.choose_spec.2.choose_spec.2.2
  obtain ⟨answer, expels⟩ := sound.visit_expired matched gone accesses
  have visit := h.visitAt deletes v
  refine ⟨visit.answer.trans answer, ?_, ?_⟩
  · intro time query refs listed
    rw [(visit.hosts.visitAt deletes _).answer] at listed
    exact expels.not_found own (sound.visit v) listed
  · intro time query valid ns name
    rw [(visit.hosts.visitAt deletes _).answer]
    exact expels.visit_search own (sound.visit v) time valid ns name

end Deployment

/-! ## In a registry -/

theorem Deployment.run_append (d : Deployment) (first later : List Event) :
    (d.run (first ++ later)).2 = ((d.run first).2.run later).2 := by
  induction first generalizing d with
  | nil => rfl
  | cons event rest ih =>
    cases event with
    | call place v => exact ih (d.visitAt place v).state
    | link place link => exact ih (d.setLink place link)

/-- The metadata facade of a registry finds a series no more: no search finds it, and a search for
its name finds nothing. -/
def Registry.Misses (r : Registry) (ref : SeriesRef) (m : SeriesMetadata) : Prop :=
  (∀ time query refs, (r.use (.metadata ⟨time, .search query⟩)).answer = .ok (.found refs) →
    ref ∉ refs) ∧
  ∀ time (query : Search), query.validate = .ok () → query.ns = ref.ns → query.name = m.name →
    (r.use (.metadata ⟨time, .search query⟩)).answer = .ok (.found [])

/-- **What a registry finds expired is gone**: the call says so, and no search finds the series any
more. -/
theorem RegistryPlan.Builds.expired {plan : RegistryPlan} {now : Instant} {stage : Stage}
    {r : Registry} (built : plan.Builds now stage r)
    (reliable : ∀ options ∈ r.options, BackendKind.ofName options.kind = .ok .redis →
      Remote.Reliable stage)
    (us : List Registry.Use) {context : RequestContext} {v : Visit} {ref : SeriesRef}
    {m : SeriesMetadata} (accesses : v.call.accessed? = some ref)
    (found : (((r.uses us).setTime v.time).deployment.access 0 ref).answer = .ok (.expired m)) :
    ((r.uses us).use (.request context v)).answer = .error .seriesExpired ∧
      ((r.uses us).use (.request context v)).state.Misses ref m := by
  obtain ⟨options, backend, events, made, fresh, ran⟩ := built.wired
  have wired := fresh.uses us
  have later := wired.use (.request context v)
  have reached := fresh.run_uses us
  rw [ran, ← Deployment.run_append] at reached
  obtain ⟨last, same, only⟩ := wired.participant
  have deletes : DeletesAt 0 (some ⟨.backend 0, true⟩) := by
    intro l linked _
    rw [← Option.some.inj linked]
  have here := congrArg (·[0]?) only
  have gone : ((r.uses us).deployment.visitAt 0 v).answer = .error .seriesExpired ∧
      ((r.uses us).deployment.visitAt 0 v).state.Misses 0 ref m := by
    rcases backend_of_ofOptions made with rfl | ⟨settings, rfl⟩
    · obtain ⟨s, rfl⟩ : ∃ s, last = .memory s := by
        cases last with
        | memory s => exact ⟨s, rfl⟩
        | remote client => cases same
      have empty : ∀ store ∈
          ((Registry.single options (.memory .empty) now).among stage).deployment.stores,
          store = .empty := fun store inside => List.mem_singleton.mp inside
      have described := Deployment.described_run empty _ 0 s _ (reached ▸ here)
      exact Deployment.expired_memory (d := (r.uses us).deployment.setTime v.time) here described
        deletes found accesses
    · have hosts : ((Registry.single options (.remote (.ofOptions settings)) now).among
          stage).deployment.Hosts 0 ⟨.ofOptions settings, stage⟩ (some ⟨.backend 0, true⟩) := by
        refine ⟨rfl, rfl, fun k p elsewhere found => ?_⟩
        obtain ⟨k, rfl⟩ := Nat.exists_eq_succ_of_ne_zero elsewhere
        cases found
      obtain ⟨site, link, hosts, turns⟩ := Deployment.hosts_run hosts (events ++ us.map fun u =>
        .call 0 u.visit)
      rw [← reached] at hosts
      obtain ⟨_, rfl⟩ := Participant.mk.inj (Option.some.inj (here.symm.trans hosts.here))
      have serves := reliable options (by rw [fresh.only]; exact List.mem_singleton_self _)
        fresh.known
      exact hosts.expired (Remote.sound_of_turns (serves.sound settings) turns) deletes found accesses
  rw [wired.use_eq] at later ⊢
  refine ⟨gone.1, fun time query refs listed => ?_, fun time query valid ns name => ?_⟩
  · rw [later.use_eq] at listed
    exact gone.2.never time query refs listed
  · rw [later.use_eq]
    exact gone.2.byName time query valid ns name

/-! ## All of a registry -/

/-- **Registries, their wiring, and their expired series.**  A registry can be assembled of no
backend, which stands for one in memory, or of just one that can be made and holds descriptors, with
the simple strategy; anything else is an error of the configuration.  Whatever is built of it among
whatever servers, and whatever is done with it, the backend for every request is the one that holds
descriptors, the one that is registered, and the one that its own reports of expired series come back
to.  A read or a write that finds a series expired has it deleted that way; if no command fails it
says so, and the series is found no more. -/
theorem registry_wires (plan : RegistryPlan) (now : Instant) :
    ((∃ r, plan.assemble now = .ok r) ↔ plan.Acceptable) ∧
    (¬ plan.Acceptable → ∃ cause, plan.assemble now = .error (.config cause)) ∧
    (plan.backends = [] →
      plan.assemble now = (plan.addBackend ⟨"memory", "default", true, []⟩).assemble now) ∧
    (∀ r, plan.build now = .ok r → plan.Builds now ⟨[], [], []⟩ r) ∧
    (∀ r states, plan.buildInBackground now = .ok (r, states) → plan.Builds now ⟨[], [], []⟩ r) ∧
    ∀ stage built, plan.Builds now stage built → ∀ us : List Registry.Use,
      let r := built.uses us
      (∃ options backend, r.options = [options] ∧
        r.find? options.identifier = some r.metadataStore ∧
        r.deployment.participants = [⟨backend, some ⟨.backend r.metadataStore, true⟩⟩]) ∧
      (∀ context, r.backendFor context = .ok r.metadataStore) ∧
      ∀ context v ref m, v.call.accessed? = some ref →
        ((r.setTime v.time).deployment.access r.metadataStore ref).answer = .ok (.expired m) →
        let left := ((r.setTime v.time).deployment.access r.metadataStore ref).state
        r.use (.request context v) =
          ({ r with deployment := left.report [ref] }.performOnMetadata (.delete [ref])).andThen
            (fun _ r => .fail .seriesExpired r) ∧
        ((∀ options ∈ r.options, BackendKind.ofName options.kind = .ok .redis →
            Remote.Reliable stage) →
          (r.use (.request context v)).answer = .error .seriesExpired ∧
            (r.use (.request context v)).state.Misses ref m) := by
  refine ⟨plan.exists_assemble_iff now, RegistryPlan.assemble_refused now, fun none => ?_,
    fun r => RegistryPlan.builds_of_build, fun r states => RegistryPlan.builds_of_buildInBackground,
    ?_⟩
  · obtain ⟨backends, strategy⟩ := plan
    obtain rfl : backends = [] := none
    exact RegistryPlan.assemble_nil strategy now
  intro stage built builds us r
  obtain ⟨options, backend, events, _, fresh, _⟩ := builds.wired
  have wired : r.Wired options backend.kind := fresh.uses us
  obtain ⟨last, _, only⟩ := wired.participant
  refine ⟨⟨options, last, wired.only, ?_, ?_⟩, fun context => ?_, fun context v ref m accesses found => ?_⟩
  · rw [wired.metadataStore]
    exact wired.find?
  · rw [wired.metadataStore]
    exact only
  · rw [wired.metadataStore]
    exact wired.backendFor context
  · refine ⟨wired.use_expired accesses found, fun reliable => ?_⟩
    rw [wired.only, ← fresh.only] at reliable
    rw [wired.metadataStore] at found
    exact builds.expired reliable us accesses found

/-- A backend on one server. -/
def servedBackend : BackendOptions where
  kind := "Redis"
  identifier := "main"
  holdsMetadata := true
  settings := [("redis", .array [.object [("addr", .string "a"), ("port", .integer 1)]])]

/-- The simple strategy is named with blanks around it. -/
def servedPlan : RegistryPlan := ⟨[servedBackend], { kind := " simple " }⟩

/-- A series that is soon to expire is created through the metadata facade. -/
def shortLivedUses : List Registry.Use :=
  [.request default ⟨⟨0⟩, .connect⟩,
    .metadata ⟨⟨0⟩, .create (fun _ => ⟨"token", 0⟩) [(⟨1⟩, ⟨⟨0⟩, "load", ["a"], some 3⟩)]⟩]

/-- Five seconds later a write finds it expired, and then a search does not find it. -/
theorem registry_wires_served : ∃ built, servedPlan.Builds ⟨0⟩ Remote.sharedServer built ∧
    let v : Visit := ⟨⟨5000⟩, .write ⟨⟨0⟩, ⟨1⟩⟩ .empty (fun _ _ => .zero) [5000] [.ofUInt64 3]⟩
    let outcome := (built.uses shortLivedUses).use (.request default v)
    outcome.answer = .error .seriesExpired ∧ (outcome.state.use
      (.metadata ⟨⟨5000⟩, .search (.byName ⟨0⟩ "load")⟩)).answer = .ok (.found []) := by
  obtain ⟨calm, empty⟩ := Stage.calm_started
    (show Remote.sharedServer.servers = [""].map .withPassword from rfl)
  have reliable : Remote.Reliable Remote.sharedServer :=
    ⟨calm, by decide, fun r inside => empty r inside ▸ Remote.orderly_empty⟩
  have made : servedPlan.assemble ⟨0⟩ = .ok (.single servedBackend
      (.remote (.ofOptions { connections := [(⟨0⟩, ⟨"a", 1, "", 0, .server⟩)] })) ⟨0⟩) := rfl
  refine ⟨_, .assembled made, ?_⟩
  obtain ⟨-, -, -, -, -, wires⟩ := registry_wires servedPlan ⟨0⟩
  obtain ⟨-, -, expired⟩ := wires Remote.sharedServer _ (.assembled made) shortLivedUses
  obtain ⟨-, gone⟩ := expired default ⟨⟨5000⟩, .write ⟨⟨0⟩, ⟨1⟩⟩ .empty (fun _ _ => .zero) [5000]
    [.ofUInt64 3]⟩ ⟨⟨0⟩, ⟨1⟩⟩ ⟨⟨1⟩, ⟨0⟩, "load", ["a"], some 3⟩ rfl (by decide +kernel)
  obtain ⟨answer, -, missed⟩ := gone fun _ _ _ => reliable
  exact ⟨answer, missed ⟨5000⟩ (.byName ⟨0⟩ "load") rfl rfl rfl⟩

end SeriesStorage
