import SeriesStorage.Proofs.Agreement.Mirrors
import SeriesStorage.Proofs.Deployment.Visits

/-!
# Calls that correspond

What the calls of a store and of a client that agree answer, and that they agree afterwards.

* `Agrees.createFrom`: a batch is created, unless the server has no id left.
* `Agrees.delete`: a batch is deleted, or it is refused for the same reason.
* `Agrees.search`, `Agrees.access`: what is looked up is the same.
* `Agrees.append`, `Agrees.fetch`: points are written and read.
* `Agrees.clear`: both forget everything.
-/

namespace SeriesStorage

namespace Remote

open Memory (Store)
open Memory.Store (Inserts Stored)
open Server (Keyspace Network Node)

variable {s s' : Store} {ns : Namespace} {connections : Connections} {c : Connection}
  {site : Site Network}

namespace Agrees

/-! ## Creating -/

/-- A series is found by both, or created by both, or the server has no id left. -/
theorem createOne (h : Agrees connections c ns s site) (now : UInt64) (chance : LockChance)
    {input : SeriesInput} (hns : input.ns = ns) :
    (∃ text, (site.outcome (createOne connections now chance input)).answer =
      .error (.redis (.refused text))) ∨
    (∃ id, s.names.get? (input.ns, input.name) = some id ∧
      site.outcome (createOne connections now chance input) = .succeed (id, false) site) ∨
    (s.names.get? (input.ns, input.name) = none ∧ ∃ site',
      site.outcome (createOne connections now chance input) = .succeed (s.nextId, true) site' ∧
      Agrees connections c ns (s.createSeries now input) site') := by
  subst hns
  obtain ⟨node, reaches, mirrors⟩ := h.mirrored
  have result := reaches.createOne mirrors.holds h.only.wellFormed mirrors.unlocked now chance
  generalize site.outcome (Remote.createOne connections now chance input) = outcome at result
  cases result with
  | found named => exact Or.inr (Or.inl ⟨_, named, rfl⟩)
  | refused _ _ _ => exact Or.inl ⟨_, rfl⟩
  | @created ks absent room holds confined =>
    refine Or.inr (Or.inr ⟨absent, _, rfl, ?_⟩)
    refine h.change reaches (h.only.createSeries room now rfl absent)
      (mirrors.createSeries h.only room now rfl holds confined) fun id m kept => ?_
    obtain ⟨_, before⟩ := Cache.get?_of_invalidate kept
    have there := h.cached id m before
    rw [Memory.Store.records_createSeries, Table.get?_insert, if_neg]
    · exact there
    · rintro rfl
      rw [h.only.records_nextId (Memory.Store.room_of_bounded room)] at there
      cases there

/-- A batch is worked off entry by entry. -/
theorem createFrom {now : UInt64} {batch : CreateBatch} {rows : List Created}
    (inserts : Inserts now batch s rows s') (h : Agrees connections c ns s site)
    (within : ∀ entry ∈ batch, entry.2.ns = ns) (chances : LockChances) (i : Nat) :
    (∃ text, (site.outcome (createFrom connections now chances i batch)).answer =
      .error (.redis (.refused text))) ∨
    ∃ site', site.outcome (createFrom connections now chances i batch) = .succeed rows site' ∧
      Agrees connections c ns s' site' := by
  induction inserts generalizing site i with
  | done => exact Or.inr ⟨site, rfl, h⟩
  | @found mark input rest s s' rows id named _ ih =>
    have others := fun entry hentry => within entry (List.mem_cons_of_mem _ hentry)
    unfold Remote.createFrom
    rw [Site.outcome_bind]
    obtain ⟨text, refused⟩ | ⟨id', named', ran⟩ | ⟨absent, _⟩ :=
      h.createOne now (chances i) (within (mark, input) List.mem_cons_self)
    · rw [Outcome.andThen_eq_of_error refused]
      exact Or.inl ⟨text, rfl⟩
    · obtain rfl := Option.some.inj (named.symm.trans named')
      rw [ran, Outcome.andThen_succeed, Site.outcome_bind]
      obtain ⟨text, refused⟩ | ⟨site', ran', agrees⟩ := ih h others (i + 1)
      · rw [Outcome.andThen_eq_of_error refused]
        exact Or.inl ⟨text, rfl⟩
      · rw [ran', Outcome.andThen_succeed]
        exact Or.inr ⟨site', rfl, agrees⟩
    · rw [named] at absent
      cases absent
  | @created mark input rest s s' rows absent _ ih =>
    have others := fun entry hentry => within entry (List.mem_cons_of_mem _ hentry)
    unfold Remote.createFrom
    rw [Site.outcome_bind]
    obtain ⟨text, refused⟩ | ⟨id, named, _⟩ | ⟨_, site', ran, agrees⟩ :=
      h.createOne now (chances i) (within (mark, input) List.mem_cons_self)
    · rw [Outcome.andThen_eq_of_error refused]
      exact Or.inl ⟨text, rfl⟩
    · rw [absent] at named
      cases named
    · rw [ran, Outcome.andThen_succeed, Site.outcome_bind]
      obtain ⟨text, refused⟩ | ⟨site'', ran', agrees'⟩ := ih agrees others (i + 1)
      · rw [Outcome.andThen_eq_of_error refused]
        exact Or.inl ⟨text, rfl⟩
      · rw [ran', Outcome.andThen_succeed]
        exact Or.inr ⟨site'', rfl, agrees'⟩

/-! ## Deleting -/

theorem loadMetadata (h : Agrees connections c ns s site) (id : SeriesId) :
    site.outcome (loadMetadata connections ⟨ns, id⟩) = .succeed (s.records.get? id) site := by
  obtain ⟨node, reaches, mirrors⟩ := h.mirrored
  exact reaches.loadMetadata mirrors.holds id

/-- A batch is loaded if all of it is there, and is refused else. -/
theorem loadBatch (h : Agrees connections c ns s site) {refs : List SeriesRef}
    (within : ∀ ref ∈ refs, ref.ns = ns) :
    (∃ metas, site.outcome (loadBatch connections refs) = .succeed metas site ∧
      List.Forall₂ (fun ref m => s.records.get? ref.id = some m) refs metas) ∨
    (site.outcome (loadBatch connections refs) = .fail .metadataNotFound site ∧
      ¬ ∀ ref ∈ refs, s.Has ref) := by
  induction refs with
  | nil => exact Or.inl ⟨[], rfl, .nil⟩
  | cons ref rest ih =>
    obtain ⟨ns', id⟩ := ref
    obtain rfl : ns' = ns := within _ List.mem_cons_self
    unfold Remote.loadBatch
    rw [Site.outcome_bind, h.loadMetadata, Outcome.andThen_succeed]
    cases record : s.records.get? id with
    | none =>
      refine Or.inr ⟨rfl, fun all => ?_⟩
      obtain ⟨m, hm, _⟩ := all _ List.mem_cons_self
      rw [record] at hm
      cases hm
    | some m =>
      dsimp only
      rw [if_neg (by simpa using h.only.owner id m record), Site.outcome_bind]
      obtain ⟨metas, loaded, found⟩ | ⟨refused, missing⟩ :=
        ih fun ref href => within ref (List.mem_cons_of_mem _ href)
      · rw [loaded, Outcome.andThen_succeed]
        exact Or.inl ⟨m :: metas, rfl, .cons record found⟩
      · rw [refused, Outcome.andThen_fail]
        exact Or.inr ⟨rfl, fun all => missing fun ref href => all ref (List.mem_cons_of_mem _ href)⟩

/-- Descriptors of one namespace are removed from its server. -/
theorem executeRemovals (h : Agrees connections c ns s site) {metas : List SeriesMetadata}
    (records : ∀ m ∈ metas, s.records.get? m.id = some m) {node : Node}
    (reaches : Reaches site connections ns c node) (mirrors : Mirrors node.keyspace ns s) :
    ∃ ks, Holds ks ns ((s.catalogue ns).removeAll metas) ∧ Confined ns node.keyspace ks ∧
      site.outcome (executeRemovals connections metas (metas.map (·.ns)).eraseDups) =
        .succeed () (site.setKeys c.server ks) := by
  have owner : ∀ m ∈ metas, m.ns = ns := fun m hm => h.only.owner m.id m (records m hm)
  obtain ⟨ks, holds, confined, ran⟩ := reaches.executeRemoval mirrors.holds owner
    fun m hm => h.only.wellFormed.admits (records m hm)
  refine ⟨ks, holds, confined, ?_⟩
  rw [executeRemovals_one connections owner, ran]

/-- **A batch is deleted** on both sides, or refused since a series of it is not there. -/
theorem delete (h : Agrees connections c ns s site) {refs : List SeriesRef}
    (within : ∀ ref ∈ refs, ref.ns = ns) :
    (∃ site', site.outcome (delete refs) = .succeed () site' ∧
      s.delete refs = .succeed () (s.without refs) ∧
      Agrees connections c ns (s.without refs) site') ∨
    (site.outcome (delete refs) = .fail .metadataNotFound site ∧
      s.delete refs = .fail .metadataNotFound s) := by
  unfold Remote.delete
  rw [Site.outcome_bind, Site.outcome_connected h.connected, Outcome.andThen_succeed,
    Site.outcome_bind]
  obtain ⟨metas, loaded, found⟩ | ⟨refused, missing⟩ := h.loadBatch within
  · have has : ∀ ref ∈ refs, s.Has ref := by
      intro ref href
      obtain ⟨m, _, record⟩ := exists_left_of_forall₂ found.flip href
      exact (h.only.has_iff (within ref href)).mpr ⟨m, record⟩
    have records : ∀ m ∈ metas, s.records.get? m.id = some m := by
      intro m hm
      obtain ⟨ref, _, record⟩ := exists_left_of_forall₂ found hm
      rwa [(h.only.described _ m record).1]
    obtain ⟨node, reaches, mirrors⟩ := h.mirrored
    obtain ⟨ks, holds, confined, ran⟩ := h.executeRemovals records reaches mirrors
    rw [loaded, Outcome.andThen_succeed, Site.outcome_bind, ran, Outcome.andThen_succeed,
      Site.outcome_invalidate]
    refine Or.inl ⟨_, rfl, Memory.Store.delete_of_has has, ?_⟩
    refine h.change reaches (h.only.without has) (mirrors.without h.only found holds confined)
      fun id m kept => ?_
    obtain ⟨outside, before⟩ := Cache.get?_of_invalidate kept
    rw [Memory.Store.records_without, if_neg]
    · exact h.cached id m before
    · rintro ⟨ref, href, rfl⟩
      obtain ⟨m', hm', record⟩ := exists_left_of_forall₂ found.flip href
      exact outside (List.mem_map.mpr ⟨m', hm', h.only.ref_eq record⟩)
  · rw [refused, Outcome.andThen_fail]
    obtain ⟨e, why, failed⟩ := Memory.Store.delete_of_not_has missing
    refine Or.inr ⟨rfl, ?_⟩
    obtain ⟨ref, href, reason⟩ := List.exists_of_findSome?_eq_some why
    unfold Memory.Store.refusal? at reason
    cases record : s.records.get? ref.id with
    | none =>
      rw [record] at reason
      obtain rfl := Option.some.inj reason
      exact failed
    | some m =>
      rw [record] at reason
      dsimp only at reason
      rw [if_neg (by simpa [within ref href] using h.only.owner ref.id m record)] at reason
      cases reason

/-! ## Looking up -/

/-- **A search** finds the same on both sides. -/
theorem search (h : Agrees connections c ns s site) {query : Search} (hns : query.ns = ns) :
    ∃ site', site.outcome (search query) = .answered (s.search query) site' ∧
      Agrees connections c ns s site' := by
  subst hns
  obtain ⟨node, reaches, mirrors⟩ := h.mirrored
  unfold Remote.search Memory.Store.search
  rw [Site.outcome_bind, Site.outcome_ofExcept]
  cases query.validate with
  | error e => exact ⟨site, rfl, h⟩
  | ok u =>
    rw [Outcome.andThen_eq_of_ok rfl, Outcome.state_answered, Site.outcome_bind,
      Site.outcome_connected h.connected, Outcome.andThen_succeed, Site.outcome_bind,
      reaches.lookupName (mirrors.holds.names query.name), Outcome.andThen_succeed,
      h.only.toIndexed.linked.lookupName_eq,
      show (s.catalogue query.ns).names query.name = s.names.get? (query.ns, query.name) from rfl]
    cases named : s.names.get? (query.ns, query.name) with
    | none => exact ⟨site, rfl, h⟩
    | some id =>
      obtain ⟨m, record, _⟩ := h.only.named query.ns query.name id named
      dsimp only
      rw [Site.outcome_bind, h.cachedMetadata, Outcome.andThen_succeed]
      refine ⟨_, ?_, h.remember id⟩
      rw [record]
      rfl

/-- An access finds the same on both sides. -/
theorem access (h : Agrees connections c ns s site) (now : UInt64) (id : SeriesId) :
    ∃ site', site.outcome (access now ⟨ns, id⟩) = .succeed (s.access now ⟨ns, id⟩) site' ∧
      Agrees connections c ns s site' := by
  refine ⟨_, ?_, h.remember id⟩
  unfold Remote.access
  rw [Site.outcome_bind, Site.outcome_connected h.connected, Outcome.andThen_succeed,
    Site.outcome_bind, h.cachedMetadata, Outcome.andThen_succeed]
  rfl

/-! ## Points -/

/-- **Points are written** on both sides, unless the server lacks a distinct member for one. -/
theorem append (h : Agrees connections c ns s site) {id : SeriesId} {m : SeriesMetadata}
    (record : s.records.get? id = some m) {req : RequestId} (direct : req.isEmpty = true)
    (draws draws' : Draws) {times : List UInt64}
    (exact : ∀ time ∈ times, time.toNat ≤ 0x20000000000000) (values : List Binary64) :
    (∃ time, (site.outcome (append ns req m draws' times values)).answer =
      .error (.keySpaceExhausted time)) ∨
    (∃ expected stored, (site.outcome (append ns req m draws' times values)).answer =
      .error (.internal (.writeCount expected stored))) ∨
    ∃ site', site.outcome (append ns req m draws' times values) = .succeed () site' ∧
      Agrees connections c ns
        (s.append ⟨ns, id⟩ (Memory.Store.keyedValues draws times values)) site' := by
  obtain ⟨node, reaches, mirrors⟩ := h.mirrored
  obtain ⟨accepted, stored, held, exactBefore⟩ := mirrors.points id m record
  have ref := h.only.ref_eq record
  rw [← ref] at held
  obtain exhausted | miscounted | ⟨ks, ran, held', others⟩ :=
    reaches.append h.connected held direct draws' times values
  · exact Or.inl exhausted
  · exact Or.inr (Or.inl miscounted)
  · rw [ref] at held' others
    have has : s.Has ⟨ns, id⟩ := ⟨m, record, h.only.owner id m record⟩
    refine Or.inr (Or.inr ⟨_, ran, ?_⟩)
    refine h.change reaches (h.only.append has _) ?_ h.cached
    exact mirrors.append h.only record stored exactBefore
      (Memory.Store.stored_keyedValues draws times values)
      (fun p hp => exact p.1 (List.of_mem_zip hp).1) held' others

/-- **Points are read** on both sides: those accepted, but for the payloads of NaNs. -/
theorem fetch (h : Agrees connections c ns s site) {id : SeriesId} {m : SeriesMetadata}
    (record : s.records.get? id = some m) {window : Window}
    (narrow : (bucketCount window.first window.last).toNat ≤ maxReadBuckets) :
    ∃ accepted answer, site.outcome (fetch ⟨ns, id⟩ window) = .answered answer site ∧
      Shows window accepted ((s.pointsIn ⟨ns, id⟩ window).map .points) ∧
      Shows window (readBack accepted) (answer.map .points) := by
  obtain ⟨node, reaches, mirrors⟩ := h.mirrored
  obtain ⟨accepted, stored, held, exact⟩ := mirrors.points id m record
  have reaches' : Reaches site connections (⟨ns, id⟩ : SeriesRef).ns c node := reaches
  obtain ⟨answer, ran, shows_⟩ := reaches'.fetch h.connected held exact narrow
  exact ⟨accepted, answer, ran, stored.shows_pointsIn window, shows_⟩

/-! ## Clearing -/

/-- Clearing reaches the servers of the namespaces, and what is empty stays empty. -/
theorem flushServers {namespaces : List Namespace} (reached : AllReached connections site.world)
    (routed : ∀ n ∈ namespaces, ∃ c, connections.route n = .ok c) :
    ∃ net, site.outcome (flushServers connections namespaces) = .succeed () ⟨site.client, net⟩ ∧
      (∀ (i : Nat) node, site.world.nodes[i]? = some node → ∃ node', net.nodes[i]? = some node' ∧
        (node.keyspace = .empty → node'.keyspace = .empty)) ∧
      ∀ n ∈ namespaces, ∀ c, connections.route n = .ok c →
        ∃ node', net.nodes[c.server]? = some node' ∧ node'.keyspace = .empty := by
  induction namespaces generalizing site with
  | nil =>
    exact ⟨site.world, rfl, fun i node found => ⟨node, found, id⟩, fun n hn => by cases hn⟩
  | cons n rest ih =>
    obtain ⟨first, route⟩ := routed n List.mem_cons_self
    obtain ⟨_, inside, _⟩ := exists_own_of_route route
    obtain ⟨node, found⟩ := reached _ inside
    have reaches : Reaches site connections n first node := ⟨route, found⟩
    have asked : site.outcome (ask connections n .flush fun _ => .ok ()) =
        .succeed () (site.setKeys first.server .empty) := reaches.ask .flush _ rfl
    have reached' : AllReached connections (site.setKeys first.server .empty).world :=
      reached.setKeys first.server .empty
    obtain ⟨net, ran, stay, cleared⟩ :=
      ih reached' fun n' hn' => routed n' (List.mem_cons_of_mem _ hn')
    refine ⟨net, ?_, fun i node' found' => ?_, fun n' hn' c' route' => ?_⟩
    · unfold Remote.flushServers
      rw [Site.outcome_bind, asked, Outcome.andThen_succeed, ran]
      rfl
    · by_cases here : first.server = i
      · have now_empty := Site.nodes_setKeys site first.server i .empty
        rw [if_pos here, found'] at now_empty
        obtain ⟨node'', found'', empty⟩ := stay i _ now_empty
        exact ⟨node'', found'', fun _ => empty rfl⟩
      · have same := Site.nodes_setKeys site first.server i .empty
        rw [if_neg here] at same
        exact stay i node' (same.trans found')
    · rcases List.mem_cons.mp hn' with rfl | hn'
      · obtain rfl := Except.ok.inj (route.symm.trans route')
        obtain ⟨node', found', empty⟩ := stay first.server _ (reaches.setKeys .empty).node
        exact ⟨node', found', empty rfl⟩
      · exact cleared n' hn' c' route'

/-- **Everything is forgotten** on both sides. -/
theorem clear (h : Agrees connections c ns s site) :
    ∃ site', site.outcome clear = .succeed () site' ∧
      Agrees connections c ns .empty site' := by
  obtain ⟨node, reaches, _⟩ := h.mirrored
  -- every namespace with a connection leads somewhere, and the connection of this one is reached
  have routed : ∀ n ∈ connections.map (·.1), ∃ c, connections.route n = .ok c :=
    fun n hn => exists_route ⟨n, hn, Or.inl rfl⟩
  obtain ⟨net, ran, stay, cleared⟩ := flushServers h.reached routed
  obtain ⟨n, inside, route⟩ := exists_own_of_route reaches.route
  obtain ⟨node', found, empty⟩ := cleared n (List.mem_map_of_mem inside) c route
  unfold Remote.clear
  rw [Site.outcome_bind, Site.outcome_connected h.connected, Outcome.andThen_succeed,
    Site.outcome_bind, ran, Outcome.andThen_succeed, Site.outcome_modify]
  refine ⟨_, rfl, Memory.Store.onlyOf_empty ns, h.connected, fun entry hentry => ?_,
    ⟨node', ⟨reaches.route, found⟩, ?_⟩, fun id m cached => by cases cached⟩
  · obtain ⟨before, there⟩ := h.reached entry hentry
    obtain ⟨after, there', _⟩ := stay _ before there
    exact ⟨after, there'⟩
  · rw [empty]
    exact mirrors_empty ns

end Agrees

end Remote

end SeriesStorage
