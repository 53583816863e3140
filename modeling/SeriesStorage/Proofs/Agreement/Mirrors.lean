import SeriesStorage.Proofs.Remote.Connecting
import SeriesStorage.Proofs.Remote.ReadingPoints

/-!
# A server that mirrors a store

The keys of a namespace on a server mirror a store in memory (`Mirrors`) if they hold the catalogue
of the store and the points of its series.  A store and a client agree (`Agrees`) if the server of
the namespace mirrors the store and the cache keeps no descriptor that the store does not have.

* `Mirrors.createSeries`, `Mirrors.without`, `Mirrors.append`: changes on both sides.
* `agrees_opened`: a client that has just connected agrees with an empty store.
-/

namespace SeriesStorage

namespace Memory.Store

/-! ## The catalogue of a store -/

/-- What a store knows about the series of a namespace. -/
def catalogue (s : Store) (ns : Namespace) : Catalogue where
  names := fun n => s.names.get? (ns, n)
  records := s.records.get?
  lastId := s.lastId.toNat

/-- A consistent store with series of one namespace only, and ids that a counter can hold. -/
structure OnlyOf (s : Store) (ns : Namespace) : Prop extends Consistent s where
  owner : ∀ id m, s.records.get? id = some m → m.ns = ns
  bounded : s.lastId.toNat ≤ maxInt64

end Memory.Store

open Memory (Store)
open Memory.Store (Stored)

variable {s : Store} {ns : Namespace}

namespace Memory.Store

theorem onlyOf_empty (ns : Namespace) : empty.OnlyOf ns where
  toConsistent := consistent_empty
  owner := by intro id m h; cases h
  bounded := Nat.zero_le _

theorem OnlyOf.wellFormed (h : s.OnlyOf ns) : (s.catalogue ns).WellFormed ns where
  described := by
    intro id m hm
    obtain ⟨hid, hname⟩ := h.described id m hm
    have hns := h.owner id m hm
    rw [hns] at hname
    exact ⟨hid, hns, hname⟩
  named := by
    intro n id hn
    obtain ⟨m, hm, _, hname⟩ := h.named ns n id hn
    exact ⟨m, hm, hname⟩
  counted := h.counted
  bounded := h.bounded

/-- A series of the namespace is there if its id has a descriptor. -/
theorem OnlyOf.has_iff (h : s.OnlyOf ns) {ref : SeriesRef} (hns : ref.ns = ns) :
    s.Has ref ↔ ∃ m, s.records.get? ref.id = some m :=
  ⟨fun ⟨m, hm, _⟩ => ⟨m, hm⟩, fun ⟨m, hm⟩ => ⟨m, hm, (h.owner _ m hm).trans hns.symm⟩⟩

theorem OnlyOf.ref_eq (h : s.OnlyOf ns) {id : SeriesId} {m : SeriesMetadata}
    (hm : s.records.get? id = some m) : m.ref = ⟨ns, id⟩ := by
  rw [SeriesMetadata.ref, (h.described id m hm).1, h.owner id m hm]

theorem room_of_bounded {s : Store} (room : s.lastId.toNat < maxInt64) :
    s.lastId.toNat + 1 < 0x10000000000000000 := by
  have : maxInt64 = 0x7fffffffffffffff := rfl
  omega

theorem OnlyOf.createSeries (h : s.OnlyOf ns) (room : s.lastId.toNat < maxInt64) (now : UInt64)
    {input : SeriesInput} (hns : input.ns = ns)
    (absent : s.names.get? (input.ns, input.name) = none) :
    (s.createSeries now input).OnlyOf ns where
  toConsistent := h.toConsistent.createSeries (room_of_bounded room) now absent
  owner := by
    intro id m hm
    rw [records_createSeries, Table.get?_insert] at hm
    split at hm
    · obtain rfl := Option.some.inj hm
      exact hns
    · exact h.owner id m hm
  bounded := by
    rw [lastId_createSeries, show (s.lastId + 1).toNat = s.lastId.toNat + 1 from
      nextId_toNat (room_of_bounded room)]
    exact room

theorem OnlyOf.without (h : s.OnlyOf ns) {refs : List SeriesRef} (has : ∀ ref ∈ refs, s.Has ref) :
    (s.without refs).OnlyOf ns where
  toConsistent := h.toConsistent.without has
  owner := by
    intro id m hm
    rw [records_without] at hm
    split at hm
    · cases hm
    · exact h.owner id m hm
  bounded := by
    rw [lastId_without]
    exact h.bounded

theorem OnlyOf.append (h : s.OnlyOf ns) {ref : SeriesRef} (has : s.Has ref)
    (more : List Memory.KeyedValue) : (s.append ref more).OnlyOf ns where
  toConsistent := h.toConsistent.append has more
  owner := h.owner
  bounded := h.bounded

/-! ## Changes of the catalogue -/

theorem catalogue_createSeries (room : s.lastId.toNat < maxInt64) (now : UInt64)
    {input : SeriesInput} (hns : input.ns = ns) :
    (s.createSeries now input).catalogue ns =
      (s.catalogue ns).count.add (input.describe (s.catalogue ns).nextId now) := by
  have next : (s.catalogue ns).nextId = s.nextId := by
    show (⟨UInt64.ofNat (s.lastId.toNat + 1)⟩ : SeriesId) = ⟨s.lastId + 1⟩
    rw [UInt64.ofNat_add, UInt64.ofNat_toNat]
    rfl
  rw [next]
  unfold catalogue Catalogue.count Catalogue.add
  congr 1
  · funext n
    rw [names_createSeries, Table.get?_insert, hns]
    by_cases same : input.name = n
    · simp [SeriesInput.describe, same]
    · simp [SeriesInput.describe, same, Ne.symm same]
  · funext id
    rw [records_createSeries, Table.get?_insert]
    by_cases same : s.nextId = id
    · simp [SeriesInput.describe, same]
    · simp [SeriesInput.describe, same, Ne.symm same]
  · exact nextId_toNat (room_of_bounded room)

/-- The descriptors of a batch that is there. -/
theorem catalogue_without (h : s.OnlyOf ns) {refs : List SeriesRef} {metas : List SeriesMetadata}
    (found : List.Forall₂ (fun ref m => s.records.get? ref.id = some m) refs metas) :
    (s.without refs).catalogue ns = (s.catalogue ns).removeAll metas := by
  have ids : ∀ id, (∃ ref ∈ refs, ref.id = id) ↔ ∃ m ∈ metas, m.id = id := by
    intro id
    constructor
    · rintro ⟨ref, href, rfl⟩
      obtain ⟨m, hm, record⟩ := Remote.exists_left_of_forall₂ found.flip href
      exact ⟨m, hm, (h.described _ m record).1⟩
    · rintro ⟨m, hm, rfl⟩
      obtain ⟨ref, href, record⟩ := Remote.exists_left_of_forall₂ found hm
      exact ⟨ref, href, (h.described _ m record).1.symm⟩
  have names : ∀ n, (∃ ref ∈ refs, s.names.get? (ns, n) = some ref.id) ↔
      ∃ m ∈ metas, m.name = n := by
    intro n
    constructor
    · rintro ⟨ref, href, named⟩
      obtain ⟨m, hm, record⟩ := Remote.exists_left_of_forall₂ found.flip href
      obtain ⟨m', record', _, rfl⟩ := h.named ns n _ named
      obtain rfl := Option.some.inj (record.symm.trans record')
      exact ⟨m, hm, rfl⟩
    · rintro ⟨m, hm, rfl⟩
      obtain ⟨ref, href, record⟩ := Remote.exists_left_of_forall₂ found hm
      have named := (h.described _ m record).2
      rw [h.owner _ m record] at named
      exact ⟨ref, href, named⟩
  ext1
  · funext n
    rw [Catalogue.names_removeAll]
    exact (h.toIndexed.names_without refs (ns, n)).trans (if_congr (names n) rfl rfl)
  · funext id
    rw [Catalogue.records_removeAll]
    exact (s.records_without refs id).trans (if_congr (ids id) rfl rfl)
  · rw [Catalogue.lastId_removeAll]
    exact congrArg UInt64.toNat (s.lastId_without refs)

end Memory.Store

namespace Remote

open Server (Keyspace Network Node)

/-! ## Servers that mirror a store -/

/-- The keys of a namespace hold the catalogue of a store and the points of its series, and no lock.
Ids that were not given yet have no points. -/
structure Mirrors (ks : Keyspace) (ns : Namespace) (s : Store) : Prop where
  holds : Holds ks ns (s.catalogue ns)
  unlocked : Unlocked ks ns
  points : ∀ id m, s.records.get? id = some m → ∃ accepted,
    Stored accepted (s.valuesOf ⟨ns, id⟩) ∧ HoldsPoints ks ⟨ns, id⟩ accepted ∧
      ∀ p ∈ accepted, p.1.toNat ≤ 0x20000000000000
  unused : ∀ id bucket, s.lastId.toNat < id.number.toNat →
    ks.get? (Key.data ⟨ns, id⟩ bucket) = none

variable {ks ks' : Keyspace}

theorem mirrors_empty (ns : Namespace) : Mirrors .empty ns .empty where
  holds := holds_empty ns
  unlocked := fun _ => rfl
  points := by intro id m h; cases h
  unused := fun _ _ _ => rfl

/-- Keys of points do not describe a namespace. -/
theorem Confined.data (h : Confined ns ks ks') (ref : SeriesRef) (bucket : UInt64) :
    ks'.get? (Key.data ref bucket) = ks.get? (Key.data ref bucket) :=
  h (.data ref bucket) fun no => no

theorem Unlocked.confined (h : Unlocked ks ns) (confined : Confined ns ks ks') :
    Unlocked ks' ns :=
  fun n => (confined (.lock ns n) fun no => no).trans (h n)

/-- A series is created on both sides. -/
theorem Mirrors.createSeries (h : Mirrors ks ns s) (only : s.OnlyOf ns)
    (room : s.lastId.toNat < maxInt64) (now : UInt64) {input : SeriesInput} (hns : input.ns = ns)
    (holds : Holds ks' ns ((s.catalogue ns).count.add
      (input.describe (s.catalogue ns).nextId now)))
    (confined : Confined ns ks ks') : Mirrors ks' ns (s.createSeries now input) where
  holds := by
    rw [Memory.Store.catalogue_createSeries room now hns]
    exact holds
  unlocked := h.unlocked.confined confined
  points := by
    intro id m hm
    rw [Memory.Store.records_createSeries, Table.get?_insert] at hm
    split at hm
    · next same =>
      -- nothing was stored for an id that was not given yet
      subst same
      have new := only.records_nextId (Memory.Store.room_of_bounded room)
      refine ⟨[], ?_, holdsPoints_nil fun bucket => ?_, by simp⟩
      · show Stored [] (s.valuesOf ⟨ns, s.nextId⟩)
        rw [only.valuesOf_eq_nil]
        · exact .nil
        · rintro ⟨m', hm', _⟩
          rw [new] at hm'
          cases hm'
      · rw [confined.data]
        refine h.unused _ bucket ?_
        rw [Memory.Store.nextId_toNat (Memory.Store.room_of_bounded room)]
        exact Nat.lt_succ_self _
    · obtain ⟨accepted, stored, held, exact⟩ := h.points id m hm
      exact ⟨accepted, stored, held.congr fun bucket => confined.data _ bucket, exact⟩
  unused := by
    intro id bucket beyond
    rw [confined.data]
    refine h.unused id bucket ?_
    rw [Memory.Store.lastId_createSeries, show (s.lastId + 1).toNat = s.lastId.toNat + 1 from
      Memory.Store.nextId_toNat (Memory.Store.room_of_bounded room)] at beyond
    omega

/-- A batch is deleted on both sides. -/
theorem Mirrors.without (h : Mirrors ks ns s) (only : s.OnlyOf ns) {refs : List SeriesRef}
    {metas : List SeriesMetadata}
    (found : List.Forall₂ (fun ref m => s.records.get? ref.id = some m) refs metas)
    (holds : Holds ks' ns ((s.catalogue ns).removeAll metas)) (confined : Confined ns ks ks') :
    Mirrors ks' ns (s.without refs) where
  holds := by
    rw [Memory.Store.catalogue_without only found]
    exact holds
  unlocked := h.unlocked.confined confined
  points := by
    intro id m hm
    rw [Memory.Store.records_without] at hm
    split at hm
    · cases hm
    · next kept =>
      obtain ⟨accepted, stored, held, exact⟩ := h.points id m hm
      refine ⟨accepted, ?_, held.congr fun bucket => confined.data _ bucket, exact⟩
      rw [Memory.Store.valuesOf_without, if_neg]
      · exact stored
      · exact fun inside => kept ⟨_, inside, rfl⟩
  unused := by
    intro id bucket beyond
    rw [confined.data]
    refine h.unused id bucket ?_
    rwa [Memory.Store.lastId_without] at beyond

/-- Points are written on both sides. -/
theorem Mirrors.append (h : Mirrors ks ns s) (only : s.OnlyOf ns) {id : SeriesId}
    {m : SeriesMetadata} (hm : s.records.get? id = some m) {accepted batch : List AcceptedPoint}
    {more : List Memory.KeyedValue} (stored : Stored accepted (s.valuesOf ⟨ns, id⟩))
    (exact : ∀ p ∈ accepted, p.1.toNat ≤ 0x20000000000000) (storedMore : Stored batch more)
    (exactMore : ∀ p ∈ batch, p.1.toNat ≤ 0x20000000000000)
    (held : HoldsPoints ks' ⟨ns, id⟩ (accepted ++ batch))
    (others : ∀ k : KeyName, (∀ bucket, k ≠ .data ⟨ns, id⟩ bucket) →
      ks'.get? k.text = ks.get? k.text) :
    Mirrors ks' ns (s.append ⟨ns, id⟩ more) where
  holds := h.holds.congr fun k hk => others k fun bucket same => by
    subst same
    exact hk
  unlocked := fun n => (others (.lock ns n) fun _ => by simp).trans (h.unlocked n)
  points := by
    intro id' m' hm'
    rw [Memory.Store.valuesOf_append]
    by_cases same : id = id'
    · subst same
      refine ⟨accepted ++ batch, ?_, held, fun p hp => ?_⟩
      · rw [if_pos rfl]
        exact List.rel_append stored storedMore
      · rcases List.mem_append.mp hp with old | new
        · exact exact p old
        · exact exactMore p new
    · obtain ⟨accepted', stored', held', exact'⟩ := h.points id' m' hm'
      refine ⟨accepted', ?_, held'.congr fun bucket => others (.data ⟨ns, id'⟩ bucket) ?_, exact'⟩
      · rw [if_neg (by simpa using same), List.append_nil]
        exact stored'
      · intro bucket' heq
        simp only [KeyName.data.injEq, SeriesRef.mk.injEq] at heq
        exact same heq.1.2.symm
  unused := by
    intro id' bucket beyond
    have given := (only.counted id m hm).2
    refine (others (.data ⟨ns, id'⟩ bucket) fun bucket' heq => ?_).trans
      (h.unused id' bucket beyond)
    simp only [KeyName.data.injEq, SeriesRef.mk.injEq] at heq
    rw [← heq.1.2] at given
    change s.lastId.toNat < _ at beyond
    omega

/-! ## Agreement -/

/-- Every connection leads to a server. -/
def AllReached (connections : Connections) (net : Network) : Prop :=
  ∀ entry ∈ connections, ∃ node, net.nodes[entry.2.server]? = some node

theorem AllReached.setKeys {connections : Connections} {net : Network}
    (h : AllReached connections net) (server : Nat) (ks : Keyspace) :
    AllReached connections (net.setKeys server ks) := by
  intro entry hentry
  obtain ⟨node, found⟩ := h entry hentry
  show ∃ node, (net.nodes.modify server _)[entry.2.server]? = some node
  rw [List.getElem?_modify, found]
  exact ⟨_, rfl⟩

/-- A store and a client that is connected agree on a namespace: the server that `c` leads to
mirrors the store, and what the cache keeps the store has. -/
structure Agrees (connections : Connections) (c : Connection) (ns : Namespace) (s : Store)
    (site : Site Network) : Prop where
  only : s.OnlyOf ns
  connected : site.client.connections = some connections
  reached : AllReached connections site.world
  mirrored : ∃ node, Reaches site connections ns c node ∧ Mirrors node.keyspace ns s
  cached : ∀ id m, site.client.cache.get? ⟨ns, id⟩ = some m → s.records.get? id = some m

variable {connections : Connections} {c : Connection} {site : Site Network}

namespace Agrees

/-- Both sides change: the store, and the keys of the server with what is kept in the cache. -/
theorem change (h : Agrees connections c ns s site) {node : Node}
    (reaches : Reaches site connections ns c node) {s' : Store} (only : s'.OnlyOf ns)
    (mirrors : Mirrors ks ns s') {cache : Cache}
    (cached : ∀ id m, cache.get? ⟨ns, id⟩ = some m → s'.records.get? id = some m) :
    Agrees connections c ns s'
      ⟨{ site.client with cache := cache }, site.world.setKeys c.server ks⟩ where
  only := only
  connected := h.connected
  reached := h.reached.setKeys c.server ks
  mirrored := ⟨{ node with keyspace := ks }, ⟨reaches.route, (reaches.setKeys ks).node⟩, mirrors⟩
  cached := cached

/-- A descriptor of the store enters the cache. -/
theorem remember (h : Agrees connections c ns s site) (id : SeriesId) :
    Agrees connections c ns s (site.remember ⟨ns, id⟩ (s.records.get? id)) := by
  cases record : s.records.get? id with
  | none => exact h
  | some m =>
    obtain ⟨node, reaches, mirrors⟩ := h.mirrored
    refine ⟨h.only, h.connected, h.reached, ⟨node, ⟨reaches.route, reaches.node⟩, mirrors⟩,
      fun id' m' found => ?_⟩
    obtain ⟨same, rfl⟩ | before := Cache.get?_of_insert found
    · obtain rfl : id' = id := congrArg SeriesRef.id same
      exact record
    · exact h.cached id' m' before

/-- What is asked for through the cache is what the store has. -/
theorem cachedMetadata (h : Agrees connections c ns s site) (id : SeriesId) :
    site.outcome (Remote.cachedMetadata connections ⟨ns, id⟩) =
      .succeed (s.records.get? id) (site.remember ⟨ns, id⟩ (s.records.get? id)) := by
  obtain ⟨node, reaches, mirrors⟩ := h.mirrored
  have found : (site.client.cache.get? ⟨ns, id⟩).or (s.records.get? id) = s.records.get? id := by
    cases cached : site.client.cache.get? ⟨ns, id⟩ with
    | none => rfl
    | some m =>
      rw [h.cached id m cached]
      rfl
  have asked := reaches.cachedMetadata mirrors.holds id
  change site.outcome _ = .succeed ((site.client.cache.get? ⟨ns, id⟩).or (s.records.get? id))
    (site.remember ⟨ns, id⟩ ((site.client.cache.get? ⟨ns, id⟩).or (s.records.get? id))) at asked
  rwa [found] at asked

end Agrees

/-! ## The beginning -/

/-- The connection of a namespace is one of the connections, and that of its own namespace. -/
theorem exists_own_of_route {connections : Connections} {c : Connection}
    (route : connections.route ns = .ok c) :
    ∃ n, (n, c) ∈ connections ∧ connections.route n = .ok c := by
  have own : ∀ n entry, connections.find? (fun e => e.1 = n) = some entry →
      ∃ n, (n, entry.2) ∈ connections ∧ connections.route n = .ok entry.2 := by
    intro n entry found
    have same := List.find?_some found
    obtain rfl : entry.1 = n := of_decide_eq_true same
    refine ⟨entry.1, List.mem_of_find?_eq_some found, ?_⟩
    unfold Connections.route
    rw [found]
  unfold Connections.route at route
  split at route
  · next found =>
    obtain rfl := Except.ok.inj route
    exact own ns _ found
  · split at route
    · next found =>
      obtain rfl := Except.ok.inj route
      exact own defaultNamespace _ found
    · cases route

/-- A namespace with a connection of its own, or else with a default one, is served. -/
theorem exists_route {connections : Connections}
    (served : ∃ n ∈ connections.map (·.1), n = ns ∨ n = defaultNamespace) :
    ∃ c, connections.route ns = .ok c := by
  unfold Connections.route
  split
  · exact ⟨_, rfl⟩
  · next none_own =>
    split
    · exact ⟨_, rfl⟩
    · next none_default =>
      obtain ⟨n, hn, which⟩ := served
      obtain ⟨entry, hentry, rfl⟩ := List.mem_map.mp hn
      rcases which with own | fallback
      · exact absurd own (by simpa using List.find?_eq_none.mp none_own entry hentry)
      · exact absurd fallback (by simpa using List.find?_eq_none.mp none_default entry hentry)

/-- A client that has just connected to empty servers agrees with an empty store. -/
theorem agrees_opened {site' : Site Network} (opened : Opened site site' connections)
    (served : ∃ entry ∈ site.client.options.connections,
      entry.1 = ns ∨ entry.1 = defaultNamespace)
    (empty : ∀ (i : Nat) node, site.world.nodes[i]? = some node → node.keyspace = .empty)
    (unused : ∀ ref, site.client.cache.get? ref = none) :
    ∃ c, Agrees connections c ns .empty site' := by
  obtain ⟨entry, hentry, which⟩ := served
  have named : entry.1 ∈ connections.map (·.1) := by
    rw [opened.namespaces]
    exact List.mem_map_of_mem hentry
  have routed : ∃ c, connections.route ns = .ok c := exists_route ⟨entry.1, named, which⟩
  obtain ⟨c, route⟩ := routed
  obtain ⟨n, inside, _⟩ := exists_own_of_route route
  obtain ⟨node, found⟩ := opened.reached _ inside
  refine ⟨c, Memory.Store.onlyOf_empty ns, opened.connected, ?_, ⟨node, ⟨route, ?_⟩, ?_⟩, ?_⟩
  · rw [opened.world]
    exact opened.reached
  · rw [opened.world]
    exact found
  · rw [empty c.server node found]
    exact mirrors_empty ns
  · intro id m cached
    rw [opened.cache, unused] at cached
    cases cached

end Remote

end SeriesStorage
